import ClipFerry.Pairing.HelloCodec
import ClipFerry.Pairing.Session

namespace ClipFerry.Pairing

open Checked Foundation Protocol Server Transition VirtualTree

variable {digest : List UInt8 → Secret} {s s' : PairingSession} {action : SessionAction}
  {world world' : PairingWorld} {j k : Nat} {hash other : Secret} {rest rest' : List UInt8}

def PairingSession.transcript (session : PairingSession) : Option (List UInt8) :=
  session.remote.map fun remote =>
    match session.role with
    | .listener => transcriptBytes session.hello remote
    | .connector => transcriptBytes remote session.hello

namespace PairingPhase

def Quiet : PairingPhase → Prop
  | starting | greeting | pinned => True
  | _ => False

def Undecided : PairingPhase → Prop
  | starting | greeting | pinned | sendingProof | readingProof | pending => True
  | _ => False

def Proved : PairingPhase → Prop
  | pending | sendingConfirm | readingConfirm | trusting => True
  | _ => False

end PairingPhase

structure Sane (digest : List UInt8 → Secret) (s : PairingSession) : Prop where
  hello : s.phase = .greeting → s.hello.WellFormed
  remote : ∀ {remote}, s.remote = some remote →
    s.hello.WellFormed ∧ remote.WellFormed ∧ remote.role = s.role.other
  hash : s.transcriptHash = s.transcript.map digest
  quiet : s.phase.Quiet → s.written = [] ∧ s.received = []
  undecided : s.phase.Undecided → s.approved = none
  written : s.written <+: s.script
  proved : s.phase.Proved → ∃ hash, s.transcriptHash = some hash ∧
    ∃ rest, s.received = proofMessage hash ++ rest
  trusting : s.phase = .trusting → s.approved = some true ∧ ∃ hash,
    s.transcriptHash = some hash ∧ s.received = proofMessage hash ++ confirmMessage hash true

theorem Sane.advance (hs : Sane digest s) {phase : PairingPhase}
    (hhello : phase = .greeting → s.hello.WellFormed)
    (hquiet : phase.Quiet → s.phase.Quiet) (hundecided : phase.Undecided → s.phase.Undecided)
    (hproved : phase.Proved → ∃ hash, s.transcriptHash = some hash ∧
      ∃ rest, s.received = proofMessage hash ++ rest)
    (htrusting : phase = .trusting → s.approved = some true ∧ ∃ hash,
      s.transcriptHash = some hash ∧ s.received = proofMessage hash ++ confirmMessage hash true) :
    Sane digest { s with phase := phase } where
  hello := hhello
  remote := hs.remote
  hash := hs.hash
  quiet := fun h => hs.quiet (hquiet h)
  undecided := fun h => hs.undecided (hundecided h)
  written := hs.written
  proved := hproved
  trusting := htrusting

theorem length_proofMessage (hash : Secret) : (proofMessage hash).length = proofLength := by
  rw [proofMessage, List.length_append, hash.property]
  decide

theorem length_confirmMessage (hash : Secret) (approved : Bool) :
    (confirmMessage hash approved).length = confirmLength := by
  rw [confirmMessage, List.length_append, List.length_append, hash.property]
  decide +revert

theorem checkConfirm_eq_ok {approved : Bool} {remote : List UInt8}
    (hlength : remote.length = confirmLength) :
    checkConfirm hash approved remote = .ok () ↔
      approved = true ∧ remote = confirmMessage hash true := by
  have htail : (remote.drop 40).length = 1 := by
    rw [List.length_drop, hlength]
    rfl
  obtain ⟨decision, hdecision⟩ := List.length_eq_one_iff.mp htail
  have hlast : remote.getD 40 0 = decision := by
    have hfirst : (remote.drop 40)[0]? = some decision := by
      rw [hdecision]
      rfl
    rw [List.getElem?_drop] at hfirst
    rw [List.getD_eq_getElem?_getD, hfirst, Option.getD_some]
  have hsplit : remote = remote.take 8 ++ ((remote.drop 8).take 32 ++ [decision]) := by
    have hdrop : (remote.drop 8).drop 32 = [decision] := by rw [List.drop_drop, hdecision]
    rw [← hdrop, List.take_append_drop, List.take_append_drop]
  rw [checkConfirm, guard_eq_ok, guard_eq_ok, guard_eq_ok, hlast, not_or, not_or, not_not, not_not,
    Bool.not_eq_false, and_iff_left rfl]
  constructor
  · rintro ⟨⟨hmagic, hhash⟩, hbound, happroved, hnonzero⟩
    refine ⟨happroved, ?_⟩
    have hone : decision = 1 := by
      rw [UInt8.not_lt, UInt8.le_iff_toNat_le] at hbound
      rw [← UInt8.toNat_inj] at hnonzero ⊢
      simp at hbound hnonzero ⊢
      omega
    rw [hsplit, hmagic, hhash, hone]
    rfl
  · rintro ⟨happroved, hmessage⟩
    have hmagic : confirmMagic.length = 8 := by decide
    have htake : remote.take 8 = confirmMagic := by
      rw [hmessage]
      exact List.take_left' hmagic
    have hrest : remote.drop 8 = hash.val ++ [1] := by
      rw [hmessage]
      exact List.drop_left' hmagic
    have hhash : (remote.drop 8).take 32 = hash.val := by
      rw [hrest]
      exact List.take_left' hash.property
    rw [hrest, List.take_left' hash.property, htake] at hsplit
    have hone : decision = 1 := by
      have hsame := hsplit.symm.trans hmessage
      exact List.singleton_inj.mp (List.append_cancel_left (List.append_cancel_left hsame))
    rw [hone]
    exact ⟨⟨htake, hhash⟩, by decide, happroved, by decide⟩

theorem pairingTranscript_eq_ok {listener connector : Hello}
    (h : pairingTranscript digest listener connector = .ok hash) :
    hash = digest (transcriptBytes listener connector) := by
  rw [pairingTranscript, guard_eq_ok] at h
  obtain ⟨-, h⟩ := h
  obtain ⟨first, hfirst, h⟩ := bind_eq_ok.mp h
  obtain ⟨second, hsecond, h⟩ := bind_eq_ok.mp h
  obtain ⟨-, hfirst⟩ := guard_eq_ok.mp hfirst
  obtain ⟨-, hsecond⟩ := guard_eq_ok.mp hsecond
  cases hfirst
  cases hsecond
  cases h
  rfl

theorem hashWith_eq_ok {remote : Hello} (h : s.hashWith digest remote = .ok hash) :
    hash = digest (match s.role with
      | .listener => transcriptBytes s.hello remote
      | .connector => transcriptBytes remote s.hello) := by
  rw [PairingSession.hashWith] at h
  cases hrole : s.role with
  | listener =>
    rw [hrole] at h
    exact pairingTranscript_eq_ok h
  | connector =>
    rw [hrole] at h
    exact pairingTranscript_eq_ok h

theorem SessionStep.sane (h : SessionStep digest s action s') (hs : Sane digest s) :
    Sane digest s' := by
  cases h with
  | opened hphase hcreate =>
    obtain ⟨⟨⟩, hvalid, -⟩ := bind_eq_ok.mp hcreate
    obtain ⟨hnonempty, hshort⟩ := validateCertificate_eq_ok.mp hvalid
    refine hs.advance (fun _ => ⟨hnonempty, hshort⟩) ?_ ?_ nofun nofun <;>
    · rw [hphase]
      exact fun h => h
  | @greeted stream rest remote hash hphase hread htranscript =>
    obtain ⟨hwritten, hreceived⟩ := hs.quiet (hphase ▸ trivial)
    obtain ⟨hrole, hremote, -⟩ := Hello.readFrom_ok hread
    exact {
      hello := nofun
      remote := fun hsame => by
        cases hsame
        exact ⟨hs.hello hphase, hremote, hrole⟩
      hash := congrArg some (hashWith_eq_ok htranscript)
      quiet := fun _ => ⟨hwritten, hreceived⟩
      undecided := fun _ => hs.undecided (hphase ▸ trivial)
      written := by
        rw [hwritten]
        exact List.nil_prefix
      proved := nofun
      trusting := nofun }
  | joined party hphase hchannel => exact { hs with }
  | connected hphase hchannel =>
    exact hs.advance nofun nofun (fun _ => hphase ▸ trivial) nofun nofun
  | wrote count hphase =>
    obtain ⟨rest, hrest⟩ := hs.written
    have hdrop : s.script.drop s.written.length = rest := by rw [← hrest, List.drop_left]
    have hquiet (h : s.phase.Quiet) : False := by
      rcases hphase with hphase | hphase <;>
      · rw [hphase] at h
        exact h
    exact {
      hello := hs.hello
      remote := hs.remote
      hash := hs.hash
      quiet := fun h => absurd h hquiet
      undecided := hs.undecided
      written := by
        refine ⟨rest.drop count, ?_⟩
        rw [hdrop, List.append_assoc, List.take_append_drop]
        exact hrest
      proved := hs.proved
      trusting := hs.trusting }
  | sentProof hphase hall =>
    exact hs.advance nofun nofun (fun _ => hphase ▸ trivial) nofun nofun
  | gotProof chunk hphase hfits =>
    exact { hs with
      quiet := fun h => (hphase ▸ h : PairingPhase.readingProof.Quiet).elim
      proved := fun h => (hphase ▸ h : PairingPhase.readingProof.Proved).elim
      trusting := fun h => nomatch hphase.symm.trans h }
  | @proved hash hphase hhash hproof =>
    refine hs.advance nofun nofun (fun _ => hphase ▸ trivial)
      (fun _ => ⟨hash, hhash, [], ?_⟩) nofun
    rw [hproof, List.append_nil]
  | decided localApproved hphase =>
    have hnone := hs.undecided (hphase ▸ trivial)
    obtain ⟨hash, hhash, hproved⟩ := hs.proved (hphase ▸ trivial)
    have hscript : s.script = proofMessage hash ++ [] := by
      rw [PairingSession.script, hhash, hnone]
    have hwritten := hs.written
    rw [hscript, List.append_nil] at hwritten
    exact {
      hello := nofun
      remote := hs.remote
      hash := hs.hash
      quiet := nofun
      undecided := nofun
      written := by
        rw [PairingSession.script, hhash]
        exact hwritten.trans (List.prefix_append _ _)
      proved := fun _ => ⟨hash, hhash, hproved⟩
      trusting := nofun }
  | sentConfirm hphase hall =>
    exact hs.advance nofun nofun nofun (fun _ => hs.proved (hphase ▸ trivial)) nofun
  | gotConfirm chunk hphase hfits =>
    obtain ⟨hash, hhash, rest, hreceived⟩ := hs.proved (hphase ▸ trivial)
    exact { hs with
      quiet := fun h => (hphase ▸ h : PairingPhase.readingConfirm.Quiet).elim
      proved := fun _ => ⟨hash, hhash, rest ++ chunk, by rw [hreceived, List.append_assoc]⟩
      trusting := fun h => nomatch hphase.symm.trans h }
  | @confirmed hash approved identity hphase hhash happroved hwhole hcheck hidentity =>
    obtain ⟨hash', hhash', rest, hreceived⟩ := hs.proved (hphase ▸ trivial)
    obtain rfl := Option.some.inj (hhash.symm.trans hhash')
    have hdrop : s.received.drop proofLength = rest := by
      rw [hreceived, List.drop_left' (length_proofMessage hash)]
    have hlength : rest.length = confirmLength := by
      rw [hreceived, List.length_append, length_proofMessage] at hwhole
      exact Nat.add_left_cancel hwhole
    rw [hdrop] at hcheck
    obtain ⟨rfl, rfl⟩ := (checkConfirm_eq_ok hlength).mp hcheck
    exact hs.advance nofun nofun nofun (fun _ => ⟨hash, hhash, _, hreceived⟩)
      fun _ => ⟨happroved, hash, hhash, hreceived⟩
  | fails error hphase => exact hs.advance nofun nofun nofun nofun nofun

namespace SessionStep

theorem silent (h : SessionStep digest s .silent s') :
    s'.channel = s.channel ∧ s'.written = s.written ∧ s'.received = s.received := by
  cases h <;> exact ⟨rfl, rfl, rfl⟩

theorem joins {party : Party} (h : SessionStep digest s (.joins party) s') :
    s.phase = .pinned ∧ s.channel = none ∧ s'.channel = some party ∧ s'.written = s.written ∧
      s'.received = s.received := by
  cases h with
  | joined _ hphase hchannel => exact ⟨hphase, hchannel, rfl, rfl, rfl⟩

theorem sends {chunk : List UInt8} (h : SessionStep digest s (.sends chunk) s') :
    s'.channel = s.channel ∧ s'.written = s.written ++ chunk ∧ s'.received = s.received := by
  cases h with
  | wrote => exact ⟨rfl, rfl, rfl⟩

theorem receives {chunk : List UInt8} (h : SessionStep digest s (.receives chunk) s') :
    s'.channel = s.channel ∧ s'.written = s.written ∧ s'.received = s.received ++ chunk := by
  cases h <;> exact ⟨rfl, rfl, rfl⟩

end SessionStep

structure Joined (world : PairingWorld) : Prop where
  closed : ∀ {k}, (world.sessions k).channel = none → world.inbox k = []
  paired : ∀ {j k}, (world.sessions k).channel = some (.session j) →
    j ≠ k ∧ (world.sessions j).channel = some (.session k) ∧
      (world.sessions j).written = (world.sessions k).received ++ world.inbox k

theorem PairingStart.joined (h : PairingStart world) : Joined world where
  closed := fun {k} _ => h.inbox k
  paired := fun {j k} hchannel => by
    obtain ⟨role, certificate, nonce, hsession⟩ := h.sessions k
    rw [hsession] at hchannel
    cases hchannel

theorem PairingStart.sane (h : PairingStart world) (k : Nat) :
    Sane digest (world.sessions k) := by
  obtain ⟨role, certificate, nonce, hsession⟩ := h.sessions k
  rw [hsession]
  exact ⟨nofun, nofun, rfl, fun _ => ⟨rfl, rfl⟩, fun _ => rfl, List.nil_prefix, nofun, nofun⟩

theorem PairingStep.sane (h : PairingStep digest world k world')
    (hsane : ∀ j, Sane digest (world.sessions j)) (j : Nat) : Sane digest (world'.sessions j) := by
  cases h with
  | internal h | seized _ h | sent h | received _ h =>
    dsimp only
    rw [Function.update_apply]
    split
    · exact h.sane (hsane k)
    · exact hsane j
  | @joined i _ _ _ _ _ _ _ h h' =>
    dsimp only
    rw [Function.update_apply]
    split
    · exact h'.sane (hsane k)
    · rw [Function.update_apply]
      split
      · exact h.sane (hsane i)
      · exact hsane j
  | injected => exact hsane j

theorem deliver_other {inbox : Nat → List UInt8} {party : Option Party} {chunk : List UInt8}
    (h : party ≠ some (.session k)) : deliver inbox party chunk k = inbox k := by
  cases party with
  | none => rfl
  | some party =>
    cases party with
    | adversary => rfl
    | session j =>
      have hne : k ≠ j := fun hsame => h (hsame ▸ rfl)
      exact Function.update_of_ne hne ..

namespace Joined

variable {sessions : Nat → PairingSession} {inbox : Nat → List UInt8}

theorem congr (h : Joined world)
    (hsame : ∀ k, (sessions k).channel = (world.sessions k).channel ∧
      (sessions k).written = (world.sessions k).written ∧
      (sessions k).received = (world.sessions k).received) : Joined ⟨sessions, world.inbox⟩ where
  closed := fun {k} hchannel => h.closed ((hsame k).1.symm.trans hchannel)
  paired := fun {j k} hchannel => by
    obtain ⟨hne, hback, hstream⟩ := h.paired ((hsame k).1.symm.trans hchannel)
    exact ⟨hne, (hsame j).1.trans hback, by rw [(hsame j).2.1, (hsame k).2.2, hstream]⟩

theorem internal (h : Joined world) (hstep : SessionStep digest (world.sessions k) .silent s') :
    Joined ⟨Function.update world.sessions k s', world.inbox⟩ := by
  refine h.congr fun i => ?_
  rw [Function.update_apply]
  split
  · next hsame => exact hsame ▸ hstep.silent
  · exact ⟨rfl, rfl, rfl⟩

theorem seized (h : Joined world)
    (hstep : SessionStep digest (world.sessions k) (.joins .adversary) s') :
    Joined ⟨Function.update world.sessions k s', world.inbox⟩ where
  closed := fun {i} hchannel => by
    dsimp only at hchannel ⊢
    rw [Function.update_apply] at hchannel
    split at hchannel
    · rw [hstep.joins.2.2.1] at hchannel
      cases hchannel
    · exact h.closed hchannel
  paired := fun {j i} hchannel => by
    dsimp only at hchannel ⊢
    by_cases hik : i = k
    · rw [hik, Function.update_self, hstep.joins.2.2.1] at hchannel
      cases hchannel
    · rw [Function.update_of_ne hik] at hchannel
      obtain ⟨hne, hback, hstream⟩ := h.paired hchannel
      have hjk : j ≠ k := by
        rintro rfl
        rw [hstep.joins.2.1] at hback
        cases hback
      rw [Function.update_of_ne hik, Function.update_of_ne hjk]
      exact ⟨hne, hback, hstream⟩

theorem joined {listener connector : PairingSession} (h : Joined world)
    (hsane : ∀ i, Sane digest (world.sessions i)) (hne : j ≠ k)
    (hj : SessionStep digest (world.sessions j) (.joins (.session k)) listener)
    (hk : SessionStep digest (world.sessions k) (.joins (.session j)) connector) :
    Joined ⟨Function.update (Function.update world.sessions j listener) k connector,
      world.inbox⟩ := by
  obtain ⟨hphase, hnone, hchannel, hwritten, hreceived⟩ := hj.joins
  obtain ⟨hphase', hnone', hchannel', hwritten', hreceived'⟩ := hk.joins
  obtain ⟨hunwritten, hunread⟩ := (hsane j).quiet (hphase ▸ trivial)
  obtain ⟨hunwritten', hunread'⟩ := (hsane k).quiet (hphase' ▸ trivial)
  constructor
  · intro i hi
    dsimp only at hi ⊢
    rw [Function.update_apply, Function.update_apply] at hi
    split at hi
    · rw [hchannel'] at hi
      cases hi
    · split at hi
      · rw [hchannel] at hi
        cases hi
      · exact h.closed hi
  · intro a i hi
    dsimp only at hi ⊢
    by_cases hik : i = k
    · rw [hik, Function.update_self, hchannel'] at hi
      cases hi
      rw [hik, Function.update_self, Function.update_of_ne hne, Function.update_self, hwritten,
        hreceived', hunwritten, hunread', h.closed hnone']
      exact ⟨hne, hchannel, rfl⟩
    · by_cases hij : i = j
      · rw [hij, Function.update_of_ne hne, Function.update_self, hchannel] at hi
        cases hi
        rw [hij, Function.update_self, Function.update_of_ne hne, Function.update_self, hwritten',
          hreceived, hunwritten', hunread, h.closed hnone]
        exact ⟨hne.symm, hchannel', rfl⟩
      · rw [Function.update_of_ne hik, Function.update_of_ne hij] at hi
        obtain ⟨hai, hback, hstream⟩ := h.paired hi
        have haj : a ≠ j := by
          rintro rfl
          rw [hnone] at hback
          cases hback
        have hak : a ≠ k := by
          rintro rfl
          rw [hnone'] at hback
          cases hback
        rw [Function.update_of_ne hik, Function.update_of_ne hij, Function.update_of_ne hak,
          Function.update_of_ne haj]
        exact ⟨hai, hback, hstream⟩

theorem sent {chunk : List UInt8} (h : Joined world)
    (hstep : SessionStep digest (world.sessions k) (.sends chunk) s') :
    Joined ⟨Function.update world.sessions k s',
      deliver world.inbox (world.sessions k).channel chunk⟩ := by
  obtain ⟨hchannel, hwritten, hreceived⟩ := hstep.sends
  have hview (i : Nat) : (Function.update world.sessions k s' i).channel =
      (world.sessions i).channel ∧ (Function.update world.sessions k s' i).received =
      (world.sessions i).received := by
    rw [Function.update_apply]
    split
    · next hsame => exact hsame ▸ ⟨hchannel, hreceived⟩
    · exact ⟨rfl, rfl⟩
  constructor
  · intro i hi
    have hi' := (hview i).1.symm.trans hi
    have hempty := h.closed hi'
    refine (deliver_other fun hk => ?_).trans hempty
    rw [(h.paired hk).2.1] at hi'
    cases hi'
  · intro a i hi
    have hi' := (hview i).1.symm.trans hi
    obtain ⟨hne, hback, hstream⟩ := h.paired hi'
    refine ⟨hne, (hview a).1.trans hback, ?_⟩
    dsimp only
    rw [(hview i).2]
    by_cases hak : a = k
    · subst hak
      rw [Function.update_self, hwritten, hback, deliver, Function.update_self, hstream,
        List.append_assoc]
    · have hother : (world.sessions k).channel ≠ some (.session i) := by
        intro hk
        have hmine := (h.paired hk).2.1
        rw [hi'] at hmine
        cases hmine
        exact hak rfl
      rw [Function.update_of_ne hak, hstream, deliver_other hother]

theorem received {chunk rest : List UInt8} (h : Joined world)
    (hinbox : world.inbox k = chunk ++ rest)
    (hstep : SessionStep digest (world.sessions k) (.receives chunk) s') :
    Joined ⟨Function.update world.sessions k s', Function.update world.inbox k rest⟩ := by
  obtain ⟨hchannel, hwritten, hreceived⟩ := hstep.receives
  have hview (i : Nat) : (Function.update world.sessions k s' i).channel =
      (world.sessions i).channel ∧ (Function.update world.sessions k s' i).written =
      (world.sessions i).written := by
    rw [Function.update_apply]
    split
    · next hsame => exact hsame ▸ ⟨hchannel, hwritten⟩
    · exact ⟨rfl, rfl⟩
  constructor
  · intro i hi
    have hempty := h.closed ((hview i).1.symm.trans hi)
    dsimp only
    rw [Function.update_apply]
    split
    · next hsame =>
      rw [hsame, hinbox] at hempty
      exact (List.append_eq_nil_iff.mp hempty).2
    · exact hempty
  · intro a i hi
    obtain ⟨hne, hback, hstream⟩ := h.paired ((hview i).1.symm.trans hi)
    refine ⟨hne, (hview a).1.trans hback, ?_⟩
    dsimp only
    rw [(hview a).2, hstream]
    by_cases hik : i = k
    · subst hik
      rw [Function.update_self, Function.update_self, hinbox, hreceived, List.append_assoc]
    · rw [Function.update_of_ne hik, Function.update_of_ne hik]

theorem injected (h : Joined world) (bytes : List UInt8)
    (hadversary : (world.sessions k).channel = some .adversary) :
    Joined ⟨world.sessions, Function.update world.inbox k (world.inbox k ++ bytes)⟩ where
  closed := fun {i} hchannel => by
    have hik : i ≠ k := by
      rintro rfl
      rw [hadversary] at hchannel
      cases hchannel
    exact (Function.update_of_ne hik ..).trans (h.closed hchannel)
  paired := fun {j i} hchannel => by
    have hik : i ≠ k := by
      rintro rfl
      rw [hadversary] at hchannel
      cases hchannel
    obtain ⟨hne, hback, hstream⟩ := h.paired hchannel
    exact ⟨hne, hback, hstream.trans (congrArg _ (Function.update_of_ne hik ..).symm)⟩

end Joined

theorem PairingStep.streams (h : PairingStep digest world k world')
    (hsane : ∀ j, Sane digest (world.sessions j)) (hjoined : Joined world) : Joined world' := by
  cases h with
  | internal h => exact hjoined.internal h
  | joined hlistener hconnector hpins hpinned h h' =>
    refine hjoined.joined hsane ?_ h h'
    rintro rfl
    rw [hlistener] at hconnector
    cases hconnector
  | seized hforeign h => exact hjoined.seized h
  | sent h => exact hjoined.sent h
  | received hinbox h => exact hjoined.received hinbox h
  | injected bytes hchannel => exact hjoined.injected bytes hchannel

structure Trustworthy (digest : List UInt8 → Secret) (world : PairingWorld) : Prop where
  sane : ∀ k, Sane digest (world.sessions k)
  joined : Joined world

theorem PairingStart.trustworthy (h : PairingStart world) : Trustworthy digest world :=
  ⟨h.sane, h.joined⟩

theorem PairingStep.trustworthy (hworld : Trustworthy digest world)
    (h : PairingStep digest world k world') : Trustworthy digest world' :=
  ⟨h.sane hworld.sane, h.streams hworld.sane hworld.joined⟩

def transcripts (world : PairingWorld) : Set (List UInt8) :=
  {bytes | ∃ k, (world.sessions k).transcript = some bytes}

theorem pendingPairing_eq_some {pairing : PendingPairing}
    (h : s.pendingPairing digest = some pairing) : ∃ remote hash, s.remote = some remote ∧
      s.transcriptHash = some hash ∧ pairing = ⟨⟨digest s.certificate⟩, ⟨digest remote.certificate⟩,
        remote.certificate, hash, pairingCode hash⟩ := by
  have hpairing : s.pairing digest = some pairing := by
    rw [PairingSession.pendingPairing] at h
    split at h
    · exact h
    · exact h
    · exact h
    · cases h
  obtain ⟨remote, hremote, hrest⟩ := Option.bind_eq_some_iff.mp hpairing
  obtain ⟨hash, hhash, hsame⟩ := Option.bind_eq_some_iff.mp hrest
  exact ⟨remote, hash, hremote, hhash, (Option.some.inj hsame).symm⟩

theorem transcriptBytes_prefixFree : PrefixFree (Hello.Encodable ×ˢ Hello.Encodable)
    fun hellos : Hello × Hello => transcriptBytes hellos.1 hellos.2 :=
  (Hello.bytes_prefixFree.append Hello.bytes_prefixFree).after transcriptDomain

theorem proofMessage_append_prefix (h : proofMessage hash ++ rest <+: proofMessage other ++ rest') :
    hash = other ∧ rest <+: rest' := by
  obtain ⟨tail, htail⟩ := h
  rw [List.append_assoc] at htail
  obtain ⟨hproof, hrest⟩ := List.append_inj htail
    ((length_proofMessage hash).trans (length_proofMessage other).symm)
  exact ⟨Subtype.ext (List.append_cancel_left hproof), tail, hrest⟩

theorem confirmed_script (h : proofMessage hash ++ confirmMessage hash true <+: s.script) :
    s.approved = some true ∧ s.transcriptHash = some hash := by
  rw [PairingSession.script] at h
  split at h
  · have hlength := h.length_le
    rw [List.length_append, length_proofMessage] at hlength
    cases hlength
  · next other hother =>
    obtain ⟨rfl, hconfirm⟩ := proofMessage_append_prefix h
    split at hconfirm
    · have hlength := hconfirm.length_le
      rw [length_confirmMessage] at hlength
      cases hlength
    · next approved happroved =>
      have hmessage := hconfirm.eq_of_length
        ((length_confirmMessage hash true).trans (length_confirmMessage hash approved).symm)
      have hdecision : [if true then (1 : UInt8) else 0] = [if approved then 1 else 0] :=
        List.append_cancel_left (List.append_cancel_left hmessage)
      refine ⟨?_, hother⟩
      cases approved with
      | false => cases hdecision
      | true => exact happroved

namespace Trustworthy

variable {p q : PendingPairing}

theorem hash_transcript (h : Trustworthy digest world)
    (hhash : (world.sessions k).transcriptHash = some hash) :
    ∃ bytes ∈ transcripts world,
      (world.sessions k).transcript = some bytes ∧ hash = digest bytes := by
  rw [(h.sane k).hash] at hhash
  obtain ⟨bytes, hbytes, hdigest⟩ := Option.map_eq_some_iff.mp hhash
  exact ⟨bytes, ⟨k, hbytes⟩, hbytes, hdigest.symm⟩

theorem same_transcript (h : Trustworthy digest world)
    (hcode : Set.InjOn (fun bytes => pairingCode (digest bytes)) (transcripts world))
    (hj : (world.sessions j).transcriptHash = some hash)
    (hk : (world.sessions k).transcriptHash = some other)
    (hsame : pairingCode hash = pairingCode other) :
    (world.sessions j).transcript = (world.sessions k).transcript := by
  obtain ⟨mine, hmine, hjs, rfl⟩ := h.hash_transcript hj
  obtain ⟨theirs, htheirs, hks, rfl⟩ := h.hash_transcript hk
  rw [hjs, hks, hcode hmine htheirs hsame]

theorem authentic (h : Trustworthy digest world)
    (hcode : Set.InjOn (fun bytes => pairingCode (digest bytes)) (transcripts world))
    (hlistener : (world.sessions j).role = .listener)
    (hconnector : (world.sessions k).role = .connector)
    (hp : (world.sessions j).pendingPairing digest = some p)
    (hq : (world.sessions k).pendingPairing digest = some q) (hsame : p.code = q.code) :
    p.peerFingerprint = ⟨digest (world.sessions k).certificate⟩ ∧
      q.peerFingerprint = ⟨digest (world.sessions j).certificate⟩ := by
  obtain ⟨remote, hash, hremote, hhash, rfl⟩ := pendingPairing_eq_some hp
  obtain ⟨remote', hash', hremote', hhash', rfl⟩ := pendingPairing_eq_some hq
  have htranscript := h.same_transcript hcode hhash hhash' hsame
  obtain ⟨hlocal, hwell, -⟩ := (h.sane j).remote hremote
  obtain ⟨hlocal', hwell', -⟩ := (h.sane k).remote hremote'
  rw [PairingSession.transcript, PairingSession.transcript, hremote, hremote', hlistener,
    hconnector, Option.map_some, Option.map_some, Option.some.injEq] at htranscript
  have hmine : ((world.sessions j).hello, remote) ∈ Hello.Encodable ×ˢ Hello.Encodable :=
    ⟨hlocal.encodable, hwell.encodable⟩
  have htheirs : (remote', (world.sessions k).hello) ∈ Hello.Encodable ×ˢ Hello.Encodable :=
    ⟨hwell'.encodable, hlocal'.encodable⟩
  have hhellos := transcriptBytes_prefixFree.injOn hmine htheirs htranscript
  obtain ⟨hfirst, hsecond⟩ := Prod.mk.inj hhellos
  exact ⟨by rw [hsecond]; rfl, by rw [← hfirst]; rfl⟩

theorem confirmed (h : Trustworthy digest world) (hphase : (world.sessions k).phase = .trusting)
    (hchannel : (world.sessions k).channel = some (.session j)) :
    (world.sessions j).approved = some true ∧
      (world.sessions j).transcriptHash = (world.sessions k).transcriptHash := by
  obtain ⟨happroved, hash, hhash, hreceived⟩ := (h.sane k).trusting hphase
  obtain ⟨-, -, hstream⟩ := h.joined.paired hchannel
  have hscript : proofMessage hash ++ confirmMessage hash true <+: (world.sessions j).script := by
    refine List.IsPrefix.trans ⟨world.inbox k, ?_⟩ (h.sane j).written
    rw [hstream, hreceived]
  obtain ⟨happroved', hhash'⟩ := confirmed_script hscript
  exact ⟨happroved', hhash'.trans hhash.symm⟩

end Trustworthy

end ClipFerry.Pairing
