import ClipFerry.Pairing.PairingLaw

namespace ClipFerry.Pairing

open Protocol Server Transition VirtualTree

variable {digest : List UInt8 → Secret} {listener connector hello remote : Hello}
  {hash : Secret} {l l' c c' : PairingSession} {a b : List UInt8}

theorem pairing_authenticates_both_ends {digest : List UInt8 → Secret} {start world : PairingWorld}
    {labels : List Nat} (hstart : PairingStart start)
    (hrun : Run (PairingStep digest) start labels world)
    (hcode : Set.InjOn (fun bytes => pairingCode (digest bytes)) (transcripts world)) :
    (∀ {j k p q}, (world.sessions j).role = .listener → (world.sessions k).role = .connector →
      (world.sessions j).pendingPairing digest = some p →
      (world.sessions k).pendingPairing digest = some q → p.code = q.code →
      p.peerFingerprint = ⟨digest (world.sessions k).certificate⟩ ∧
        q.peerFingerprint = ⟨digest (world.sessions j).certificate⟩) ∧
    (∀ {k}, (world.sessions k).phase = .trusting →
      (world.sessions k).approved = some true ∧
      (∃ hash, (world.sessions k).transcriptHash = some hash ∧
        (world.sessions k).received = proofMessage hash ++ confirmMessage hash true) ∧
      ∀ {j}, (world.sessions k).channel = some (.session j) →
        (world.sessions j).approved = some true ∧
          (world.sessions j).transcript = (world.sessions k).transcript) ∧
    (∀ {j k}, (world.sessions k).channel = some (.session j) →
      (world.sessions k).approved = some false →
      (world.sessions k).phase ≠ .trusting ∧ (world.sessions j).phase ≠ .trusting) := by
  have hworld := hrun.invariant (I := Trustworthy digest)
    (fun hinv hstep => hstep.trustworthy hinv) hstart.trustworthy
  refine ⟨fun hlistener hconnector hp hq hsame =>
    hworld.authentic hcode hlistener hconnector hp hq hsame, ?_, ?_⟩
  · intro k hphase
    obtain ⟨happroved, hash, hhash, hreceived⟩ := (hworld.sane k).trusting hphase
    refine ⟨happroved, ⟨hash, hhash, hreceived⟩, fun hchannel => ?_⟩
    obtain ⟨happroved', hhash'⟩ := hworld.confirmed hphase hchannel
    exact ⟨happroved', hworld.same_transcript hcode (hhash'.trans hhash) hhash rfl⟩
  · intro j k hchannel hrejected
    refine ⟨fun hphase => ?_, fun hphase => ?_⟩
    · rw [((hworld.sane k).trusting hphase).1] at hrejected
      cases hrejected
    · obtain ⟨happroved, -⟩ := hworld.confirmed hphase (hworld.joined.paired hchannel).2.1
      rw [happroved] at hrejected
      cases hrejected

def opening (hello : Hello) (phase : PairingPhase) : PairingSession :=
  ⟨hello.role, hello.certificate, hello.nonce, phase, none, none, none, none, [], []⟩

def meeting (hello remote : Hello) (hash : Secret) (phase : PairingPhase) (party : Option Party)
    (written received : List UInt8) : PairingSession :=
  ⟨hello.role, hello.certificate, hello.nonce, phase, some remote, some hash, party, none, written,
    received⟩

def deciding (hello remote : Hello) (hash : Secret) (phase : PairingPhase) (party : Option Party)
    (approved : Bool) (written received : List UInt8) : PairingSession :=
  { meeting hello remote hash phase party written received with approved := some approved }

def pair {α : Type} (x y z : α) : Nat → α
  | 0 => x
  | 1 => y
  | _ => z

theorem update_pair_zero {α : Type} {x x' y z : α} :
    Function.update (pair x y z) 0 x' = pair x' y z := by
  funext k
  match k with
  | 0 => rfl
  | 1 => rfl
  | _ + 2 => rfl

theorem update_pair_one {α : Type} {x y y' z : α} :
    Function.update (pair x y z) 1 y' = pair x y' z := by
  funext k
  match k with
  | 0 => rfl
  | 1 => rfl
  | _ + 2 => rfl

def facing (l c : PairingSession) (a b : List UInt8) : PairingWorld where
  sessions := pair l c
    ⟨.listener, [], ⟨List.replicate 32 0, by decide⟩, .starting, none, none, none, none, [], []⟩
  inbox := pair a b []

namespace PairingStep

theorem left (h : SessionStep digest l .silent l') :
    PairingStep digest (facing l c a b) 0 (facing l' c a b) := by
  have hstep := @PairingStep.internal digest (facing l c a b) 0 l' h
  rwa [facing, update_pair_zero] at hstep

theorem right (h : SessionStep digest c .silent c') :
    PairingStep digest (facing l c a b) 1 (facing l c' a b) := by
  have hstep := @PairingStep.internal digest (facing l c a b) 1 c' h
  rwa [facing, update_pair_one] at hstep

theorem left_sent {chunk : List UInt8} (hchannel : l.channel = some (.session 1))
    (h : SessionStep digest l (.sends chunk) l') :
    PairingStep digest (facing l c a b) 0 (facing l' c a (b ++ chunk)) := by
  have hstep := @PairingStep.sent digest (facing l c a b) 0 l' chunk h
  have hmine : ((facing l c a b).sessions 0).channel = some (.session 1) := hchannel
  rw [hmine, deliver, facing, update_pair_zero] at hstep
  rwa [update_pair_one] at hstep

theorem right_sent {chunk : List UInt8} (hchannel : c.channel = some (.session 0))
    (h : SessionStep digest c (.sends chunk) c') :
    PairingStep digest (facing l c a b) 1 (facing l c' (a ++ chunk) b) := by
  have hstep := @PairingStep.sent digest (facing l c a b) 1 c' chunk h
  have hmine : ((facing l c a b).sessions 1).channel = some (.session 0) := hchannel
  rw [hmine, deliver, facing, update_pair_one] at hstep
  rwa [update_pair_zero] at hstep

theorem left_received (h : SessionStep digest l (.receives a) l') :
    PairingStep digest (facing l c a b) 0 (facing l' c [] b) := by
  have hstep := @PairingStep.received digest (facing l c a b) 0 l' a [] (List.append_nil a).symm h
  rw [facing, update_pair_zero] at hstep
  rwa [update_pair_zero] at hstep

theorem right_received (h : SessionStep digest c (.receives b) c') :
    PairingStep digest (facing l c a b) 1 (facing l c' a []) := by
  have hstep := @PairingStep.received digest (facing l c a b) 1 c' b [] (List.append_nil b).symm h
  rw [facing, update_pair_one] at hstep
  rwa [update_pair_one] at hstep

theorem meet {hash' : Secret} (hlistener : listener.role = .listener)
    (hconnector : connector.role = .connector) : PairingStep digest
      (facing (meeting listener connector hash .pinned none [] [])
        (meeting connector listener hash' .pinned none [] []) a b) 1
      (facing (meeting listener connector hash .pinned (some (.session 1)) [] [])
        (meeting connector listener hash' .pinned (some (.session 0)) [] []) a b) := by
  have hstep := @PairingStep.joined digest
    (facing (meeting listener connector hash .pinned none [] [])
      (meeting connector listener hash' .pinned none [] []) a b) 0 1 _ _ hlistener hconnector rfl rfl
    (.joined _ rfl rfl) (.joined _ rfl rfl)
  rwa [facing, update_pair_zero, update_pair_one] at hstep

end PairingStep

theorem pairingTranscript_hellos (hlistener : listener.role = .listener)
    (hconnector : connector.role = .connector) (hl : listener.WellFormed)
    (hc : connector.WellFormed) : pairingTranscript digest listener connector =
      .ok (digest (transcriptBytes listener connector)) := by
  have hencode {hello : Hello} (h : hello.WellFormed) : hello.encode = .ok hello.bytes := by
    have hshort := h.short
    rw [certificateLimit] at hshort
    rw [Hello.encode, if_neg (by omega)]
  have hroles : ¬(listener.role ≠ .listener ∨ connector.role ≠ .connector) :=
    not_or.mpr ⟨not_not.mpr hlistener, not_not.mpr hconnector⟩
  rw [pairingTranscript, if_neg hroles, hencode hl, hencode hc]
  rfl

namespace SessionStep

theorem opens (h : hello.WellFormed) :
    SessionStep digest (opening hello .starting) .silent (opening hello .greeting) := by
  have hcreate : Hello.create hello.role hello.certificate hello.nonce = .ok hello := by
    rw [Hello.create, validateCertificate_eq_ok.mpr ⟨h.nonempty, h.short⟩]
    rfl
  exact .opened (s := opening hello .starting) rfl hcreate

theorem greets (hremote : remote.WellFormed) (hrole : remote.role = hello.role.other)
    (hhash : (opening hello .greeting).hashWith digest remote = .ok hash) :
    SessionStep digest (opening hello .greeting) .silent
      (meeting hello remote hash .pinned none [] []) := by
  have hread := Hello.readFrom_bytes hremote []
  rw [hrole] at hread
  exact .greeted (s := opening hello .greeting) rfl hread hhash

theorem writes_proof {party : Option Party} :
    SessionStep digest (meeting hello remote hash .sendingProof party [] [])
      (.sends (proofMessage hash))
      (meeting hello remote hash .sendingProof party (proofMessage hash) []) := by
  have hstep := @SessionStep.wrote digest (meeting hello remote hash .sendingProof party [] [])
    proofLength (.inl rfl)
  have hscript : (meeting hello remote hash .sendingProof party [] []).script =
      proofMessage hash := List.append_nil _
  have hchunk : ((proofMessage hash).drop 0).take proofLength = proofMessage hash :=
    List.take_of_length_le (Nat.le_of_eq (length_proofMessage hash))
  rw [hscript] at hstep
  rwa [show (meeting hello remote hash .sendingProof party [] []).written.length = 0 from rfl,
    hchunk] at hstep

theorem reads_proof {party : Option Party} {written : List UInt8} :
    SessionStep digest (meeting hello remote hash .readingProof party written [])
      (.receives (proofMessage hash))
      (meeting hello remote hash .readingProof party written (proofMessage hash)) :=
  .gotProof (s := meeting hello remote hash .readingProof party written []) _ rfl
    (Nat.le_of_eq (length_proofMessage hash))

theorem connects {party : Party} :
    SessionStep digest (meeting hello remote hash .pinned (some party) [] []) .silent
      (meeting hello remote hash .sendingProof (some party) [] []) :=
  .connected (s := meeting hello remote hash .pinned (some party) [] []) rfl (Option.some_ne_none _)

theorem finishes_proof {party : Option Party} {received : List UInt8} :
    SessionStep digest (meeting hello remote hash .sendingProof party (proofMessage hash) received)
      .silent (meeting hello remote hash .readingProof party (proofMessage hash) received) :=
  .sentProof (s := meeting hello remote hash .sendingProof party (proofMessage hash) received) rfl
    (List.append_nil _).symm

theorem proves {party : Option Party} {written : List UInt8} :
    SessionStep digest (meeting hello remote hash .readingProof party written (proofMessage hash))
      .silent (meeting hello remote hash .pending party written (proofMessage hash)) :=
  .proved (s := meeting hello remote hash .readingProof party written (proofMessage hash)) rfl rfl
    rfl

theorem length_exchanged (hash : Secret) (approved : Bool) :
    (proofMessage hash ++ confirmMessage hash approved).length = proofLength + confirmLength := by
  rw [List.length_append, length_proofMessage, length_confirmMessage]

theorem writes_confirm {party : Option Party} {approved : Bool} {received : List UInt8} :
    SessionStep digest
      (deciding hello remote hash .sendingConfirm party approved (proofMessage hash) received)
      (.sends (confirmMessage hash approved))
      (deciding hello remote hash .sendingConfirm party approved
        (proofMessage hash ++ confirmMessage hash approved) received) := by
  have hstep := @SessionStep.wrote digest
    (deciding hello remote hash .sendingConfirm party approved (proofMessage hash) received)
    confirmLength (.inr rfl)
  have hscript : (deciding hello remote hash .sendingConfirm party approved (proofMessage hash)
      received).script = proofMessage hash ++ confirmMessage hash approved := rfl
  have hchunk : ((proofMessage hash ++ confirmMessage hash approved).drop
      (proofMessage hash).length).take confirmLength = confirmMessage hash approved := by
    rw [List.drop_left, List.take_of_length_le (Nat.le_of_eq (length_confirmMessage hash approved))]
  rw [hscript] at hstep
  rwa [show (deciding hello remote hash .sendingConfirm party approved (proofMessage hash)
    received).written = proofMessage hash from rfl, hchunk] at hstep

theorem reads_confirm {party : Option Party} {approved theirs : Bool} {written : List UInt8} :
    SessionStep digest
      (deciding hello remote hash .readingConfirm party approved written (proofMessage hash))
      (.receives (confirmMessage hash theirs))
      (deciding hello remote hash .readingConfirm party approved written
        (proofMessage hash ++ confirmMessage hash theirs)) :=
  .gotConfirm (s := deciding hello remote hash .readingConfirm party approved written
    (proofMessage hash)) _ rfl (Nat.le_of_eq (length_exchanged hash theirs))

theorem confirms {party : Option Party} {written : List UInt8} :
    SessionStep digest
      (deciding hello remote hash .readingConfirm party true written
        (proofMessage hash ++ confirmMessage hash true)) .silent
      (deciding hello remote hash .trusting party true written
        (proofMessage hash ++ confirmMessage hash true)) := by
  have hidentity : (⟨[], [], ⟨digest hello.certificate⟩⟩ : Device.TlsIdentity).fingerprint =
      ⟨digest hello.certificate⟩ := rfl
  refine .confirmed (s := deciding hello remote hash .readingConfirm party true written
    (proofMessage hash ++ confirmMessage hash true)) rfl rfl rfl (length_exchanged hash true) ?_
    hidentity
  have hremote : (deciding hello remote hash .readingConfirm party true written
      (proofMessage hash ++ confirmMessage hash true)).received.drop proofLength =
        confirmMessage hash true := List.drop_left' (length_proofMessage hash)
  rw [hremote]
  exact (checkConfirm_eq_ok (length_confirmMessage hash true)).mpr ⟨rfl, rfl⟩

end SessionStep

def bothPending (listener connector : Hello) (hash : Secret) : PairingWorld :=
  facing
    (meeting listener connector hash .pending (some (.session 1)) (proofMessage hash)
      (proofMessage hash))
    (meeting connector listener hash .pending (some (.session 0)) (proofMessage hash)
      (proofMessage hash)) [] []

theorem facing_start : PairingStart
    (facing (opening listener .starting) (opening connector .starting) [] []) where
  sessions
    | 0 => ⟨_, _, _, rfl⟩
    | 1 => ⟨_, _, _, rfl⟩
    | _ + 2 => ⟨_, _, _, rfl⟩
  inbox
    | 0 => rfl
    | 1 => rfl
    | _ + 2 => rfl

theorem facing_transcripts {bytes : List UInt8} (hl : l.transcript = some bytes)
    (hc : c.transcript = some bytes) : (transcripts (facing l c a b)).Subsingleton := by
  refine Set.subsingleton_singleton.anti (t := {bytes}) ?_
  rintro found ⟨k, hk⟩
  rw [Set.mem_singleton_iff]
  match k with
  | 0 => exact Option.some.inj (hk.symm.trans hl)
  | 1 => exact Option.some.inj (hk.symm.trans hc)
  | _ + 2 => cases hk

def bothTrusting (listener connector : Hello) (hash : Secret) : PairingWorld :=
  facing
    (deciding listener connector hash .trusting (some (.session 1)) true
      (proofMessage hash ++ confirmMessage hash true) (proofMessage hash ++ confirmMessage hash true))
    (deciding connector listener hash .trusting (some (.session 0)) true
      (proofMessage hash ++ confirmMessage hash true) (proofMessage hash ++ confirmMessage hash true))
    [] []

theorem honest_confirmation : ∃ labels,
    Run (PairingStep digest) (bothPending listener connector hash) labels
      (bothTrusting listener connector hash) := by
  have hdecided := (@Run.nil _ _ (PairingStep digest) (bothPending listener connector hash)
    |>.snoc (.left (.decided true rfl))).snoc (.right (.decided true rfl))
  have hsent := (((hdecided.snoc (.left_sent rfl .writes_confirm)).snoc
    (.right_sent rfl .writes_confirm)).snoc (.left (.sentConfirm rfl rfl))).snoc
    (.right (.sentConfirm rfl rfl))
  exact ⟨_, (((hsent.snoc (.left_received .reads_confirm)).snoc
    (.right_received .reads_confirm)).snoc (.left .confirms)).snoc (.right .confirms)⟩

theorem honest_pairing (hlistener : listener.role = .listener)
    (hconnector : connector.role = .connector) (hl : listener.WellFormed)
    (hc : connector.WellFormed) : ∃ labels, Run (PairingStep digest)
      (facing (opening listener .starting) (opening connector .starting) [] []) labels
      (bothPending listener connector (digest (transcriptBytes listener connector))) := by
  generalize hhash : digest (transcriptBytes listener connector) = hash
  have htranscript : pairingTranscript digest listener connector = .ok hash :=
    (pairingTranscript_hellos hlistener hconnector hl hc).trans (congrArg Except.ok hhash)
  have hleft : (opening listener .greeting).hashWith digest connector = .ok hash := by
    rw [PairingSession.hashWith, show (opening listener .greeting).role = .listener from hlistener]
    exact htranscript
  have hright : (opening connector .greeting).hashWith digest listener = .ok hash := by
    rw [PairingSession.hashWith, show (opening connector .greeting).role = .connector from hconnector]
    exact htranscript
  have hroles : connector.role = listener.role.other := by rw [hlistener, hconnector]; rfl
  have hroles' : listener.role = connector.role.other := by rw [hlistener, hconnector]; rfl
  have hopened : Run (PairingStep digest)
      (facing (opening listener .starting) (opening connector .starting) [] []) [0]
      (facing (opening listener .greeting) (opening connector .starting) [] []) :=
    .single (.left (.opens hl))
  have hgreeted := ((hopened.snoc (.right (.opens hc))).snoc
    (.left (.greets hc hroles hleft))).snoc (.right (.greets hl hroles' hright))
  have hconnected := ((hgreeted.snoc (.meet hlistener hconnector)).snoc (.left .connects)).snoc
    (.right .connects)
  have hsent := (((hconnected.snoc (.left_sent rfl .writes_proof)).snoc
    (.right_sent rfl .writes_proof)).snoc (.left .finishes_proof)).snoc (.right .finishes_proof)
  exact ⟨_, (((hsent.snoc (.left_received .reads_proof)).snoc
    (.right_received .reads_proof)).snoc (.left .proves)).snoc (.right .proves)⟩

def plainDigest (bytes : List UInt8) : Secret :=
  ⟨(bytes ++ List.replicate 32 0).take 32, by
    rw [List.length_take, List.length_append, List.length_replicate]
    omega⟩

def plainListener : Hello := ⟨.listener, plainDigest [3], [1]⟩

def plainConnector : Hello := ⟨.connector, plainDigest [4], [2]⟩

theorem plain_pairing : ∃ labels, Run (PairingStep plainDigest)
    (facing (opening plainListener .starting) (opening plainConnector .starting) [] []) labels
    (bothPending plainListener plainConnector
      (plainDigest (transcriptBytes plainListener plainConnector))) :=
  honest_pairing rfl rfl ⟨by decide, by decide⟩ ⟨by decide, by decide⟩

theorem pairing_authenticates_both_ends_met : ∃ labels later pending world p q,
    Run (PairingStep plainDigest)
      (facing (opening plainListener .starting) (opening plainConnector .starting) [] []) labels
      pending ∧
    (pending.sessions 0).pendingPairing plainDigest = some p ∧
    (pending.sessions 1).pendingPairing plainDigest = some q ∧
    p.peerFingerprint = ⟨plainDigest [2]⟩ ∧ q.peerFingerprint = ⟨plainDigest [1]⟩ ∧
    Run (PairingStep plainDigest) pending later world ∧ (world.sessions 0).phase = .trusting ∧
    (world.sessions 1).approved = some true ∧
    (world.sessions 1).transcript = (world.sessions 0).transcript := by
  obtain ⟨labels, hrun⟩ := plain_pairing
  obtain ⟨later, hlater⟩ := honest_confirmation
  obtain ⟨hauthentic, -⟩ := pairing_authenticates_both_ends facing_start hrun
    ((facing_transcripts rfl rfl).injOn _)
  obtain ⟨hp, hq⟩ := hauthentic (j := 0) (k := 1) rfl rfl rfl rfl rfl
  obtain ⟨-, htrusting, -⟩ := pairing_authenticates_both_ends facing_start (hrun.append hlater)
    ((facing_transcripts rfl rfl).injOn _)
  obtain ⟨-, -, hother⟩ := htrusting (k := 0) rfl
  obtain ⟨happroved, hsame⟩ := hother (j := 1) rfl
  exact ⟨labels, later, _, _, _, _, hrun, rfl, rfl, hp, hq, hlater, rfl, happroved, hsame⟩

end ClipFerry.Pairing
