import Mathlib.Data.Finset.Card
import ClipFerry.Device.PeerList
import ClipFerry.Device.TrustRefinement

namespace ClipFerry.Device

open Checked Foundation Protocol Server Transition VirtualTree

variable {digest : List UInt8 → Secret} {directory directory' : Directory}
  {phase phase' : TrustPhase} {name : Text} {names : List Text} {peer other : TrustedPeer}
  {peers found : List TrustedPeer} {readDir : Directory → List Text} {k : Nat}
  {world world' : TrustWorld} {view : Nat → List UInt8 × PublishPhase}

namespace TrustCallStep

theorem crew (h : TrustCallStep digest directory phase directory' phase')
    (hcrew : Crew directory view) (hview : view k = phase.publication) :
    Crew directory' (Function.update view k phase'.publication) := by
  cases h with
  | publishes h => exact hcrew.step hview (peerFile_not_temporary _) h
  | undone => exact (hcrew.remove (peerFile_not_temporary _)).leave _ rfl
  | revokes => exact (hcrew.remove (peerFile_not_temporary _)).leave _ rfl
  | _ => exact hcrew.leave _ rfl

theorem appears (h : TrustCallStep digest directory phase directory' phase')
    (hcrew : Crew directory view) (hview : view k = phase.publication)
    (hname : extension name = some peerExtension) (hnew : directory'.read name ≠ none)
    (hold : directory.read name = none) :
    ∃ peer, phase'.pending = some peer ∧ name = peerFile peer.fingerprint := by
  cases h with
  | @publishes _ peer record _ _ h =>
    obtain ⟨i, hfind⟩ := Option.ne_none_iff_exists'.mp (mt Volume.read_eq_none.mpr hnew)
    have htemporary : ∀ processId random,
        name ≠ temporaryName (peerFile peer.fingerprint) processId random := fun _ _ hsame =>
      temporaryName_extension _ _ _ (hsame ▸ hname)
    rcases hcrew.file_new hview h htemporary hfind with hbefore | ⟨hsame, -, -, temporary, rfl, rfl⟩
    · rw [Volume.read_eq_none.mp hold] at hbefore
      cases hbefore
    · exact ⟨peer, rfl, hsame⟩
  | undone =>
    rw [Volume.read_remove, hold, ite_self] at hnew
    exact absurd rfl hnew
  | revokes =>
    rw [Volume.read_remove, hold, ite_self] at hnew
    exact absurd rfl hnew
  | _ => exact absurd hold hnew

theorem settles (h : TrustCallStep digest directory phase directory' phase')
    (hpending : phase.pending = some peer) :
    phase'.pending = some peer ∨ directory'.read (peerFile peer.fingerprint) = none ∨
      (recordNames directory').length ≤ trustedPeerLimit := by
  cases h with
  | notAdmitted | admitted | notListed | full | listed | notPublished | revokes | notRevoked =>
    cases hpending
  | publishes h =>
    cases h with
    | taken | exhausted | notCreated | created | wrote | notWritten | synced | linked | occupied
    | notLinked => cases hpending
    | @removed temporary file result | @notRemoved temporary file result =>
      cases result with
      | ok => exact .inl hpending
      | error => cases hpending
  | published => exact .inl hpending
  | accepted hreadDir hlist => exact .inr (.inr ((listPeers_iff hreadDir).mp ⟨_, hlist⟩).bounded)
  | rejected => exact .inl hpending
  | undone =>
    cases hpending
    exact .inr (.inl (by rw [Volume.read_remove, if_pos rfl]))

theorem read_kept (h : TrustCallStep digest directory phase directory' phase')
    (hcrew : Crew directory view) (hview : view k = phase.publication) {record : List UInt8}
    (hname : ¬Temporary name) (hread : directory.read name = some record) :
    directory'.read name = some record ∨
      (∃ peer error, phase = .undoing peer error ∧ name = peerFile peer.fingerprint) ∨
        ∃ fingerprint, phase = .revoking fingerprint ∧ name = peerFile fingerprint := by
  cases h with
  | publishes h =>
    obtain ⟨i, hfind, hcontent⟩ := Volume.read_eq_some.mp hread
    obtain ⟨hfind', hcontent'⟩ := hcrew.file_kept hview h hname hfind
    exact .inl (Volume.read_eq_some.mpr ⟨i, hfind', hcontent'.trans hcontent⟩)
  | @undone peer error =>
    rw [Volume.read_remove]
    split
    · next hsame => exact .inr (.inl ⟨peer, error, rfl, hsame⟩)
    · exact .inl hread
  | @revokes fingerprint _ =>
    rw [Volume.read_remove]
    split
    · next hsame => exact .inr (.inr ⟨fingerprint, rfl, hsame⟩)
    · exact .inl hread
  | _ => exact .inl hread

theorem holds_new (h : TrustCallStep digest directory phase directory' phase')
    (hcrew : Crew directory view) (hview : view k = phase.publication)
    (hholds : phase'.holds = some peer) : phase.holds = some peer ∨
      ∃ record publish, phase = .publishing peer record publish ∧
        directory.read (peerFile peer.fingerprint) = none ∧
        directory'.read (peerFile peer.fingerprint) = some record := by
  cases h with
  | notAdmitted | admitted | notListed | full | listed | notPublished | undone | revokes
  | notRevoked => cases hholds
  | @publishes _ peer' record _ _ h =>
    cases h with
    | taken | exhausted | notCreated | created | wrote | notWritten | synced | occupied
    | notLinked => cases hholds
    | @linked temporary file found hfound hfree =>
      cases hholds
      have howned := hcrew.owned k
      rw [hview] at howned
      obtain rfl := Option.some.inj (hfound.symm.trans howned.2.1)
      refine .inr ⟨record, _, rfl, Volume.read_eq_none.mpr hfree, ?_⟩
      rw [Volume.read_link, if_pos rfl]
      exact congrArg some howned.2.2
    | @removed temporary file result | @notRemoved temporary file result =>
      cases result with
      | ok => exact .inl hholds
      | error => cases hholds
  | published => exact .inl hholds
  | accepted => exact .inl hholds
  | rejected => exact .inl hholds

theorem publishing_encoded (h : TrustCallStep digest directory phase directory' phase')
    (hold : ∀ {peer record publish}, phase = .publishing peer record publish →
      encodeTrustRecord peer = .ok record) {record : List UInt8} {publish : PublishPhase}
    (hnew : phase' = .publishing peer record publish) : encodeTrustRecord peer = .ok record := by
  cases h with
  | listed _ _ _ hrecord =>
    cases hnew
    exact hrecord
  | publishes h =>
    cases hnew
    exact hold rfl
  | _ => cases hnew

theorem undoing_holds (h : TrustCallStep digest directory phase directory' phase') {error : IoError}
    (hphase : phase = .undoing peer error) : phase'.holds = none := by
  cases h <;> first | rfl | cases hphase

theorem not_revoking (h : TrustCallStep digest directory phase directory' phase')
    (fingerprint : CertificateFingerprint) : phase' ≠ .revoking fingerprint := by
  cases h <;> nofun

end TrustCallStep

def Settled (world : TrustWorld) (name : Text) : Prop :=
  ∀ k peer, (world.calls k).pending = some peer → name ≠ peerFile peer.fingerprint

section SettledRecords

open Classical

noncomputable def settled (world : TrustWorld) : Finset Text :=
  (recordNames world.directory).toFinset.filter (Settled world)

theorem mem_settled :
    name ∈ settled world ↔ name ∈ recordNames world.directory ∧ Settled world name := by
  rw [settled, Finset.mem_filter, List.mem_toFinset]

theorem settled_le (world : TrustWorld) :
    (settled world).card ≤ (recordNames world.directory).length :=
  (Finset.card_filter_le _ _).trans (List.toFinset_card_le _)

theorem card_settled (h : ∀ name, Settled world name) :
    (settled world).card = (recordNames world.directory).length := by
  rw [settled, Finset.filter_true_of_mem fun name _ => h name,
    List.toFinset_card_of_nodup (recordNames_nodup _)]

end SettledRecords

structure TrustCap (world : TrustWorld) : Prop where
  crew : Crew world.directory (TrustPhase.publication ∘ world.calls)
  bounded : (settled world).card ≤ trustedPeerLimit

theorem TrustStep.settled (hcrew : Crew world.directory (TrustPhase.publication ∘ world.calls))
    (h : TrustStep digest world k world') :
    settled world' ⊆ settled world ∨ (recordNames world'.directory).length ≤ trustedPeerLimit := by
  obtain ⟨hphase, hcall⟩ := h
  rename_i directory' phase phase'
  subst hphase
  by_cases hfull : (recordNames directory').length ≤ trustedPeerLimit
  · exact .inr hfull
  refine .inl fun name hname => ?_
  obtain ⟨hrecord, hfree⟩ := mem_settled.mp hname
  obtain ⟨hpresent, hextension⟩ := mem_recordNames.mp hrecord
  have hmine {peer : TrustedPeer} (hpending : phase'.pending = some peer) :
      name ≠ peerFile peer.fingerprint :=
    hfree k peer ((congrArg TrustPhase.pending (Function.update_self ..)).trans hpending)
  refine mem_settled.mpr ⟨mem_recordNames.mpr ⟨fun habsent => ?_, hextension⟩, fun j peer hj => ?_⟩
  · obtain ⟨peer, hpending, hsame⟩ := hcall.appears hcrew rfl hextension hpresent habsent
    exact hmine hpending hsame
  · by_cases hjk : j = k
    · subst hjk
      rcases hcall.settles hj with hpending | hgone | hroom
      · exact hmine hpending
      · rintro rfl
        exact hpresent hgone
      · exact absurd hroom hfull
    · refine hfree j peer ?_
      rw [← hj]
      exact congrArg TrustPhase.pending (Function.update_of_ne hjk ..)

namespace TrustCap

theorem start (h : TrustStart world) : TrustCap world where
  crew := by
    have hview : TrustPhase.publication ∘ world.calls = fun _ => ([], .drawing 0) := by
      funext k
      have hbegins := h.calls k
      rw [Function.comp_apply]
      cases hphase : world.calls k with
      | publishing =>
        rw [hphase] at hbegins
        cases hbegins
      | _ => rfl
    exact hview ▸ Crew.idle world.directory 0
  bounded := (settled_le world).trans h.bounded

theorem step (h : TrustCap world) (hstep : TrustStep digest world k world') : TrustCap world' where
  crew := by
    obtain ⟨rfl, hcall⟩ := hstep
    rw [Function.comp_update]
    exact hcall.crew h.crew rfl
  bounded := by
    rcases hstep.settled h.crew with hsubset | hroom
    · exact (Finset.card_le_card hsubset).trans h.bounded
    · exact (settled_le world').trans hroom

theorem records (h : TrustCap world) (hreturned : ∀ k, (world.calls k).Returned) :
    (recordNames world.directory).length ≤ trustedPeerLimit := by
  have hall (name : Text) : Settled world name := by
    intro k peer hpending
    have hdone := hreturned k
    cases hphase : world.calls k with
    | publishing | checking | undoing =>
      rw [hphase] at hdone
      cases hdone
    | _ =>
      rw [hphase] at hpending
      cases hpending
  exact (card_settled hall).symm.trans_le h.bounded

end TrustCap

/-! `named` are the fingerprints that some `revoke_peer` may be asked to remove. -/

structure TrustKept (named : CertificateFingerprint → Prop) (world : TrustWorld) : Prop where
  crew : Crew world.directory (TrustPhase.publication ∘ world.calls)
  revoking : ∀ {k fingerprint}, world.calls k = .revoking fingerprint → named fingerprint
  encoded : ∀ {k peer record publish}, world.calls k = .publishing peer record publish →
    encodeTrustRecord peer = .ok record
  record : ∀ {k peer}, (world.calls k).holds = some peer → ¬named peer.fingerprint →
    ∃ record, encodeTrustRecord peer = .ok record ∧
      world.directory.read (peerFile peer.fingerprint) = some record
  single : ∀ {j k peer other}, (world.calls j).holds = some peer →
    (world.calls k).holds = some other → ¬named peer.fingerprint →
    peer.fingerprint = other.fingerprint → j = k

namespace TrustKept

variable {named : CertificateFingerprint → Prop}

theorem holds_none (h : phase.Begins) : phase.holds = none := by
  cases phase with
  | idle | trusting | revoking => rfl
  | listing | publishing | checking | undoing | trusted | revoked => cases h

theorem start (h : TrustStart world)
    (hnamed : ∀ {k fingerprint}, world.calls k = .revoking fingerprint → named fingerprint) :
    TrustKept named world where
  crew := (TrustCap.start h).crew
  revoking := hnamed
  encoded := fun {k peer record publish} hphase => by
    have hbegins := h.calls k
    rw [hphase] at hbegins
    cases hbegins
  record := fun {k peer} hholds => by
    rw [holds_none (h.calls k)] at hholds
    cases hholds
  single := fun {j k peer other} hholds => by
    rw [holds_none (h.calls j)] at hholds
    cases hholds

theorem step (h : TrustKept named world) (hstep : TrustStep digest world k world') :
    TrustKept named world' := by
  obtain ⟨hphase, hcall⟩ := hstep
  rename_i directory' phase phase'
  subst hphase
  have hfresh {j : Nat} {peer other : TrustedPeer} (hmine : phase'.holds = some peer)
      (hj : (world.calls j).holds = some other) (hnamed : ¬named other.fingerprint)
      (hsame : other.fingerprint = peer.fingerprint) : j = k := by
    rcases hcall.holds_new h.crew rfl hmine with hold | ⟨_, _, _, hfree, _⟩
    · exact h.single hj hold hnamed hsame
    · obtain ⟨record, -, hread⟩ := h.record hj hnamed
      rw [hsame, hfree] at hread
      cases hread
  have hkept {j : Nat} {peer : TrustedPeer} (hj : (world.calls j).holds = some peer)
      (hnamed : ¬named peer.fingerprint) (hother : j = k → phase'.holds ≠ none) :
      ∃ record, encodeTrustRecord peer = .ok record ∧
        directory'.read (peerFile peer.fingerprint) = some record := by
    obtain ⟨record, hencoded, hread⟩ := h.record hj hnamed
    refine ⟨record, hencoded, ?_⟩
    rcases hcall.read_kept h.crew rfl (peerFile_not_temporary _) hread with
      hread' | ⟨undone, error, hphase, hsame⟩ | ⟨fingerprint, hphase, hsame⟩
    · exact hread'
    · have hholds : (world.calls k).holds = some undone := congrArg TrustPhase.holds hphase
      obtain rfl := h.single hj hholds hnamed (peerFile_injective hsame)
      exact absurd (hcall.undoing_holds hphase) (hother rfl)
    · exact absurd (peerFile_injective hsame ▸ h.revoking hphase) hnamed
  refine ⟨?_, ?_, ?_, ?_, ?_⟩
  · rw [Function.comp_update]
    exact hcall.crew h.crew rfl
  · intro j fingerprint hj
    dsimp only at hj
    rw [Function.update_apply] at hj
    split at hj
    · exact absurd hj (hcall.not_revoking fingerprint)
    · exact h.revoking hj
  · intro j peer record publish hj
    dsimp only at hj
    rw [Function.update_apply] at hj
    split at hj
    · exact hcall.publishing_encoded h.encoded hj
    · exact h.encoded hj
  · intro j peer hj hnamed
    dsimp only at hj
    rw [Function.update_apply] at hj
    split at hj
    · rcases hcall.holds_new h.crew rfl hj with hold | ⟨record, publish, hphase, -, hread⟩
      · refine hkept hold hnamed fun _ => ?_
        rw [hj]
        nofun
      · exact ⟨record, h.encoded hphase, hread⟩
    · next hjk => exact hkept hj hnamed fun hsame => absurd hsame hjk
  · intro i j peer other hi hj hnamed hsame
    refine exclusive_update
      (fun (phase : TrustPhase) fingerprint => ∃ peer, phase.holds = some peer ∧
        ¬named fingerprint ∧ peer.fingerprint = fingerprint) ?_ ?_
      ⟨peer, hi, hnamed, rfl⟩ ⟨other, hj, hnamed, hsame.symm⟩
    · rintro i j _ ⟨peer, hi, hnamed, rfl⟩ ⟨other, hj, -, hsame⟩
      exact h.single hi hj hnamed hsame.symm
    · rintro j _ ⟨peer, hmine, hnamed, rfl⟩ ⟨other, hj, -, hsame⟩
      exact hfresh hmine hj (hsame ▸ hnamed) hsame

end TrustKept

variable {calls : Nat → TrustPhase} {result : Except IoError TrustedPeer}

theorem TrustCallStep.update (k : Nat) (calls : Nat → TrustPhase)
    (h : TrustCallStep digest directory phase directory' phase') :
    TrustStep digest ⟨directory, Function.update calls k phase⟩ k
      ⟨directory', Function.update calls k phase'⟩ := by
  have hstep := @TrustStep.mk _ ⟨directory, Function.update calls k phase⟩ k _ _ _
    (Function.update_self ..) h
  rwa [Function.update_idem] at hstep

end ClipFerry.Device
