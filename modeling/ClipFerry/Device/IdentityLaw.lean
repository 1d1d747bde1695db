import ClipFerry.Device.IdentityCalls

namespace ClipFerry.Device

open Foundation Protocol Server Transition VirtualTree

variable {dpapi : Dpapi} {digest : List UInt8 → Secret} {directory directory' : Directory}
  {phase phase' : IdentityPhase} {bytes : List UInt8} {identity : TlsIdentity}
  {world world' : IdentityWorld} {k : Nat}

def Holds (dpapi : Dpapi) (digest : List UInt8 → Secret) (bytes : List UInt8)
    (identity : TlsIdentity) : Prop :=
  (bytes ≠ [] ∧ bytes.length ≤ identityProtectedLimit) ∧
    identityFromProtected dpapi digest bytes = .ok identity

theorem loadIdentity_eq_ok : loadIdentity dpapi digest directory = .ok identity ↔
    ∃ bytes, directory.read identityFile = some bytes ∧ Holds dpapi digest bytes identity := by
  rw [loadIdentity, Checked.bind_eq_ok]
  simp only [readBounded_eq_ok, Holds, and_assoc]

theorem identityFile_not_temporary : ¬Temporary identityFile := by
  rw [Temporary]
  decide

def Knows (dpapi : Dpapi) (digest : List UInt8 → Secret) (directory : Directory) :
    IdentityPhase → Prop
  | .preparing | .generating | .stopped | .returned (.error _) => True
  | .loading read | .reloading _ read => Reads directory identityFile identityProtectedLimit read
  | .publishing bytes _ => ∃ identity, Holds dpapi digest bytes identity
  | .returned (.ok stored) => loadIdentity dpapi digest directory = .ok stored.identity

def Creator : IdentityPhase → Prop
  | .publishing _ (.removing _ _ (.ok _)) | .publishing _ (.finished (.ok _))
  | .reloading true _ | .returned (.ok ⟨_, true⟩) => True
  | _ => False

structure OneIdentity (dpapi : Dpapi) (digest : List UInt8 → Secret) (world : IdentityWorld) :
    Prop where
  crew : Crew world.directory (IdentityPhase.publication ∘ world.calls)
  whole : ∀ {bytes}, world.directory.read identityFile = some bytes →
    ∃ identity, Holds dpapi digest bytes identity
  knows : ∀ k, Knows dpapi digest world.directory (world.calls k)
  creator : ∀ {k}, Creator (world.calls k) → world.directory.find identityFile ≠ none
  single : ∀ {j k}, Creator (world.calls j) → Creator (world.calls k) → j = k

theorem Knows.frame (h : Knows dpapi digest directory phase)
    (hkept : ∀ {file}, directory.find identityFile = some file →
      directory'.find identityFile = some file ∧ directory'.content file = directory.content file)
    (hread : ∀ {bytes}, directory.read identityFile = some bytes →
      directory'.read identityFile = some bytes) : Knows dpapi digest directory' phase := by
  cases phase with
  | preparing | generating | stopped => trivial
  | loading read => exact Reads.frame h hkept
  | reloading created read => exact Reads.frame h hkept
  | publishing => exact h
  | returned result =>
    cases result with
    | error => trivial
    | ok stored =>
      obtain ⟨bytes, hbytes, hholds⟩ := loadIdentity_eq_ok.mp h
      exact loadIdentity_eq_ok.mpr ⟨bytes, hread hbytes, hholds⟩

theorem Knows.loaded {result : Except IoError (List UInt8)}
    (h : Reads directory identityFile identityProtectedLimit (.finished result))
    (hwhole : ∀ {bytes}, directory.read identityFile = some bytes →
      ∃ identity, Holds dpapi digest bytes identity)
    (hidentity : loaded dpapi digest result = .ok identity) :
    loadIdentity dpapi digest directory = .ok identity := by
  obtain ⟨bytes, rfl, hbytes⟩ := Checked.bind_eq_ok.mp hidentity
  obtain ⟨_, hholds⟩ := hwhole h.1
  exact loadIdentity_eq_ok.mpr ⟨bytes, h.1, hholds.1, hbytes⟩

namespace IdentityCallStep

theorem file_kept (h : IdentityCallStep dpapi digest directory phase directory' phase')
    {view : Nat → List UInt8 × PublishPhase} (hcrew : Crew directory view)
    (hview : view k = phase.publication) {file : Nat}
    (hfind : directory.find identityFile = some file) :
    directory'.find identityFile = some file ∧ directory'.content file = directory.content file := by
  cases h with
  | publishes h => exact hcrew.file_kept hview h identityFile_not_temporary hfind
  | _ => exact ⟨hfind, rfl⟩

theorem read_kept (h : IdentityCallStep dpapi digest directory phase directory' phase')
    {view : Nat → List UInt8 × PublishPhase} (hcrew : Crew directory view)
    (hview : view k = phase.publication) (hread : directory.read identityFile = some bytes) :
    directory'.read identityFile = some bytes := by
  obtain ⟨file, hfind, hcontent⟩ := Option.map_eq_some_iff.mp hread
  obtain ⟨hfind', hcontent'⟩ := h.file_kept hcrew hview hfind
  rw [Volume.read, hfind', Option.map_some, hcontent', hcontent]

theorem file_new (h : IdentityCallStep dpapi digest directory phase directory' phase')
    {view : Nat → List UInt8 × PublishPhase} (hcrew : Crew directory view)
    (hview : view k = phase.publication) {file : Nat}
    (hfind : directory'.find identityFile = some file) :
    directory.find identityFile = some file ∨
      (directory.find identityFile = none ∧ ∃ temporary, ∃ bytes, directory'.content file = bytes ∧
        phase = .publishing bytes (.linking temporary file) ∧
        phase' = .publishing bytes (.removing temporary file (.ok ()))) := by
  cases h with
  | @publishes _ bytes _ _ h =>
    rcases hcrew.file_new hview h (ne_temporaryName identityFile_not_temporary) hfind with
      hold | ⟨-, hfree, hcontent, temporary, rfl, rfl⟩
    · exact .inl hold
    · exact .inr ⟨hfree, temporary, bytes, hcontent, rfl, rfl⟩
  | _ => exact .inl hfind

theorem creator (h : IdentityCallStep dpapi digest directory phase directory' phase')
    (hcreator : Creator phase') : Creator phase ∨
      (directory.find identityFile = none ∧ directory'.find identityFile ≠ none) := by
  cases h with
  | prepared | notPrepared | loads | generated | notGenerated | stops => cases hcreator
  | loaded result =>
    cases hresult : Device.loaded dpapi digest result with
    | ok identity =>
      rw [hresult] at hcreator
      cases hcreator
    | error error =>
      rw [hresult, IdentityPhase.afterLoad] at hcreator
      split at hcreator <;> cases hcreator
  | publishes h =>
    cases h with
    | taken | exhausted | notCreated | created | wrote | notWritten | synced | occupied
    | notLinked => cases hcreator
    | linked hfound hfree =>
      refine .inr ⟨hfree, ?_⟩
      rw [Volume.find_link, if_pos rfl]
      nofun
    | @removed temporary file result | @notRemoved temporary file result =>
      cases result with
      | ok => exact .inl trivial
      | error => cases hcreator
  | published result =>
    cases result with
    | ok => exact .inl trivial
    | error error =>
      rw [IdentityPhase.afterPublish] at hcreator
      split at hcreator <;> cases hcreator
  | @reloads created => cases created with
    | true => exact .inl trivial
    | false => cases hcreator
  | @reloaded created result =>
    cases hresult : Device.loaded dpapi digest result with
    | error error =>
      rw [hresult] at hcreator
      cases hcreator
    | ok identity =>
      rw [hresult] at hcreator
      cases created with
      | true => exact .inl trivial
      | false => cases hcreator

theorem knows (h : IdentityCallStep dpapi digest directory phase directory' phase')
    (hdpapi : dpapi.Inverts) (hknows : Knows dpapi digest directory phase)
    (hwhole : ∀ {bytes}, directory.read identityFile = some bytes →
      ∃ identity, Holds dpapi digest bytes identity) :
    Knows dpapi digest directory' phase' := by
  cases h with
  | prepared | notPrepared | notGenerated | stops => trivial
  | loads h => exact h.reads hknows
  | reloads h => exact h.reads hknows
  | loaded result =>
    cases hresult : Device.loaded dpapi digest result with
    | ok identity => exact Knows.loaded hknows hwhole hresult
    | error error =>
      rw [IdentityPhase.afterLoad]
      split <;> trivial
  | generated hencoded hprotects hbytes =>
    obtain ⟨-, hnonempty, hlimit⟩ := protectForCurrentUser_eq_ok hbytes
    exact ⟨_, ⟨fun hempty => hnonempty (hempty ▸ rfl), hlimit⟩,
      identityFromProtected_encoded digest hdpapi hencoded hprotects hbytes⟩
  | publishes h => exact hknows
  | published result =>
    cases result with
    | ok => trivial
    | error error =>
      rw [IdentityPhase.afterPublish]
      split <;> trivial
  | @reloaded created result =>
    cases hresult : Device.loaded dpapi digest result with
    | ok identity => exact Knows.loaded hknows hwhole hresult
    | error error => trivial

theorem crew (h : IdentityCallStep dpapi digest directory phase directory' phase')
    {view : Nat → List UInt8 × PublishPhase} (hcrew : Crew directory view)
    (hview : view k = phase.publication) :
    Crew directory' (Function.update view k phase'.publication) := by
  cases h with
  | publishes h => exact hcrew.step hview identityFile_not_temporary h
  | prepared | notPrepared | loads | generated | notGenerated | reloads | stops =>
    exact hcrew.leave _ rfl
  | loaded result =>
    cases hresult : Device.loaded dpapi digest result with
    | ok identity => exact hcrew.leave _ rfl
    | error error =>
      rw [IdentityPhase.afterLoad]
      split <;> exact hcrew.leave _ rfl
  | published result =>
    cases result with
    | ok => exact hcrew.leave _ rfl
    | error error =>
      rw [IdentityPhase.afterPublish]
      split <;> exact hcrew.leave _ rfl
  | @reloaded created result =>
    cases hresult : Device.loaded dpapi digest result with
    | ok identity => exact hcrew.leave _ rfl
    | error error => exact hcrew.leave _ rfl

end IdentityCallStep

namespace OneIdentity

theorem start (h : IdentityStart dpapi digest world) : OneIdentity dpapi digest world where
  crew := by
    have hview : IdentityPhase.publication ∘ world.calls = fun _ => ([], .drawing 0) := by
      funext k
      rw [Function.comp_apply, h.calls]
      rfl
    exact hview ▸ Crew.idle world.directory 0
  whole := by
    intro bytes hread
    rcases h.identity with hnone | ⟨identity, hidentity⟩
    · rw [hnone] at hread
      cases hread
    · obtain ⟨found, hfound, hholds⟩ := loadIdentity_eq_ok.mp hidentity
      rw [hread] at hfound
      cases hfound
      exact ⟨identity, hholds⟩
  knows := fun k => by
    rw [h.calls]
    trivial
  creator := fun {k} hcreator => by
    rw [h.calls] at hcreator
    cases hcreator
  single := fun {j k} hj => by
    rw [h.calls] at hj
    cases hj

theorem step (hdpapi : dpapi.Inverts) (h : OneIdentity dpapi digest world)
    (hstep : IdentityStep dpapi digest world k world') :
    OneIdentity dpapi digest world' ∧
      ∀ {bytes}, world.directory.read identityFile = some bytes →
        world'.directory.read identityFile = some bytes := by
  obtain ⟨hphase, hcall⟩ := hstep
  rename_i directory' phase phase'
  subst hphase
  have hview : (IdentityPhase.publication ∘ world.calls) k = (world.calls k).publication := rfl
  have hkept {bytes : List UInt8} (hread : world.directory.read identityFile = some bytes) :
      directory'.read identityFile = some bytes := hcall.read_kept h.crew hview hread
  have hpresent (hfind : world.directory.find identityFile ≠ none) :
      directory'.find identityFile ≠ none := by
    obtain ⟨file, hfile⟩ := Option.ne_none_iff_exists'.mp hfind
    rw [(hcall.file_kept h.crew hview hfile).1]
    nofun
  refine ⟨⟨?_, ?_, ?_, ?_, ?_⟩, hkept⟩
  · rw [Function.comp_update]
    exact hcall.crew h.crew hview
  · intro bytes hread
    obtain ⟨file, hfind, hcontent⟩ := Option.map_eq_some_iff.mp hread
    rcases hcall.file_new h.crew hview hfind with
      hold | ⟨-, temporary, written, hwritten, hphase, -⟩
    · obtain ⟨-, hsame⟩ := hcall.file_kept h.crew hview hold
      refine h.whole (Option.map_eq_some_iff.mpr ⟨file, hold, ?_⟩)
      rw [← hsame, hcontent]
    · have hknows := h.knows k
      rw [hphase] at hknows
      obtain rfl := hwritten.symm.trans hcontent
      exact hknows
  · intro j
    dsimp only
    rw [Function.update_apply]
    split
    · exact hcall.knows hdpapi (h.knows k) h.whole
    · exact (h.knows j).frame (fun hfind => hcall.file_kept h.crew hview hfind) hkept
  · intro j hj
    dsimp only at hj
    rw [Function.update_apply] at hj
    split at hj
    · exact (hcall.creator hj).elim (fun hold => hpresent (h.creator hold)) And.right
    · exact hpresent (h.creator hj)
  · refine exclusive_update (fun phase (_ : Unit) => Creator phase) h.single
      (fun {j} _ hmine hj => ?_) (x := ())
    exact (hcall.creator hmine).elim (fun hold => h.single hj hold)
      fun hnew => absurd hnew.1 (h.creator hj)

theorem run (hdpapi : dpapi.Inverts) (h : OneIdentity dpapi digest world) {labels : List Nat}
    (hrun : Run (IdentityStep dpapi digest) world labels world') :
    OneIdentity dpapi digest world' :=
  hrun.invariant (I := OneIdentity dpapi digest) (fun h hstep => (step hdpapi h hstep).1) h

theorem kept (hdpapi : dpapi.Inverts) (h : OneIdentity dpapi digest world) {labels : List Nat}
    (hrun : Run (IdentityStep dpapi digest) world labels world')
    (hread : world.directory.read identityFile = some bytes) :
    world'.directory.read identityFile = some bytes := by
  refine (hrun.invariant (I := fun world => OneIdentity dpapi digest world ∧
    world.directory.read identityFile = some bytes) (fun {s a t} h hstep => ?_) ⟨h, hread⟩).2
  obtain ⟨h, hread⟩ := h
  obtain ⟨h', hkept⟩ := step hdpapi h hstep
  exact ⟨h', hkept hread⟩

theorem absentOrComplete (h : OneIdentity dpapi digest world) :
    AbsentOrComplete dpapi digest world.directory := by
  cases hread : world.directory.read identityFile with
  | none => exact .inl hread
  | some bytes =>
    obtain ⟨identity, hholds⟩ := h.whole hread
    exact .inr ⟨identity, loadIdentity_eq_ok.mpr ⟨bytes, hread, hholds⟩⟩

theorem returned (h : OneIdentity dpapi digest world) {stored : StoredIdentity}
    (hreturned : world.calls k = .returned (.ok stored)) :
    loadIdentity dpapi digest world.directory = .ok stored.identity := by
  have hknows := h.knows k
  rw [hreturned] at hknows
  exact hknows

theorem single_created (h : OneIdentity dpapi digest world) {j : Nat} {mine theirs : StoredIdentity}
    (hmine : world.calls j = .returned (.ok mine)) (hmine' : mine.created = true)
    (htheirs : world.calls k = .returned (.ok theirs)) (htheirs' : theirs.created = true) :
    j = k := by
  obtain ⟨identity, created⟩ := mine
  obtain ⟨identity', created'⟩ := theirs
  cases hmine'
  cases htheirs'
  exact h.single (by rw [hmine]; trivial) (by rw [htheirs]; trivial)

end OneIdentity

def WithinLimits (certificate privateKey : List UInt8) : Prop :=
  (certificate.length ≠ 0 ∧ certificate.length ≤ certificateLimit) ∧
    privateKey.length ≠ 0 ∧ privateKey.length ≤ privateKeyLimit

theorem one_identity_per_device (hdpapi : dpapi.Inverts) {start : IdentityWorld}
    {labels : List Nat} (hstart : IdentityStart dpapi digest start)
    (hrun : Run (IdentityStep dpapi digest) start labels world) :
    AbsentOrComplete dpapi digest world.directory ∧
      (∀ j k mine theirs, world.calls j = .returned (.ok mine) → mine.created = true →
        world.calls k = .returned (.ok theirs) → theirs.created = true → j = k) ∧
      (∀ j k mine theirs, world.calls j = .returned (.ok mine) →
        world.calls k = .returned (.ok theirs) → mine.identity = theirs.identity) ∧
      (∀ k stored, world.calls k = .returned (.ok stored) →
        loadIdentity dpapi digest world.directory = .ok stored.identity) ∧
      (∀ later more contents, Run (IdentityStep dpapi digest) world more later →
        world.directory.read identityFile = some contents →
        later.directory.read identityFile = some contents) ∧
      ∀ certificate privateKey, WithinLimits certificate privateKey →
        ∃ encoded, encodeIdentityBundle certificate privateKey = .ok encoded ∧
          decodeIdentityBundle encoded = .ok (certificate, privateKey) := by
  have h := (OneIdentity.start hstart).run hdpapi hrun
  refine ⟨h.absentOrComplete, fun j k mine theirs hmine hmine' htheirs htheirs' =>
    h.single_created hmine hmine' htheirs htheirs', ?_, fun k stored => h.returned,
    fun later more contents hmore hread => h.kept hdpapi hmore hread, ?_⟩
  · intro j k mine theirs hmine htheirs
    exact Except.ok.inj ((h.returned hmine).symm.trans (h.returned htheirs))
  · intro certificate privateKey hlimits
    have hencoded := encodeIdentityBundle_eq_ok.mpr ⟨hlimits.1, hlimits.2, rfl⟩
    exact ⟨_, hencoded, decodeIdentityBundle_encodeIdentityBundle hencoded⟩

def prefixDpapi : Dpapi where
  protects := fun input entropy output => output = some (entropy ++ input)
  unprotect := fun output entropy =>
    if output.take entropy.length = entropy then .ok (some (output.drop entropy.length))
    else .error "The data is invalid. (0x8007000D)"

theorem prefixDpapi_inverts : prefixDpapi.Inverts := by
  rintro input entropy output hprotects
  obtain rfl := Option.some.inj hprotects
  exact (if_pos List.take_left).trans (by rw [List.drop_left])

def freshRoot : IdentityWorld := ⟨Volume.empty, fun _ => .preparing⟩

theorem freshRoot_start (dpapi : Dpapi) (digest : List UInt8 → Secret) :
    IdentityStart dpapi digest freshRoot := ⟨fun _ => rfl, .inl rfl⟩

theorem one_identity_per_device_adopted : ∃ labels world theirs,
    Run (IdentityStep prefixDpapi fun _ => repeatedSecret 5) freshRoot labels world ∧
      world.calls 0 = .returned (.ok ⟨⟨[1], [2], ⟨repeatedSecret 5⟩⟩, true⟩) ∧
      world.calls 1 = .returned (.ok theirs) ∧ theirs.created = false ∧
      theirs.identity = ⟨[1], [2], ⟨repeatedSecret 5⟩⟩ ∧
      ∀ k stored, world.calls k = .returned (.ok stored) → stored.created = true → 0 = k := by
  have hstart : Run (IdentityStep prefixDpapi fun _ => repeatedSecret 5) freshRoot [] freshRoot := .nil
  have habsent := ((hstart.snoc (.mk (k := 0) rfl .prepared)).snoc
    (.mk (k := 0) rfl (.loads (.failed notFound nofun)))).snoc (.mk (k := 0) rfl (.loaded _))
  have habsent' := ((habsent.snoc (.mk (k := 1) rfl .prepared)).snoc
    (.mk (k := 1) rfl (.loads (.failed notFound nofun)))).snoc (.mk (k := 1) rfl (.loaded _))
  have hpublishing := (habsent'.snoc (.mk (k := 0) rfl
    (@IdentityCallStep.generated _ _ _ [1] [2] _ _ _ rfl rfl rfl))).snoc (.mk (k := 1) rfl
    (@IdentityCallStep.generated _ _ _ [3] [4] _ _ _ rfl rfl rfl))
  have hwritten := (hpublishing.snoc (.mk (k := 0) rfl
    (.publishes (.created 7 9 (by decide) rfl)))).snoc
    (.mk (k := 0) rfl (.publishes (.wrote 46 (by decide) (by decide))))
  have hwritten' := (hwritten.snoc (.mk (k := 1) rfl
    (.publishes (.created 7 10 (by decide) (by decide))))).snoc
    (.mk (k := 1) rfl (.publishes (.wrote 46 (by decide) (by decide))))
  have hsynced := (hwritten'.snoc (.mk (k := 0) rfl (.publishes (.synced (by decide))))).snoc
    (.mk (k := 1) rfl (.publishes (.synced (by decide))))
  have hlinked := (hsynced.snoc (.mk (k := 0) rfl (.publishes (.linked rfl rfl)))).snoc
    (.mk (k := 1) rfl (.publishes (.occupied "exists" none (by decide))))
  have hpublished := (hlinked.snoc (.mk (k := 0) rfl (.publishes .removed))).snoc
    (.mk (k := 0) rfl (.published _))
  have hpublished' := (hpublished.snoc (.mk (k := 1) rfl (.publishes .removed))).snoc
    (.mk (k := 1) rfl (.published _))
  have hread := (((hpublished'.snoc (.mk (k := 0) rfl
    (.reloads (@ReadStep.statted _ _ _ _ 0 rfl (by decide))))).snoc
    (.mk (k := 0) rfl (.reloads (.opened rfl)))).snoc (.mk (k := 0) rfl
    (.reloads (.got 46 (by decide) (by decide))))).snoc
    (.mk (k := 0) rfl (.reloads (.ended (.inl (by decide)))))
  have hread' := (((hread.snoc (.mk (k := 1) rfl
    (.reloads (@ReadStep.statted _ _ _ _ 0 rfl (by decide))))).snoc
    (.mk (k := 1) rfl (.reloads (.opened rfl)))).snoc (.mk (k := 1) rfl
    (.reloads (.got 46 (by decide) (by decide))))).snoc
    (.mk (k := 1) rfl (.reloads (.ended (.inl (by decide)))))
  have hreloaded := (hread'.snoc (.mk (k := 0) rfl (.reloaded _))).snoc
    (.mk (k := 1) rfl (.reloaded _))
  obtain ⟨-, hsingle, hsame, -⟩ :=
    one_identity_per_device prefixDpapi_inverts (freshRoot_start _ _) hreloaded
  exact ⟨_, _, _, hreloaded, rfl, rfl, rfl, hsame 1 0 _ _ rfl rfl,
    fun k stored => hsingle 0 k _ stored rfl rfl⟩

end ClipFerry.Device
