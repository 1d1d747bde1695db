import Mathlib.Logic.Function.Basic
import Mathlib.Logic.Relation
import ClipFerry.Local.Offer

namespace ClipFerry.Local

open VirtualTree Transition Checked

/-! One call of `read_at`. From `locked` to `opening` the call holds the lock on the state of its
source. -/

inductive ReadPhase where
  | idle
  | begun
  | locked
  | unrevoked
  | opening
  | verifying (context : StableFileContext)
  | reading (context : StableFileContext)
  | ending (context : StableFileContext) (read : List UInt8)
  | returned (result : Except HResult (List UInt8))

def ReadPhase.holdsLock : ReadPhase → Bool
  | locked | unrevoked | opening => true
  | _ => false

/-! `before` and `after` are what the handle has answered to the two checks of the call. -/

structure ReadCall where
  offset : UInt64
  length : Nat
  phase : ReadPhase
  before : Option FileInformation
  after : Option FileInformation

namespace ReadCall

def idle : ReadCall := ⟨0, 0, .idle, none, none⟩

def enter (call : ReadCall) (state : StableFileState) : ReadCall :=
  match state with
  | .active context => { call with phase := .verifying context }
  | .failed code => { call with phase := .returned (.error code) }
  | .unstarted => { call with phase := .locked }

def afterOpen (call : ReadCall) : Except HResult StableFileContext → ReadCall
  | .ok context => { call with phase := .verifying context }
  | .error error => { call with phase := .returned (.error error) }

def afterVerify (call : ReadCall) (size : UInt64) (information : Option FileInformation)
    (context : StableFileContext) : Except HResult Unit → ReadCall
  | .error error => { call with phase := .returned (.error error) }
  | .ok () => { call with
      phase := if size ≤ call.offset then .returned (.ok []) else .reading context
      before := information }

def afterRead (call : ReadCall) (source : StableFileSource) (context : StableFileContext) :
    Except HResult (List UInt8) → ReadCall
  | .error error => { call with phase := .returned (.error error) }
  | .ok read => { call with
      phase :=
        if read.length ≠ source.wanted call.offset call.length then
          .returned (.error sourceChangedError)
        else if source.snapshot.size.toNat ≤ call.offset.toNat + read.length then
          .ending context read
        else .returned (.ok read) }

def afterEnd (call : ReadCall) (information : Option FileInformation) (read : List UInt8) :
    Except HResult Unit → ReadCall
  | .error error => { call with phase := .returned (.error error) }
  | .ok () => { call with phase := .returned (.ok read), after := information }

end ReadCall

namespace StableFileSource

def count (source : StableFileSource) : StableFileSource :=
  { source with readCalls := source.readCalls + 1 }

def fail (source : StableFileSource) (code : HResult) : StableFileSource :=
  { source with state := .failed code }

def afterOpen (source : StableFileSource) : Except HResult StableFileContext → StableFileSource
  | .ok context => { source with state := .active context }
  | .error error => source.fail error

def countRead (source : StableFileSource) : Except HResult (List UInt8) → StableFileSource
  | .ok read => { source with bytesRead := source.bytesRead + read.length }
  | .error _ => source

end StableFileSource

inductive CallStep (disk : Disk) (now : Nat) (unlocked : Prop) :
    StableFileSource × ReadCall → StableFileSource × ReadCall → Prop
  | empty {source : StableFileSource} (offset : UInt64) :
      CallStep disk now unlocked (source, .idle)
        (source, ⟨offset, 0, .returned (.ok []), none, none⟩)
  | begin {source : StableFileSource} (offset : UInt64) {length : Nat} (hlength : length ≠ 0) :
      CallStep disk now unlocked (source, .idle)
        (source.count, ⟨offset, length, .begun, none, none⟩)
  | enter {source : StableFileSource} {call : ReadCall} (hphase : call.phase = .begun)
      (hunlocked : unlocked) :
      CallStep disk now unlocked (source, call) (source, call.enter source.state)
  | revoked {source : StableFileSource} {call : ReadCall} (hphase : call.phase = .locked)
      (hrevoked : source.revoked = true) :
      CallStep disk now unlocked (source, call) (source.fail offerUnavailableError,
        { call with phase := .returned (.error offerUnavailableError) })
  | unrevoked {source : StableFileSource} {call : ReadCall} (hphase : call.phase = .locked)
      (hrevoked : source.revoked = false) :
      CallStep disk now unlocked (source, call) (source, { call with phase := .unrevoked })
  | expired {source : StableFileSource} {call : ReadCall} (hphase : call.phase = .unrevoked)
      (hexpired : source.expiresAt ≤ now) :
      CallStep disk now unlocked (source, call) (source.fail offerUnavailableError,
        { call with phase := .returned (.error offerUnavailableError) })
  | inTime {source : StableFileSource} {call : ReadCall} (hphase : call.phase = .unrevoked)
      (hexpired : now < source.expiresAt) :
      CallStep disk now unlocked (source, call) (source, { call with phase := .opening })
  | opened {source : StableFileSource} {call : ReadCall} (hphase : call.phase = .opening) :
      CallStep disk now unlocked (source, call)
        (source.afterOpen (StableFileContext.openSnapshot disk source.snapshot),
          call.afterOpen (StableFileContext.openSnapshot disk source.snapshot))
  | verify {source : StableFileSource} {call : ReadCall} {context : StableFileContext}
      (hphase : call.phase = .verifying context) :
      CallStep disk now unlocked (source, call) (source,
        call.afterVerify source.snapshot.size
          (disk.answers .reading context.file).information.toOption context
          (context.verify disk .reading))
  | read {source : StableFileSource} {call : ReadCall} {context : StableFileContext}
      (hphase : call.phase = .reading context) :
      CallStep disk now unlocked (source, call)
        (source.countRead ((disk.answers .reading context.file).seekRead call.offset.toNat
          (source.wanted call.offset call.length)),
        call.afterRead source context ((disk.answers .reading context.file).seekRead
          call.offset.toNat (source.wanted call.offset call.length)))
  | finish {source : StableFileSource} {call : ReadCall} {context : StableFileContext}
      {read : List UInt8} (hphase : call.phase = .ending context read) :
      CallStep disk now unlocked (source, call) (source,
        call.afterEnd (disk.answers .ending context.file).information.toOption read
          (context.verify disk .ending))

def CallRun (disk : Disk) (now : Nat) :
    StableFileSource × ReadCall → StableFileSource × ReadCall → Prop :=
  Relation.ReflTransGen (CallStep disk now True)

section Alone

variable {disk : Disk} {now : Nat} {source : StableFileSource} {call : ReadCall}
  {context : StableFileContext}

theorem ending_run {read : List UInt8} (hphase : call.phase = .ending context read) :
    ∃ done, CallRun disk now (source, call) (source, done) ∧
      done.phase = .returned (do
        context.verify disk .ending
        .ok read) := by
  refine ⟨_, .single (.finish hphase), ?_⟩
  cases context.verify disk .ending <;> rfl

theorem reading_run (hphase : call.phase = .reading context)
    (hverified : context.verify disk .reading = .ok ())
    (hinside : ¬source.snapshot.size ≤ call.offset) :
    ∃ done, CallRun disk now (source, call)
        ((source.readContext disk call.offset call.length context).1, done) ∧
      done.phase = .returned (source.readContext disk call.offset call.length context).2 := by
  have hread := @CallStep.read disk now True source call context hphase
  rw [StableFileSource.readContext, hverified]
  simp only [if_neg hinside]
  cases hbytes : (disk.answers .reading context.file).seekRead call.offset.toNat
      (source.wanted call.offset call.length) with
  | error error =>
    rw [hbytes] at hread
    exact ⟨_, .single hread, rfl⟩
  | ok read =>
    rw [hbytes] at hread
    simp only [ReadCall.afterRead] at hread
    by_cases hwhole : read.length = source.wanted call.offset call.length
    · by_cases hend : source.snapshot.size.toNat ≤ call.offset.toNat + read.length
      · simp only [if_neg (not_not.mpr hwhole), if_pos hend] at hread ⊢
        obtain ⟨done, hrun, hdone⟩ := @ending_run disk now
          { source with bytesRead := source.bytesRead + read.length }
          { call with phase := .ending context read } context read rfl
        exact ⟨done, .head hread hrun, hdone⟩
      · simp only [if_neg (not_not.mpr hwhole), if_neg hend] at hread ⊢
        exact ⟨_, .single hread, rfl⟩
    · simp only [if_pos hwhole] at hread ⊢
      exact ⟨_, .single hread, rfl⟩

theorem verifying_run (hphase : call.phase = .verifying context) :
    ∃ done, CallRun disk now (source, call)
        ((source.readContext disk call.offset call.length context).1, done) ∧
      done.phase = .returned (source.readContext disk call.offset call.length context).2 := by
  have hverify := @CallStep.verify disk now True source call context hphase
  cases hchecked : context.verify disk .reading with
  | error error =>
    rw [hchecked] at hverify
    rw [StableFileSource.readContext, hchecked]
    exact ⟨_, .single hverify, rfl⟩
  | ok =>
    rw [hchecked] at hverify
    simp only [ReadCall.afterVerify] at hverify
    by_cases hend : source.snapshot.size ≤ call.offset
    · rw [StableFileSource.readContext, hchecked]
      simp only [if_pos hend] at hverify ⊢
      exact ⟨_, .single hverify, rfl⟩
    · rw [if_neg hend] at hverify
      obtain ⟨done, hrun, hdone⟩ := @reading_run disk now source
        ⟨call.offset, call.length, .reading context, _, call.after⟩ context rfl hchecked hend
      exact ⟨done, .head hverify hrun, hdone⟩

theorem context_open (h : source.state = .unstarted) (hfree : source.revoked = false)
    (hearly : now < source.expiresAt) :
    source.context disk now =
      (source.afterOpen (StableFileContext.openSnapshot disk source.snapshot),
        StableFileContext.openSnapshot disk source.snapshot) := by
  rw [StableFileSource.context, h]
  simp only
  rw [if_neg (by simp [hfree, Nat.not_le.mpr hearly])]
  cases StableFileContext.openSnapshot disk source.snapshot <;> rfl

theorem locked_run (hphase : call.phase = .locked) (hstate : source.state = .unstarted) :
    CallRun disk now (source, call)
      ((source.context disk now).1, call.afterOpen (source.context disk now).2) := by
  cases hrevoked : source.revoked with
  | true =>
    rw [StableFileSource.context_unavailable hstate (.inl hrevoked)]
    exact .single (.revoked hphase hrevoked)
  | false =>
    have hunrevoked := @CallStep.unrevoked disk now True source call hphase hrevoked
    by_cases hexpired : source.expiresAt ≤ now
    · rw [StableFileSource.context_unavailable hstate (.inr hexpired)]
      exact .head hunrevoked (.single (.expired rfl hexpired))
    · have hearly := Nat.lt_of_not_le hexpired
      rw [context_open hstate hrevoked hearly]
      exact .head hunrevoked (.head (.inTime rfl hearly) (.single (.opened rfl)))

theorem begun_run (hphase : call.phase = .begun) :
    CallRun disk now (source, call)
      ((source.context disk now).1, call.afterOpen (source.context disk now).2) := by
  have henter := @CallStep.enter disk now True source call hphase trivial
  cases hstate : source.state with
  | active context =>
    rw [hstate] at henter
    rw [StableFileSource.context_active hstate]
    exact .single henter
  | failed code =>
    rw [hstate] at henter
    rw [StableFileSource.context_failed hstate]
    exact .single henter
  | unstarted =>
    rw [hstate] at henter
    exact .head henter (locked_run rfl hstate)

theorem readAt_run (disk : Disk) (now : Nat) (source : StableFileSource) (offset : UInt64)
    (length : Nat) :
    ∃ done, CallRun disk now (source, .idle) ((source.readAt disk now offset length).1, done) ∧
      done.phase = .returned (source.readAt disk now offset length).2 := by
  by_cases hlength : length = 0
  · subst hlength
    exact ⟨_, .single (.empty offset), rfl⟩
  · have hbegin := @CallStep.begin disk now True source offset length hlength
    have hbegun := @begun_run disk now source.count ⟨offset, length, .begun, none, none⟩ rfl
    cases hcontext : source.count.context disk now with
    | mk started result =>
      rw [hcontext] at hbegun
      cases result with
      | error error =>
        rw [StableFileSource.readAt_error hlength hcontext]
        exact ⟨_, .head hbegin hbegun, rfl⟩
      | ok context =>
        rw [StableFileSource.readAt_ok hlength hcontext]
        obtain ⟨done, hrun, hdone⟩ := @verifying_run disk now started
          ⟨offset, length, .verifying context, none, none⟩ context rfl
        exact ⟨done, .head hbegin (hbegun.trans hrun), hdone⟩

end Alone

structure SourceLife where
  source : StableFileSource
  calls : Nat → ReadCall
  disk : Disk
  now : Nat

inductive SourceLabel where
  | call (k : Nat)
  | change
  | revoke
  | elapse

def SourceLabel.isGate : SourceLabel → Bool
  | revoke | elapse => true
  | call _ | change => false

namespace SourceLife

def start (source : StableFileSource) (disk : Disk) (now : Nat) : SourceLife :=
  ⟨source, fun _ => .idle, disk, now⟩

def Unlocked (life : SourceLife) : Prop := ∀ k, (life.calls k).phase.holdsLock = false

end SourceLife

inductive SourceStep : SourceLife → SourceLabel → SourceLife → Prop
  | call {life : SourceLife} {k : Nat} {source : StableFileSource} {call : ReadCall}
      (h : CallStep life.disk life.now life.Unlocked (life.source, life.calls k) (source, call)) :
      SourceStep life (.call k)
        { life with source := source, calls := Function.update life.calls k call }
  | change {life : SourceLife} (disk : Disk) : SourceStep life .change { life with disk := disk }
  | revoke {life : SourceLife} :
      SourceStep life .revoke { life with source := life.source.revoke }
  | elapse {life : SourceLife} (duration : Nat) :
      SourceStep life .elapse { life with now := life.now + duration }

theorem CallStep.mono {disk : Disk} {now : Nat} {unlocked unlocked' : Prop}
    {source source' : StableFileSource} {call call' : ReadCall}
    (h : CallStep disk now unlocked (source, call) (source', call'))
    (himp : call.phase.holdsLock = false → unlocked → unlocked') :
    CallStep disk now unlocked' (source, call) (source', call') := by
  cases h with
  | empty offset => exact .empty offset
  | begin offset hlength => exact .begin offset hlength
  | enter hphase hunlocked => exact .enter hphase (himp (by rw [hphase]; rfl) hunlocked)
  | revoked hphase hrevoked => exact .revoked hphase hrevoked
  | unrevoked hphase hrevoked => exact .unrevoked hphase hrevoked
  | expired hphase hexpired => exact .expired hphase hexpired
  | inTime hphase hexpired => exact .inTime hphase hexpired
  | opened hphase => exact .opened hphase
  | verify hphase => exact .verify hphase
  | read hphase => exact .read hphase
  | finish hphase => exact .finish hphase

theorem alone_run {disk : Disk} {now k : Nat} {calls : Nat → ReadCall}
    {before after : StableFileSource × ReadCall} (h : CallRun disk now before after)
    (hothers : ∀ j, j ≠ k → (calls j).phase.holdsLock = false) :
    ∃ labels, Run SourceStep ⟨before.1, Function.update calls k before.2, disk, now⟩ labels
      ⟨after.1, Function.update calls k after.2, disk, now⟩ := by
  induction h with
  | refl => exact ⟨[], .nil⟩
  | @tail middle after _ last ih =>
    obtain ⟨labels, hrun⟩ := ih
    have hlast : CallStep disk now (SourceLife.Unlocked
        ⟨middle.1, Function.update calls k middle.2, disk, now⟩)
        (middle.1, Function.update calls k middle.2 k) after := by
      rw [Function.update_self]
      refine last.mono fun hlock _ j => ?_
      by_cases hj : j = k
      · rw [hj]
        simp only [Function.update_self]
        exact hlock
      · simp only [Function.update_of_ne hj]
        exact hothers j hj
    have hstep := @SourceStep.call ⟨middle.1, Function.update calls k middle.2, disk, now⟩ k
      after.1 after.2 hlast
    simp only [Function.update_idem] at hstep
    exact ⟨labels ++ [.call k], hrun.snoc hstep⟩

theorem readAt_simulated (life : SourceLife) (hunlocked : life.Unlocked) {k : Nat}
    (hidle : life.calls k = .idle) (offset : UInt64) (length : Nat) :
    ∃ labels life', Run SourceStep life labels life' ∧
      life'.source = (life.source.readAt life.disk life.now offset length).1 ∧
      (life'.calls k).phase =
        .returned (life.source.readAt life.disk life.now offset length).2 := by
  obtain ⟨done, hcall, hdone⟩ := readAt_run life.disk life.now life.source offset length
  obtain ⟨labels, hrun⟩ := alone_run hcall fun j _ => hunlocked j
  rw [← hidle, Function.update_eq_self] at hrun
  refine ⟨labels, _, hrun, rfl, ?_⟩
  simp only [Function.update_self]
  exact hdone

/-! The registry. `revoking` lists the sources of a replaced offer that its replacement has still
to revoke. -/

structure OfferWorld extends LocalWorld where
  calls : Nat → Nat → ReadCall
  disk : Disk
  revoking : List Nat

inductive OfferLabel where
  | publishTree (guid : Except HResult (List.Vector UInt8 16)) (tree : FileTreeSnapshot) (ttl : Nat)
  | revokeCurrent
  | revokeNext
  | call (s k : Nat)
  | change
  | elapse

namespace OfferWorld

def start (disk : Disk) : OfferWorld := ⟨.empty, fun _ _ => .idle, disk, []⟩

def currentSources (world : OfferWorld) : List Nat :=
  (world.registry.current.map (·.sources)).getD []

def life (world : OfferWorld) (s : Nat) (source : StableFileSource) : SourceLife :=
  ⟨source, world.calls s, world.disk, world.now⟩

end OfferWorld

inductive OfferStep : OfferWorld → OfferLabel → OfferWorld → Prop
  | publishTree {world : OfferWorld} {created : LocalWorld} {offer : LocalFileOffer}
      {guid : Except HResult (List.Vector UInt8 16)} {tree : FileTreeSnapshot} {ttl : Nat}
      (hidle : world.revoking = [])
      (hcreate : world.createTree guid tree ttl = .ok (offer, created)) :
      OfferStep world (.publishTree guid tree ttl) { world with
        sources := created.sources
        registry := ⟨some offer⟩
        revoking := world.currentSources }
  | refuse {world : OfferWorld} {guid : Except HResult (List.Vector UInt8 16)}
      {tree : FileTreeSnapshot} {ttl : Nat} {error : HResult} (hidle : world.revoking = [])
      (hcreate : world.createTree guid tree ttl = .error error) :
      OfferStep world (.publishTree guid tree ttl) world
  | revokeCurrent {world : OfferWorld} (hidle : world.revoking = []) :
      OfferStep world .revokeCurrent { world with
        registry := ⟨none⟩
        revoking := world.currentSources }
  | revokeNext {world : OfferWorld} {s : Nat} {rest : List Nat}
      (hrevoking : world.revoking = s :: rest) :
      OfferStep world .revokeNext { world with
        sources := world.sources.modify s (·.revoke)
        revoking := rest }
  | call {world : OfferWorld} {s k : Nat} {source source' : StableFileSource} {call : ReadCall}
      (hsource : world.sources[s]? = some source)
      (h : CallStep world.disk world.now (world.life s source).Unlocked
        (source, world.calls s k) (source', call)) :
      OfferStep world (.call s k) { world with
        sources := world.sources.set s source'
        calls := Function.update world.calls s (Function.update (world.calls s) k call) }
  | change {world : OfferWorld} (disk : Disk) :
      OfferStep world .change { world with disk := disk }
  | elapse {world : OfferWorld} (duration : Nat) :
      OfferStep world .elapse { world with now := world.now + duration }

end ClipFerry.Local
