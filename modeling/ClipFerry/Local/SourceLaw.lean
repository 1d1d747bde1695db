import ClipFerry.Local.ReadCall

namespace ClipFerry.Local

open VirtualTree Transition Checked

variable {source source' : StableFileSource} {call call' : ReadCall} {disk : Disk} {now : Nat}
  {unlocked : Prop} {life life' : SourceLife} {label : SourceLabel} {labels : List SourceLabel}

structure StableFileSource.Keeps (source source' : StableFileSource) : Prop where
  snapshot : source'.snapshot = source.snapshot
  expiresAt : source'.expiresAt = source.expiresAt
  revoked : source.revoked = true → source'.revoked = true
  decided : source.state = .unstarted ∨ source'.state = source.state

namespace StableFileSource.Keeps

theorem refl (source : StableFileSource) : source.Keeps source :=
  ⟨rfl, rfl, id, .inr rfl⟩

theorem trans {source'' : StableFileSource} (h : source.Keeps source')
    (h' : source'.Keeps source'') : source.Keeps source'' where
  snapshot := h'.snapshot.trans h.snapshot
  expiresAt := h'.expiresAt.trans h.expiresAt
  revoked hrevoked := h'.revoked (h.revoked hrevoked)
  decided := by
    rcases h.decided with hunstarted | hstate
    · exact .inl hunstarted
    · rw [← hstate]
      exact h'.decided

theorem revoke (source : StableFileSource) : source.Keeps source.revoke :=
  ⟨rfl, rfl, fun _ => rfl, .inr rfl⟩

theorem decide (h : source.state = .unstarted) (state : StableFileState) :
    source.Keeps { source with state := state } :=
  ⟨rfl, rfl, id, .inl h⟩

theorem countRead (source : StableFileSource) (result : Except HResult (List UInt8)) :
    source.Keeps (source.countRead result) := by
  cases result <;> exact ⟨rfl, rfl, id, .inr rfl⟩

theorem active {context : StableFileContext} (h : source.Keeps source')
    (hactive : source.state = .active context) : source'.state = .active context := by
  rcases h.decided with hunstarted | hstate
  · rw [hactive] at hunstarted
    cases hunstarted
  · exact hstate.trans hactive

theorem failed {code : HResult} (h : source.Keeps source')
    (hfailed : source.state = .failed code) : source'.state = .failed code := by
  rcases h.decided with hunstarted | hstate
  · rw [hfailed] at hunstarted
    cases hunstarted
  · exact hstate.trans hfailed

end StableFileSource.Keeps

def FileSnapshot.Seen (snapshot : FileSnapshot) (answer : Option FileInformation) : Prop :=
  ∃ information, answer = some information ∧ snapshot.matchesInformation information = true

structure FullRead (snapshot : FileSnapshot) (offset : UInt64) (length : Nat)
    (before after : Option FileInformation) (bytes : List UInt8) : Prop where
  length : bytes.length =
    min length (snapshot.size.toNat - min offset.toNat snapshot.size.toNat)
  before : snapshot.Seen before
  after : offset < snapshot.size → snapshot.size.toNat ≤ offset.toNat + bytes.length →
    snapshot.Seen after

def ReadCall.Answers (state : StableFileState) (snapshot : FileSnapshot) (call : ReadCall)
    (result : Except HResult (List UInt8)) : Prop :=
  match state with
  | .unstarted => False
  | .failed code => result = .error code
  | .active _ => ∀ bytes, result = .ok bytes →
    FullRead snapshot call.offset call.length call.before call.after bytes

def ReadCall.Kept (state : StableFileState) (snapshot : FileSnapshot) (call : ReadCall) : Prop :=
  match call.phase with
  | .idle => True
  | .begun => call.length ≠ 0
  | .locked | .unrevoked | .opening => call.length ≠ 0 ∧ state = .unstarted
  | .verifying context => call.length ≠ 0 ∧ state = .active context
  | .reading context => call.length ≠ 0 ∧ state = .active context ∧
      call.offset < snapshot.size ∧ snapshot.Seen call.before
  | .ending context read => call.length ≠ 0 ∧ state = .active context ∧
      read.length = min call.length (snapshot.size.toNat - call.offset.toNat) ∧
      call.offset < snapshot.size ∧ snapshot.Seen call.before
  | .returned result => (call.length = 0 ∧ result = .ok []) ∨
      (call.length ≠ 0 ∧ call.Answers state snapshot result)

theorem seen_of_verify {moment : Moment} {context : StableFileContext}
    (h : context.verify disk moment = .ok ()) :
    context.snapshot.Seen (disk.answers moment context.file).information.toOption := by
  obtain ⟨information, hanswer, h⟩ := bind_eq_ok.mp h
  rw [hanswer]
  refine ⟨information, rfl, ?_⟩
  split at h
  · assumption
  · cases h

namespace ReadCall.Kept

variable {snapshot : FileSnapshot} {state state' : StableFileState}

theorem frame (h : call.Kept state snapshot)
    (hdecided : state = .unstarted ∧ call.phase.holdsLock = false ∨ state' = state) :
    call.Kept state' snapshot := by
  rcases hdecided with ⟨rfl, hlock⟩ | rfl
  · unfold ReadCall.Kept at h ⊢
    cases hphase : call.phase with
    | idle => trivial
    | begun =>
      rw [hphase] at h
      exact h
    | locked | unrevoked | opening =>
      rw [hphase] at hlock
      cases hlock
    | verifying =>
      rw [hphase] at h
      cases h.2
    | reading | ending =>
      rw [hphase] at h
      cases h.2.1
    | returned result =>
      rw [hphase] at h
      rcases h with hempty | ⟨-, hanswers⟩
      · exact .inl hempty
      · exact hanswers.elim
  · exact h

theorem of_phase {phase : ReadPhase} (h : call.Kept state snapshot) (hphase : call.phase = phase) :
    ReadCall.Kept state snapshot { call with phase := phase } := by
  cases call
  cases hphase
  exact h

theorem enter (h : call.Kept state snapshot) (hphase : call.phase = .begun) :
    (call.enter state).Kept state snapshot := by
  have hlength : call.length ≠ 0 := h.of_phase hphase
  cases state with
  | unstarted => exact ⟨hlength, rfl⟩
  | active context => exact ⟨hlength, rfl⟩
  | failed code => exact .inr ⟨hlength, rfl⟩

theorem length_ne_zero (h : call.Kept state snapshot) (hlock : call.phase.holdsLock = true) :
    call.length ≠ 0 := by
  have hcall := h.of_phase rfl
  cases hphase : call.phase with
  | locked | unrevoked | opening =>
    rw [hphase] at hcall
    exact hcall.1
  | idle | begun | verifying | reading | ending | returned =>
    rw [hphase] at hlock
    cases hlock

end ReadCall.Kept

theorem wanted_eq (source : StableFileSource) (offset : UInt64) (length : Nat) :
    source.wanted offset length =
      min length (source.snapshot.size.toNat - min offset.toNat source.snapshot.size.toNat) := by
  rw [StableFileSource.wanted]
  omega

theorem active_error {context : StableFileContext} {snapshot : FileSnapshot} (error : HResult) :
    call.Answers (.active context) snapshot (.error error) := nofun

theorem kept_afterVerify {context : StableFileContext} {answer : Option FileInformation}
    {result : Except HResult Unit} (hlength : call.length ≠ 0)
    (hactive : source.state = .active context)
    (hseen : result = .ok () → source.snapshot.Seen answer) :
    (call.afterVerify source.snapshot.size answer context result).Kept source.state
      source.snapshot := by
  rw [hactive]
  cases result with
  | error error => exact .inr ⟨hlength, active_error error⟩
  | ok =>
    simp only [ReadCall.afterVerify]
    split
    · rename_i hend
      rw [UInt64.le_iff_toNat_le] at hend
      refine .inr ⟨hlength, fun bytes hbytes => ?_⟩
      cases hbytes
      refine ⟨?_, hseen rfl, fun hinside => ?_⟩
      · simp only [List.length_nil]
        omega
      · exact absurd (UInt64.lt_iff_toNat_lt.mp hinside) (Nat.not_lt.mpr hend)
    · rename_i hinside
      exact ⟨hlength, rfl, UInt64.not_le.mp hinside, hseen rfl⟩

theorem kept_afterRead {context : StableFileContext}
    {result : Except HResult (List UInt8)} (hlength : call.length ≠ 0)
    (hactive : source.state = .active context) (hinside : call.offset < source.snapshot.size)
    (hseen : source.snapshot.Seen call.before) :
    (call.afterRead source context result).Kept (source.countRead result).state
      (source.countRead result).snapshot := by
  have hkept := StableFileSource.Keeps.countRead source result
  rw [hkept.active hactive, hkept.snapshot]
  cases result with
  | error error => exact .inr ⟨hlength, active_error error⟩
  | ok read =>
    simp only [ReadCall.afterRead]
    split
    · exact .inr ⟨hlength, active_error _⟩
    · rename_i hwanted
      have hread : read.length = source.wanted call.offset call.length := not_not.mp hwanted
      split
      · exact ⟨hlength, rfl, hread, hinside, hseen⟩
      · rename_i hshort
        refine .inr ⟨hlength, fun bytes hbytes => ?_⟩
        cases hbytes
        exact ⟨hread.trans (wanted_eq source _ _), hseen, fun _ hall => absurd hall hshort⟩

theorem kept_afterEnd {context : StableFileContext} {read : List UInt8}
    {answer : Option FileInformation} {result : Except HResult Unit} (hlength : call.length ≠ 0)
    (hactive : source.state = .active context)
    (hread : read.length = source.wanted call.offset call.length)
    (hbefore : source.snapshot.Seen call.before)
    (hseen : result = .ok () → source.snapshot.Seen answer) :
    (call.afterEnd answer read result).Kept source.state source.snapshot := by
  rw [hactive]
  cases result with
  | error error => exact .inr ⟨hlength, active_error error⟩
  | ok =>
    refine .inr ⟨hlength, fun bytes hbytes => ?_⟩
    cases hbytes
    exact ⟨hread.trans (wanted_eq source _ _), hbefore, fun _ _ => hseen rfl⟩

theorem CallStep.keeps (h : CallStep disk now unlocked (source, call) (source', call'))
    (hkept : call.Kept source.state source.snapshot) : source.Keeps source' := by
  have hunstarted : ∀ {phase : ReadPhase}, call.phase = phase → phase.holdsLock = true →
      source.state = .unstarted := by
    intro phase hphase hlock
    have hcall := hkept.of_phase hphase
    cases phase with
    | locked | unrevoked | opening => exact hcall.2
    | idle | begun | verifying | reading | ending | returned => cases hlock
  cases h with
  | empty | enter | unrevoked | inTime | verify | finish => exact .refl source
  | begin => exact ⟨rfl, rfl, id, .inr rfl⟩
  | revoked hphase | expired hphase => exact .decide (hunstarted hphase rfl) _
  | opened hphase =>
    cases StableFileContext.openSnapshot disk source.snapshot <;>
      exact .decide (hunstarted hphase rfl) _
  | read => exact .countRead source _

theorem CallStep.kept (h : CallStep disk now unlocked (source, call) (source', call'))
    (hkept : call.Kept source.state source.snapshot)
    (hopened : ∀ context, source.state = .active context → context.snapshot = source.snapshot) :
    call'.Kept source'.state source'.snapshot := by
  have hseen : ∀ {moment context}, source.state = .active context →
      context.verify disk moment = .ok () →
      source.snapshot.Seen (disk.answers moment context.file).information.toOption := by
    intro moment context hactive hverify
    rw [← hopened context hactive]
    exact seen_of_verify hverify
  cases h with
  | empty => exact .inl ⟨rfl, rfl⟩
  | begin offset hlength => exact hlength
  | enter hphase => exact hkept.enter hphase
  | revoked hphase => exact .inr ⟨(hkept.of_phase hphase).1, rfl⟩
  | unrevoked hphase =>
    have hlocked := hkept.of_phase hphase
    exact hlocked
  | expired hphase => exact .inr ⟨(hkept.of_phase hphase).1, rfl⟩
  | inTime hphase =>
    have hlocked := hkept.of_phase hphase
    exact hlocked
  | opened hphase =>
    obtain ⟨hlength, -⟩ := hkept.of_phase hphase
    cases StableFileContext.openSnapshot disk source.snapshot with
    | error error => exact .inr ⟨hlength, rfl⟩
    | ok context => exact ⟨hlength, rfl⟩
  | verify hphase =>
    obtain ⟨hlength, hactive⟩ := hkept.of_phase hphase
    exact kept_afterVerify hlength hactive (hseen hactive)
  | read hphase =>
    obtain ⟨hlength, hactive, hinside, hbefore⟩ := hkept.of_phase hphase
    exact kept_afterRead hlength hactive hinside hbefore
  | finish hphase =>
    obtain ⟨hlength, hactive, hread, -, hbefore⟩ := hkept.of_phase hphase
    exact kept_afterEnd hlength hactive hread hbefore (hseen hactive)

theorem CallStep.active_cases {context : StableFileContext}
    (h : CallStep disk now unlocked (source, call) (source', call'))
    (hactive : source'.state = .active context) :
    source.state = .active context ∨
      (call.phase = .opening ∧ context.snapshot = source.snapshot) := by
  cases h with
  | empty | begin | enter | unrevoked | inTime | verify | finish => exact .inl hactive
  | revoked | expired => cases hactive
  | opened hphase =>
    cases hopen : StableFileContext.openSnapshot disk source.snapshot with
    | error error =>
      rw [hopen] at hactive
      cases hactive
    | ok opened =>
      rw [hopen] at hactive
      cases hactive
      exact .inr ⟨hphase, (StableFileContext.openSnapshot_openOf hopen).snapshot⟩
  | @read _ _ context' hphase =>
    refine .inl ?_
    cases hread : (disk.answers .reading context'.file).seekRead call.offset.toNat
        (source.wanted call.offset call.length) <;>
      rw [hread] at hactive <;> exact hactive

theorem CallStep.decides (h : CallStep disk now unlocked (source, call) (source', call')) :
    call.phase.holdsLock = true ∨ source'.state = source.state := by
  cases h with
  | empty | begin | enter | unrevoked | inTime | verify | finish => exact .inr rfl
  | revoked hphase | expired hphase | opened hphase =>
    rw [hphase]
    exact .inl rfl
  | read => exact .inr (by cases (disk.answers .reading _).seekRead _ _ <;> rfl)

theorem CallStep.length (h : CallStep disk now unlocked (source, call) (source', call'))
    (hlength : call.length ≠ 0) : call'.length = call.length := by
  cases h with
  | empty | begin => exact absurd rfl hlength
  | revoked | unrevoked | expired | inTime => rfl
  | enter => cases hstate : source.state <;> rfl
  | opened => cases StableFileContext.openSnapshot disk source.snapshot <;> rfl
  | @verify _ _ context => cases context.verify disk .reading <;> rfl
  | read => cases (disk.answers .reading _).seekRead _ _ <;> rfl
  | @finish _ _ context => cases context.verify disk .ending <;> rfl

namespace ReadCall

theorem afterOpen_unlocked (call : ReadCall) (result : Except HResult StableFileContext) :
    (call.afterOpen result).phase.holdsLock = false := by
  cases result <;> rfl

theorem afterVerify_unlocked (call : ReadCall) (size : UInt64) (answer : Option FileInformation)
    (context : StableFileContext) (result : Except HResult Unit) :
    (call.afterVerify size answer context result).phase.holdsLock = false := by
  cases result with
  | error error => rfl
  | ok =>
    simp only [afterVerify]
    split <;> rfl

theorem afterRead_unlocked (call : ReadCall) (source : StableFileSource)
    (context : StableFileContext) (result : Except HResult (List UInt8)) :
    (call.afterRead source context result).phase.holdsLock = false := by
  cases result with
  | error error => rfl
  | ok read =>
    simp only [afterRead]
    split
    · rfl
    · split <;> rfl

theorem afterEnd_unlocked (call : ReadCall) (answer : Option FileInformation)
    (read : List UInt8) (result : Except HResult Unit) :
    (call.afterEnd answer read result).phase.holdsLock = false := by
  cases result <;> rfl

end ReadCall

theorem CallStep.lock_cases (h : CallStep disk now unlocked (source, call) (source', call'))
    (hlock : call'.phase.holdsLock = true) :
    (call'.phase = .locked ∧ unlocked) ∨
      (call'.phase = .unrevoked ∧ call.phase = .locked ∧ source.revoked = false) ∨
      (call'.phase = .opening ∧ call.phase = .unrevoked ∧ now < source.expiresAt) := by
  cases h with
  | empty | begin | revoked | expired => cases hlock
  | enter _ hunlocked =>
    cases hstate : source.state with
    | unstarted => exact .inl ⟨rfl, hunlocked⟩
    | active | failed =>
      rw [hstate] at hlock
      cases hlock
  | unrevoked hphase hrevoked => exact .inr (.inl ⟨rfl, hphase, hrevoked⟩)
  | inTime hphase hexpired => exact .inr (.inr ⟨rfl, hphase, hexpired⟩)
  | opened =>
    rw [call.afterOpen_unlocked] at hlock
    cases hlock
  | verify =>
    rw [call.afterVerify_unlocked] at hlock
    cases hlock
  | read =>
    rw [call.afterRead_unlocked] at hlock
    cases hlock
  | finish =>
    rw [call.afterEnd_unlocked] at hlock
    cases hlock

theorem CallStep.lock (h : CallStep disk now unlocked (source, call) (source', call'))
    (hlock : call'.phase.holdsLock = true) : call.phase.holdsLock = true ∨ unlocked := by
  rcases h.lock_cases hlock with ⟨-, hunlocked⟩ | ⟨-, hphase, -⟩ | ⟨-, hphase, -⟩
  · exact .inr hunlocked
  · exact .inl (by rw [hphase]; rfl)
  · exact .inl (by rw [hphase]; rfl)

structure CallsKept (source : StableFileSource) (calls : Nat → ReadCall) : Prop where
  kept : ∀ k, (calls k).Kept source.state source.snapshot
  exclusive : ∀ j k, (calls j).phase.holdsLock = true →
    (calls k).phase.holdsLock = true → j = k
  opened : ∀ context, source.state = .active context → context.snapshot = source.snapshot
  started : (∀ k, (calls k).length = 0) → source.state = .unstarted

namespace CallsKept

theorem start (snapshot : FileSnapshot) (expiresAt : Nat) :
    CallsKept (.new snapshot expiresAt) fun _ => .idle where
  kept _ := trivial
  exclusive _ _ hlock := nomatch hlock
  opened _ hactive := nomatch hactive
  started _ := rfl

theorem step {calls : Nat → ReadCall} {k : Nat} (h : CallsKept source calls)
    (hstep : CallStep disk now (∀ j, (calls j).phase.holdsLock = false) (source, calls k)
      (source', call')) : CallsKept source' (Function.update calls k call') := by
  have hkeeps := hstep.keeps (h.kept k)
  have hupdate : ∀ {j}, j ≠ k → Function.update calls k call' j = calls j :=
    fun hj => Function.update_of_ne hj _ _
  have hlocked : ∀ {j}, j ≠ k → (calls j).phase.holdsLock = true →
      call'.phase.holdsLock = false := by
    intro j hj hlock
    cases hcall : call'.phase.holdsLock with
    | false => rfl
    | true =>
      rcases hstep.lock hcall with hk | hunlocked
      · exact absurd (h.exclusive j k hlock hk) hj
      · rw [hunlocked j] at hlock
        cases hlock
  refine ⟨fun j => ?_, fun i j hi hj => ?_, fun context hactive => ?_, fun hempty => ?_⟩
  · by_cases hj : j = k
    · rw [hj, Function.update_self]
      exact hstep.kept (h.kept k) h.opened
    · rw [hupdate hj]
      rw [hkeeps.snapshot]
      refine (h.kept j).frame ?_
      rcases hkeeps.decided with hunstarted | hstate
      · rcases hstep.decides with hlock | hstate
        · refine .inl ⟨hunstarted, Bool.eq_false_iff.mpr fun hother => ?_⟩
          exact hj (h.exclusive j k hother hlock)
        · exact .inr hstate
      · exact .inr hstate
  · refine exclusive_update (fun (call : ReadCall) (_ : Unit) => call.phase.holdsLock = true)
      (h.exclusive _ _) (fun {j} _ hmine hj => ?_) (x := ()) hi hj
    exact (hstep.lock hmine).elim (h.exclusive j k hj) fun hunlocked => by
      rw [hunlocked j] at hj
      cases hj
  · rw [hkeeps.snapshot]
    rcases hstep.active_cases hactive with hbefore | ⟨-, hsnapshot⟩
    · exact h.opened context hbefore
    · exact hsnapshot
  · have hbefore : ∀ j, (calls j).length = 0 := by
      intro j
      have hafter := hempty j
      by_cases hj : j = k
      · rw [hj, Function.update_self] at hafter
        rw [hj]
        by_contra hlength
        exact hlength ((hstep.length hlength).symm.trans hafter)
      · rw [hupdate hj] at hafter
        exact hafter
    rcases hstep.decides with hlock | hstate
    · exact absurd (hbefore k) ((h.kept k).length_ne_zero hlock)
    · exact hstate.trans (h.started hbefore)

end CallsKept

def SourceLife.Alive (life : SourceLife) : Prop := CallsKept life.source life.calls

theorem SourceLife.Alive.step (h : life.Alive) (hstep : SourceStep life label life') :
    life'.Alive := by
  cases hstep with
  | call hcall => exact CallsKept.step h hcall
  | change | elapse => exact h
  | revoke => exact ⟨h.kept, h.exclusive, h.opened, h.started⟩

theorem SourceStep.keeps (h : SourceStep life label life') (halive : life.Alive) :
    life.source.Keeps life'.source := by
  cases h with
  | call hcall => exact hcall.keeps (halive.kept _)
  | change | elapse => exact .refl _
  | revoke => exact .revoke _

theorem keeps_of_run (h : Run SourceStep life labels life') (halive : life.Alive) :
    life.source.Keeps life'.source := by
  induction h with
  | nil => exact .refl _
  | snoc run last ih =>
    exact ih.trans (last.keeps (run.invariant (I := SourceLife.Alive) SourceLife.Alive.step halive))

def SourceLife.withGate (life : SourceLife) (revoked : Bool) (now : Nat) : SourceLife :=
  { life with source := { life.source with revoked := revoked }, now := now }

theorem countRead_gate (source : StableFileSource) (revoked : Bool)
    (result : Except HResult (List UInt8)) :
    StableFileSource.countRead { source with revoked := revoked } result =
      { source.countRead result with revoked := revoked } := by
  cases result <;> rfl

theorem CallStep.ungated {context : StableFileContext}
    (h : CallStep disk now unlocked (source, call) (source', call'))
    (hkept : call.Kept source.state source.snapshot) (hactive : source.state = .active context)
    (revoked : Bool) (now' : Nat) :
    CallStep disk now' unlocked ({ source with revoked := revoked }, call)
      ({ source' with revoked := revoked }, call') := by
  have hgate : ∀ {phase : ReadPhase}, call.phase = phase → phase.holdsLock = false := by
    intro phase hphase
    have hcall := hkept.of_phase hphase
    cases phase with
    | locked | unrevoked | opening =>
      rw [hactive] at hcall
      cases hcall.2
    | idle | begun | verifying | reading | ending | returned => rfl
  cases h with
  | empty offset => exact .empty offset
  | begin offset hlength => exact .begin offset hlength
  | enter hphase hunlocked => exact .enter hphase hunlocked
  | revoked hphase | unrevoked hphase | expired hphase | inTime hphase | opened hphase =>
    cases hgate hphase
  | verify hphase => exact .verify hphase
  | read hphase =>
    rw [← countRead_gate]
    exact .read hphase
  | finish hphase => exact .finish hphase

theorem SourceStep.ungated {context : StableFileContext} (h : SourceStep life label life')
    (halive : life.Alive) (hactive : life.source.state = .active context) (revoked : Bool)
    (now : Nat) :
    if label.isGate then life'.withGate revoked now = life.withGate revoked now
    else SourceStep (life.withGate revoked now) label (life'.withGate revoked now) := by
  cases h with
  | call hcall => exact .call (hcall.ungated (halive.kept _) hactive revoked now)
  | change disk => exact .change disk
  | revoke | elapse => rfl

theorem ungated_run {context : StableFileContext} (h : Run SourceStep life labels life')
    (halive : life.Alive) (hactive : life.source.state = .active context) (revoked : Bool)
    (now : Nat) :
    Run SourceStep (life.withGate revoked now) (labels.filter fun label => !label.isGate)
      (life'.withGate revoked now) := by
  induction h with
  | nil => exact .nil
  | @snoc labels label middle last run step ih =>
    have hmiddle := run.invariant (I := SourceLife.Alive) SourceLife.Alive.step halive
    have hungated := step.ungated hmiddle ((keeps_of_run run halive).active hactive) revoked now
    rw [List.filter_append]
    cases hgate : label.isGate with
    | true =>
      rw [hgate, if_pos rfl] at hungated
      rw [hungated]
      simpa [hgate] using ih
    | false =>
      rw [hgate] at hungated
      simpa [hgate] using ih.snoc hungated

structure Barred (source : StableFileSource) (calls : Nat → ReadCall) (now : Nat) : Prop where
  gone : source.revoked = true ∨ source.expiresAt ≤ now
  inactive : ∀ context, source.state ≠ .active context
  unopened : ∀ k, (calls k).phase ≠ .opening
  late : ∀ k, (calls k).phase = .unrevoked → source.expiresAt ≤ now

theorem Barred.step {calls : Nat → ReadCall} {k : Nat} (h : Barred source calls now)
    (hstep : CallStep disk now unlocked (source, calls k) (source', call'))
    (hkeeps : source.Keeps source') : Barred source' (Function.update calls k call') now where
  gone := by
    rw [hkeeps.expiresAt]
    exact h.gone.imp hkeeps.revoked id
  inactive context hactive := by
    rcases hstep.active_cases hactive with hbefore | ⟨hopening, -⟩
    · exact h.inactive context hbefore
    · exact h.unopened k hopening
  unopened := by
    refine (Function.forall_update_iff calls fun _ call => call.phase ≠ .opening).mpr
      ⟨fun hopening => ?_, fun j _ => h.unopened j⟩
    rcases hstep.lock_cases (by rw [hopening]; rfl) with
      ⟨hlocked, -⟩ | ⟨hunrevoked, -⟩ | ⟨-, hunrevoked, hearly⟩
    · rw [hopening] at hlocked
      cases hlocked
    · rw [hopening] at hunrevoked
      cases hunrevoked
    · exact Nat.not_lt.mpr (h.late k hunrevoked) hearly
  late j hunrevoked := by
    rw [hkeeps.expiresAt]
    by_cases hj : j = k
    · rw [hj, Function.update_self] at hunrevoked
      rcases hstep.lock_cases (by rw [hunrevoked]; rfl) with
        ⟨hlocked, -⟩ | ⟨-, -, hfree⟩ | ⟨hopening, -⟩
      · rw [hunrevoked] at hlocked
        cases hlocked
      · rcases h.gone with hrevoked | hexpired
        · rw [hrevoked] at hfree
          cases hfree
        · exact hexpired
      · rw [hunrevoked] at hopening
        cases hopening
    · rw [Function.update_of_ne hj] at hunrevoked
      exact h.late j hunrevoked

theorem CallsKept.barred {calls : Nat → ReadCall} (h : CallsKept source calls)
    (hgone : source.revoked = true ∨ source.expiresAt ≤ now)
    (huntouched : ∀ k, (calls k).length = 0) : Barred source calls now where
  gone := hgone
  inactive context hactive := by
    rw [h.started huntouched] at hactive
    cases hactive
  unopened k hopening :=
    (h.kept k).length_ne_zero (by rw [hopening]; rfl) (huntouched k)
  late k hunrevoked :=
    absurd (huntouched k) ((h.kept k).length_ne_zero (by rw [hunrevoked]; rfl))

def SourceLife.Barred (life : SourceLife) : Prop :=
  Local.Barred life.source life.calls life.now

theorem SourceLife.Barred.step (h : life.Barred) (halive : life.Alive)
    (hstep : SourceStep life label life') : life'.Barred := by
  have hkeeps := hstep.keeps halive
  cases hstep with
  | call hcall => exact Local.Barred.step h hcall hkeeps
  | change => exact h
  | revoke => exact ⟨.inl rfl, h.inactive, h.unopened, h.late⟩
  | elapse duration =>
    refine ⟨h.gone.imp id fun hexpired => ?_, h.inactive, h.unopened, fun k hunrevoked => ?_⟩
    · exact Nat.le_trans hexpired (Nat.le_add_right _ _)
    · exact Nat.le_trans (h.late k hunrevoked) (Nat.le_add_right _ _)

theorem barred_run (h : Run SourceStep life labels life') (halive : life.Alive)
    (hbarred : life.Barred) : life'.Barred := by
  induction h with
  | nil => exact hbarred
  | snoc run last ih =>
    exact ih.step (run.invariant (I := SourceLife.Alive) SourceLife.Alive.step halive) last

theorem SourceLife.Barred.nothing_read (h : life.Barred) (halive : life.Alive) {k : Nat}
    {bytes : List UInt8} (hreturned : (life.calls k).phase = .returned (.ok bytes)) :
    bytes = [] := by
  have hkept := (halive.kept k).of_phase hreturned
  rcases hkept with ⟨-, hempty⟩ | ⟨-, hanswers⟩
  · cases hempty
    rfl
  · unfold ReadCall.Answers at hanswers
    cases hstate : life.source.state with
    | unstarted =>
      rw [hstate] at hanswers
      exact hanswers.elim
    | active context => exact absurd hstate (h.inactive context)
    | failed code =>
      rw [hstate] at hanswers
      cases hanswers

theorem SourceLife.Alive.answers (h : life.Alive) {k : Nat}
    {result : Except HResult (List UInt8)}
    (hreturned : (life.calls k).phase = .returned result) (hlength : (life.calls k).length ≠ 0) :
    (life.calls k).Answers life.source.state life.source.snapshot result := by
  have hkept := (h.kept k).of_phase hreturned
  rcases hkept with ⟨hempty, -⟩ | ⟨-, hanswers⟩
  · exact absurd hempty hlength
  · exact hanswers

theorem SourceLife.Alive.failed (h : life.Alive) {code : HResult} {k : Nat}
    {result : Except HResult (List UInt8)} (hfailed : life.source.state = .failed code)
    (hreturned : (life.calls k).phase = .returned result) (hlength : (life.calls k).length ≠ 0) :
    result = .error code := by
  have hanswers := h.answers hreturned hlength
  unfold ReadCall.Answers at hanswers
  rw [hfailed] at hanswers
  exact hanswers

theorem SourceLife.Alive.full (h : life.Alive) {k : Nat} {bytes : List UInt8}
    (hreturned : (life.calls k).phase = .returned (.ok bytes))
    (hlength : (life.calls k).length ≠ 0) :
    FullRead life.source.snapshot (life.calls k).offset (life.calls k).length
      (life.calls k).before (life.calls k).after bytes := by
  have hanswers := h.answers hreturned hlength
  unfold ReadCall.Answers at hanswers
  cases hstate : life.source.state with
  | unstarted =>
    rw [hstate] at hanswers
    exact hanswers.elim
  | failed code =>
    rw [hstate] at hanswers
    cases hanswers
  | active context =>
    rw [hstate] at hanswers
    exact hanswers bytes rfl

end ClipFerry.Local
