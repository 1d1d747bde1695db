import ClipFerry.Client.CommandRecovering

namespace ClipFerry.Client

open Protocol Transition

variable {policy : SecureRecoveryPolicy} {call : RecoveringCall} {w w' : RecoveryWorld}
  {metrics : SecureRecoveryMetrics} {label : RecoveryLabel} {labels : List RecoveryLabel}
  {result : CommandResult} {error : IoError}

structure RecoveryRecord where
  sent : List (Opcode × List UInt8)
  outcomes : List CommandResult
  sawInterrupted : Bool
  guarded : Bool
  failures : Nat
  recovered : Nat
  exhausted : Nat
  active : Nat

def RecoveryWorld.record (w : RecoveryWorld) : RecoveryRecord where
  sent := w.history.sent
  outcomes := w.history.outcomes
  sawInterrupted := w.history.sawInterrupted
  guarded := w.guarded
  failures := w.metrics.transientFailures
  recovered := w.metrics.recoveredCommands
  exhausted := w.metrics.exhaustedCommands
  active := w.metrics.activeRecoveries

inductive Ended (metrics : SecureRecoveryMetrics) (record : RecoveryRecord) : CommandResult → Prop
  | final {front : List CommandResult} {result : CommandResult}
      (houtcomes : record.outcomes = front ++ [result])
      (hfront : ∀ outcome ∈ front, isTransient outcome = true)
      (hlast : isTransient result = false) (hsaw : record.sawInterrupted = false)
      (hexhausted : record.exhausted = metrics.exhaustedCommands)
      (hrecovered : record.recovered = metrics.recoveredCommands ∨
        record.recovered = metrics.recoveredCommands + 1) : Ended metrics record result
  | cancelled (htransient : ∀ outcome ∈ record.outcomes, isTransient outcome = true)
      (hsaw : record.sawInterrupted = true)
      (hexhausted : record.exhausted = metrics.exhaustedCommands)
      (hrecovered : record.recovered = metrics.recoveredCommands) :
      Ended metrics record (.error recoveryCancelled)
  | exhausted {attempts : Nat} {error : IoError}
      (htransient : ∀ outcome ∈ record.outcomes, isTransient outcome = true)
      (hsaw : record.sawInterrupted = false)
      (hexhausted : record.exhausted = metrics.exhaustedCommands + 1)
      (hrecovered : record.recovered = metrics.recoveredCommands) :
      Ended metrics record (.error (recoveryExhausted attempts error))

structure Underway (metrics : SecureRecoveryMetrics) (record : RecoveryRecord) : Prop where
  transient : ∀ outcome ∈ record.outcomes, isTransient outcome = true
  saw : record.sawInterrupted = false
  exhausted : record.exhausted = metrics.exhaustedCommands
  recovered : record.recovered = metrics.recoveredCommands

structure RecoveryKept (metrics : SecureRecoveryMetrics) (call : RecoveringCall)
    (result : Option CommandResult) (record : RecoveryRecord) : Prop where
  sent : ∀ request ∈ record.sent, request = (call.opcode, call.payload)
  failures : record.failures =
    metrics.transientFailures + record.outcomes.countP isTransient
  active : record.active = metrics.activeRecoveries + record.guarded.toNat
  underway : result = none → Underway metrics record
  ended : ∀ r, result = some r → record.guarded = false ∧ Ended metrics record r

def RecoveryWorld.Kept (metrics : SecureRecoveryMetrics) (call : RecoveringCall)
    (w : RecoveryWorld) : Prop := RecoveryKept metrics call w.phase.result w.record

namespace RecoveryWorld.Kept

theorem start (call : RecoveringCall) (now : Nat) (interrupted suspended : Bool) :
    (RecoveryWorld.start now interrupted suspended metrics).Kept metrics call where
  sent := nofun
  failures := rfl
  active := rfl
  underway := fun _ => ⟨nofun, rfl, rfl, rfl⟩
  ended := nofun

theorem congr (h : w.Kept metrics call) (hresult : w'.phase.result = w.phase.result)
    (hrecord : w'.record = w.record) : w'.Kept metrics call := by
  rw [RecoveryWorld.Kept, hresult, hrecord]
  exact h

theorem beginAttempt (h : w.Kept metrics call) (hrunning : w.phase.result = none) :
    (w.beginAttempt call .attempt).Kept metrics call := by
  obtain ⟨htransient, hsaw, hexhausted, hrecovered⟩ := h.underway hrunning
  refine ⟨fun request hrequest => ?_, h.failures, h.active,
    fun _ => ⟨htransient, hsaw, hexhausted, hrecovered⟩, nofun⟩
  rcases List.mem_append.mp hrequest with hrequest | hrequest
  · exact h.sent request hrequest
  · exact List.mem_singleton.mp hrequest

theorem active_leave (h : w.Kept metrics call) :
    w.metrics.activeRecoveries - w.guarded.toNat = metrics.activeRecoveries := by
  have hactive : w.metrics.activeRecoveries = metrics.activeRecoveries + w.guarded.toNat := h.active
  omega

theorem cancel (h : w.Kept metrics call) (hrunning : w.phase.result = none) :
    w.cancel.Kept metrics call := by
  obtain ⟨htransient, -, hexhausted, hrecovered⟩ := h.underway hrunning
  refine ⟨h.sent, h.failures, h.active_leave, nofun, fun r hr => ⟨rfl, ?_⟩⟩
  cases hr
  exact .cancelled htransient rfl hexhausted hrecovered

theorem exhaust (h : w.Kept metrics call) (hrunning : w.phase.result = none) (error : IoError) :
    (w.exhaust error).Kept metrics call := by
  obtain ⟨htransient, hsaw, hexhausted, hrecovered⟩ := h.underway hrunning
  refine ⟨h.sent, h.failures, h.active_leave, nofun, fun r hr => ⟨rfl, ?_⟩⟩
  cases hr
  exact .exhausted htransient hsaw (congrArg (· + 1) hexhausted) hrecovered

theorem countP_note (w : RecoveryWorld) (result : CommandResult) :
    (w.note result).history.outcomes.countP isTransient =
      w.history.outcomes.countP isTransient + (isTransient result).toNat := by
  cases hresult : isTransient result with
  | false => simp [RecoveryWorld.note, hresult]
  | true => simp [RecoveryWorld.note, hresult]

theorem failures_note (h : w.Kept metrics call) (result : CommandResult)
    (hlast : isTransient result = false) :
    w.metrics.transientFailures =
      metrics.transientFailures + (w.note result).history.outcomes.countP isTransient := by
  rw [countP_note, hlast]
  exact h.failures

theorem refuse (h : w.Kept metrics call) (hrunning : w.phase.result = none)
    (hlast : isTransient result = false) :
    ((w.note result).leave result).Kept metrics call := by
  obtain ⟨htransient, hsaw, hexhausted, hrecovered⟩ := h.underway hrunning
  refine ⟨h.sent, h.failures_note result hlast, h.active_leave, nofun, fun r hr => ⟨rfl, ?_⟩⟩
  cases hr
  exact .final rfl htransient hlast hsaw hexhausted (.inl hrecovered)

theorem succeed (h : w.Kept metrics call) (hrunning : w.phase.result = none)
    (response : List UInt8) : ((w.note (.ok response)).succeed response).Kept metrics call := by
  obtain ⟨htransient, hsaw, hexhausted, hrecovered⟩ := h.underway hrunning
  refine ⟨h.sent, h.failures_note (.ok response) rfl, h.active_leave, nofun,
    fun r hr => ⟨rfl, ?_⟩⟩
  cases hr
  refine .final rfl htransient rfl hsaw hexhausted ?_
  have hcount : ((w.note (.ok response)).succeed response).record.recovered =
      w.record.recovered + (decide (w.attempts ≠ 0)).toNat := rfl
  rw [hcount, hrecovered]
  cases decide (w.attempts ≠ 0) with
  | false => exact .inl rfl
  | true => exact .inr rfl

theorem fail (h : w.Kept metrics call) (hrunning : w.phase.result = none)
    (herror : isRecoverableNetworkError error = true) :
    ({ (w.note (.error error)).beginRecovery with phase := .failed error } : RecoveryWorld).Kept
      metrics call := by
  obtain ⟨htransient, hsaw, hexhausted, hrecovered⟩ := h.underway hrunning
  have hlast : isTransient (.error error) = true := herror
  refine ⟨h.sent, ?_, ?_, fun _ => ⟨fun outcome houtcome => ?_, hsaw, hexhausted, hrecovered⟩,
    nofun⟩
  · have hcount := countP_note w (.error error)
    rw [hlast, Bool.toNat_true] at hcount
    have hfailures : w.metrics.transientFailures =
      metrics.transientFailures + w.history.outcomes.countP isTransient := h.failures
    change w.metrics.transientFailures + 1 =
      metrics.transientFailures + (w.note (.error error)).history.outcomes.countP isTransient
    omega
  · have hactive : w.metrics.activeRecoveries =
      metrics.activeRecoveries + w.guarded.toNat := h.active
    change w.metrics.activeRecoveries + (!w.guarded).toNat = metrics.activeRecoveries + 1
    cases hguarded : w.guarded with
    | false =>
      rw [hguarded] at hactive
      exact congrArg (· + 1) hactive
    | true =>
      rw [hguarded] at hactive
      exact hactive
  · rcases List.mem_append.mp houtcome with houtcome | houtcome
    · exact htransient outcome houtcome
    · rw [List.mem_singleton.mp houtcome]
      exact hlast

theorem step (h : w.Kept metrics call) (hwindow : policy.maxElapsed ≠ 0)
    (hdirect : w.phase ≠ .direct) (hstep : RecoveryStep policy call w label w') :
    w'.Kept metrics call := by
  have hrunning : ∀ {phase : RecoveryPhase}, w.phase = phase → phase.result = none →
      w.phase.result = none := fun hphase hresult => by rw [hphase, hresult]
  cases hstep with
  | tick | interrupt | suspend => exact h.congr rfl rfl
  | direct _ hzero => exact absurd hzero hwindow
  | directOutcome hphase => exact absurd hphase hdirect
  | enter hphase | first hphase | gate hphase | shut hphase | wait hphase | opened hphase
  | resume hphase | reconnect hphase | backoff hphase | drowse hphase | sleepOn hphase
  | awake hphase | again hphase => exact h.congr (hrunning hphase rfl).symm rfl
  | cancel hphase =>
    refine h.cancel ?_
    rcases hphase with hphase | ⟨_, hphase⟩ | ⟨_, _, hphase⟩ <;> exact hrunning hphase rfl
  | attempt hphase => exact h.beginAttempt (hrunning hphase rfl)
  | succeed hphase response => exact h.succeed (hrunning hphase rfl) response
  | refuse hphase herror => exact h.refuse (hrunning hphase rfl) herror
  | fail hphase herror => exact h.fail (hrunning hphase rfl) herror
  | exhaust hphase =>
    refine h.exhaust ?_ _
    rcases hphase with hphase | hphase <;> exact hrunning hphase rfl

theorem ran (hwindow : policy.maxElapsed ≠ 0) {now : Nat} {interrupted suspended : Bool}
    (h : Run (RecoveryStep policy call) (.start now interrupted suspended metrics) labels w) :
    w.Kept metrics call ∧ w.phase ≠ .direct := by
  refine h.invariant (I := fun w => w.Kept metrics call ∧ w.phase ≠ .direct) ?_
    ⟨start call now interrupted suspended, nofun⟩
  rintro s label t ⟨hkept, hdirect⟩ hstep
  refine ⟨hkept.step hwindow hdirect hstep, ?_⟩
  cases hstep with
  | tick | interrupt | suspend => exact hdirect
  | direct _ hzero => exact absurd hzero hwindow
  | directOutcome | enter | first | gate | shut | wait | opened | resume | cancel | attempt
  | succeed | refuse | fail | exhaust | reconnect | backoff | drowse | sleepOn | awake | again =>
    exact nofun

theorem returned (h : w.Kept metrics call) (hsaw : w.history.sawInterrupted = true) :
    ∃ result, w.phase.result = some result := by
  cases hresult : w.phase.result with
  | none =>
    have hclear : w.history.sawInterrupted = false := (h.underway hresult).saw
    cases hsaw.symm.trans hclear
  | some result => exact ⟨result, rfl⟩

theorem counters (h : w.Kept metrics call) :
    (w.metrics.recoveredCommands = metrics.recoveredCommands ∧
      w.metrics.exhaustedCommands = metrics.exhaustedCommands) ∨
    (w.metrics.recoveredCommands = metrics.recoveredCommands + 1 ∧
      w.metrics.exhaustedCommands = metrics.exhaustedCommands) ∨
    (w.metrics.recoveredCommands = metrics.recoveredCommands ∧
      w.metrics.exhaustedCommands = metrics.exhaustedCommands + 1) := by
  cases hresult : w.phase.result with
  | none =>
    obtain ⟨-, -, hexhausted, hrecovered⟩ := h.underway hresult
    exact .inl ⟨hrecovered, hexhausted⟩
  | some result =>
    cases (h.ended result hresult).2 with
    | final _ _ _ _ hexhausted hrecovered =>
      rcases hrecovered with hrecovered | hrecovered
      · exact .inl ⟨hrecovered, hexhausted⟩
      · exact .inr (.inl ⟨hrecovered, hexhausted⟩)
    | cancelled _ _ hexhausted hrecovered => exact .inl ⟨hrecovered, hexhausted⟩
    | exhausted _ _ hexhausted hrecovered => exact .inr (.inr ⟨hrecovered, hexhausted⟩)

theorem last (h : w.Kept metrics call) {outcome : CommandResult}
    (hmem : outcome ∈ w.history.outcomes) (hlast : isTransient outcome = false) :
    w.phase.result = some outcome := by
  have htransient : ∀ {outcomes : List CommandResult}, outcome ∈ outcomes →
      (∀ o ∈ outcomes, isTransient o = true) → False := by
    intro outcomes hmem h
    cases hlast.symm.trans (h outcome hmem)
  cases hresult : w.phase.result with
  | none => exact (htransient hmem (h.underway hresult).transient).elim
  | some result =>
    cases (h.ended result hresult).2 with
    | final houtcomes hfront =>
      have houtcomes : w.history.outcomes = _ := houtcomes
      rw [houtcomes] at hmem
      rcases List.mem_append.mp hmem with hmem | hmem
      · exact (htransient hmem hfront).elim
      · rw [List.mem_singleton.mp hmem]
    | cancelled hall => exact (htransient hmem hall).elim
    | exhausted hall => exact (htransient hmem hall).elim

end RecoveryWorld.Kept

theorem RecoveryStep.stays (hresult : w.phase = .returned result)
    (h : RecoveryStep policy call w label w') :
    w'.phase = .returned result ∧ w'.history.sent = w.history.sent := by
  have hother : ∀ {phase : RecoveryPhase}, w.phase = phase → phase.result = none → False := by
    intro phase hphase hnone
    rw [← hphase, hresult] at hnone
    cases hnone
  cases h with
  | tick | interrupt | suspend => exact ⟨hresult, rfl⟩
  | direct hphase | directOutcome hphase | enter hphase | first hphase | gate hphase | shut hphase
  | wait hphase | opened hphase | resume hphase | reconnect hphase | backoff hphase
  | drowse hphase | sleepOn hphase | awake hphase | again hphase | attempt hphase
  | succeed hphase | refuse hphase | fail hphase => exact (hother hphase rfl).elim
  | cancel hphase =>
    rcases hphase with hphase | ⟨_, hphase⟩ | ⟨_, _, hphase⟩ <;>
      exact (hother hphase rfl).elim
  | exhaust hphase => rcases hphase with hphase | hphase <;> exact (hother hphase rfl).elim

theorem no_attempt_after_return (hresult : w.phase = .returned result)
    (h : Run (RecoveryStep policy call) w labels w') : w'.history.sent = w.history.sent := by
  have hstays := h.invariant
    (I := fun v => v.phase = .returned result ∧ v.history.sent = w.history.sent)
    (fun hv hstep => ⟨(hstep.stays hv.1).1, (hstep.stays hv.1).2.trans hv.2⟩) ⟨hresult, rfl⟩
  exact hstays.2

def Timed (policy : SecureRecoveryPolicy) (w : RecoveryWorld) : Prop :=
  w.history.overflowed = false → match w.phase with
  | .enter => w.history.charged = 0 ∧ w.history.began + w.history.suspendedFor ≤ w.now
  | .gate pausedAt | .gateCheck pausedAt | .gateLeave pausedAt =>
    pausedAt ≤ w.now ∧ w.history.began + policy.maxElapsed + w.history.suspendedFor ≤
      w.deadline + w.history.charged + (w.now - pausedAt)
  | .direct | .returned _ => True
  | _ => w.history.began + policy.maxElapsed + w.history.suspendedFor ≤
      w.deadline + w.history.charged

theorem Timed.elapse (h : Timed policy w) (call : RecoveringCall) (elapsed : Nat) :
    Timed policy (w.elapse call elapsed) := by
  intro hclear
  have hbefore := h hclear
  obtain ⟨phase, deadline, delay, attempts, guarded, now, interrupted, suspended, counters,
    began, sent, outcomes, sawInterrupted, suspendedFor, charged, overflowed⟩ := w
  rw [RecoveryWorld.elapse]
  cases call.seesSuspended _ with
  | false =>
    cases phase with
    | direct | returned => trivial
    | enter => exact ⟨hbefore.1, Nat.le_trans hbefore.2 (Nat.le_add_right _ _)⟩
    | gate pausedAt | gateCheck pausedAt | gateLeave pausedAt =>
      obtain ⟨hle, hwindow⟩ := hbefore
      dsimp only at hle hwindow ⊢
      exact ⟨by omega, by simp; omega⟩
    | top | check | attempt | failed | backoff | sleep | sleepCheck | slept => exact hbefore
  | true =>
    cases phase with
    | direct | returned => trivial
    | enter =>
      obtain ⟨hcharged, hwindow⟩ := hbefore
      dsimp only at hwindow ⊢
      exact ⟨hcharged, by simp; omega⟩
    | gate pausedAt | gateCheck pausedAt | gateLeave pausedAt =>
      obtain ⟨hle, hwindow⟩ := hbefore
      dsimp only at hle hwindow ⊢
      exact ⟨by omega, by simp [RecoveryPhase.charges]; omega⟩
    | top | check | attempt | failed | backoff | sleep | sleepCheck | slept =>
      dsimp only at hbefore ⊢
      simp [RecoveryPhase.charges]
      omega

theorem extend_deadline {start length fallback : Nat} {phase : RecoveryPhase}
    (h : (w.extend start length fallback phase).history.overflowed = false) :
    w.history.overflowed = false ∧
      (w.extend start length fallback phase).deadline = start + length := by
  obtain ⟨hclear, hsum⟩ := Bool.or_eq_false_iff.mp h
  refine ⟨hclear, ?_⟩
  cases hadd : checkedAddInstant start length with
  | none =>
    rw [hadd] at hsum
    cases hsum
  | some deadline =>
    rw [RecoveryWorld.extend, hadd]
    exact checkedAddInstant_eq hadd

def UnchargedStep (policy : SecureRecoveryPolicy) (call : RecoveringCall) (w : RecoveryWorld)
    (label : RecoveryLabel) (w' : RecoveryWorld) : Prop :=
  RecoveryStep policy call w label w' ∧
    (label = .exhaust → w.history.charged = 0 ∧ w.history.overflowed = false)

def WindowSpent (policy : SecureRecoveryPolicy) (w : RecoveryWorld) : Prop :=
  ∀ error, w.phase = .returned (.error error) → error.kind = .timedOut →
    w.history.began + policy.maxElapsed + w.history.suspendedFor ≤ w.now

theorem Timed.step (h : Timed policy w) (hstep : RecoveryStep policy call w label w') :
    Timed policy w' := by
  cases hstep with
  | tick elapsed => exact h.elapse call elapsed
  | interrupt | suspend => exact h
  | direct | directOutcome | cancel | succeed | refuse | exhaust => exact fun _ => trivial
  | enter hphase =>
    intro hclear
    have hclear : (w.extend w.now policy.maxElapsed w.now .top).history.overflowed = false := hclear
    obtain ⟨hbefore, hdeadline⟩ := extend_deadline hclear
    have htimed := h hbefore
    rw [hphase] at htimed
    obtain ⟨hcharged, hbegan⟩ := htimed
    change w.history.began + policy.maxElapsed + w.history.suspendedFor ≤
      (w.extend w.now policy.maxElapsed w.now .top).deadline + w.history.charged
    omega
  | gate hphase =>
    intro hclear
    have htimed := h hclear
    rw [hphase] at htimed
    exact ⟨Nat.le_refl _, Nat.le_trans htimed (Nat.le_add_right _ _)⟩
  | @resume pausedAt hphase =>
    intro hclear
    obtain ⟨hbefore, hdeadline⟩ := extend_deadline hclear
    have htimed := h hbefore
    rw [hphase] at htimed
    obtain ⟨-, hgate⟩ := htimed
    change w.history.began + policy.maxElapsed + w.history.suspendedFor ≤
      (w.extend w.deadline (w.now - pausedAt) w.deadline .check).deadline + w.history.charged
    omega
  | first hphase | shut hphase | wait hphase | opened hphase | attempt hphase | fail hphase
  | reconnect hphase | backoff hphase | drowse hphase | sleepOn hphase | awake hphase | again hphase =>
    intro hclear
    have htimed := h hclear
    rw [hphase] at htimed
    exact htimed

theorem WindowSpent.step (h : WindowSpent policy w) (htimed : Timed policy w)
    (hwindow : policy.maxElapsed ≠ 0) (hdirect : w.phase ≠ .direct)
    (hstep : UnchargedStep policy call w label w') : WindowSpent policy w' := by
  obtain ⟨hmove, huncharged⟩ := hstep
  cases hmove with
  | tick elapsed =>
    intro error hreturned hkind
    have hbefore := h error hreturned hkind
    rw [RecoveryWorld.elapse]
    cases call.seesSuspended w with
    | false => exact Nat.le_trans hbefore (Nat.le_add_right _ _)
    | true =>
      change w.history.began + policy.maxElapsed + (w.history.suspendedFor + elapsed) ≤
        w.now + elapsed
      omega
  | interrupt | suspend => exact h
  | direct _ hzero => exact absurd hzero hwindow
  | directOutcome hphase => exact absurd hphase hdirect
  | enter | first | gate | shut | wait | opened | resume | attempt | fail | reconnect | backoff
  | drowse | sleepOn | awake | again =>
    intro error hreturned
    cases hreturned
  | cancel =>
    intro error hreturned hkind
    cases hreturned
    cases hkind
  | succeed =>
    intro error hreturned
    cases hreturned
  | @refuse error hphase herror =>
    intro other hreturned hkind
    cases hreturned
    rw [isRecoverableNetworkError, hkind] at herror
    cases herror
  | @exhaust error hphase hdeadline =>
    intro other hreturned hkind
    obtain ⟨huncharged, hclear⟩ := huncharged rfl
    have hbound := htimed hclear
    have hspent : w.history.began + policy.maxElapsed + w.history.suspendedFor ≤ w.now := by
      rcases hphase with hphase | hphase <;> rw [hphase, huncharged] at hbound <;>
        exact Nat.le_trans hbound hdeadline
    exact hspent

theorem window_spent (hwindow : policy.maxElapsed ≠ 0) {now : Nat} {interrupted suspended : Bool}
    (h : Run (UnchargedStep policy call) (.start now interrupted suspended metrics) labels w) :
    WindowSpent policy w := by
  induction h with
  | nil => exact nofun
  | snoc run last ih =>
    have hrun := run.mono fun h => h.1
    have htimed := hrun.invariant (I := Timed policy) Timed.step fun _ => ⟨rfl, Nat.le_refl _⟩
    exact ih.step htimed hwindow (RecoveryWorld.Kept.ran hwindow hrun).2 last

theorem recovery_loop_faithful (hwindow : policy.maxElapsed ≠ 0) {now : Nat}
    {interrupted suspended : Bool}
    (h : Run (RecoveryStep policy call) (.start now interrupted suspended metrics) labels w) :
    (∀ request ∈ w.history.sent, request = (call.opcode, call.payload)) ∧
    (∀ outcome ∈ w.history.outcomes, isTransient outcome = false → w.phase = .returned outcome) ∧
    (∀ result, w.phase = .returned result → Ended metrics w.record result ∧
      w.metrics.activeRecoveries = metrics.activeRecoveries) ∧
    (w.history.sawInterrupted = true → ∀ labels' w',
      Run (RecoveryStep policy call) w labels' w' → w'.history.sent = w.history.sent) ∧
    w.metrics.transientFailures =
      metrics.transientFailures + w.history.outcomes.countP isTransient ∧
    ((w.metrics.recoveredCommands = metrics.recoveredCommands ∧
        w.metrics.exhaustedCommands = metrics.exhaustedCommands) ∨
      (w.metrics.recoveredCommands = metrics.recoveredCommands + 1 ∧
        w.metrics.exhaustedCommands = metrics.exhaustedCommands) ∨
      (w.metrics.recoveredCommands = metrics.recoveredCommands ∧
        w.metrics.exhaustedCommands = metrics.exhaustedCommands + 1)) ∧
    (Run (UnchargedStep policy call) (.start now interrupted suspended metrics) labels w →
      ∀ error, w.phase = .returned (.error error) → error.kind = .timedOut →
        w.history.began + policy.maxElapsed + w.history.suspendedFor ≤ w.now) := by
  obtain ⟨hkept, -⟩ := RecoveryWorld.Kept.ran hwindow h
  have hresult : ∀ {result}, w.phase.result = some result → w.phase = .returned result := by
    intro result hsome
    cases hphase : w.phase with
    | returned r =>
      rw [hphase] at hsome
      cases hsome
      rfl
    | enter | direct | top | gate | gateCheck | gateLeave | check | attempt | failed | backoff
    | sleep | sleepCheck | slept =>
      rw [hphase] at hsome
      cases hsome
  refine ⟨hkept.sent, fun outcome hmem hlast => hresult (hkept.last hmem hlast),
    fun result hreturned => ?_, fun hsaw labels' w' hafter => ?_, hkept.failures, hkept.counters,
    window_spent hwindow⟩
  · obtain ⟨hguarded, hended⟩ := hkept.ended result (by rw [hreturned]; rfl)
    have hactive := hkept.active
    rw [hguarded] at hactive
    exact ⟨hended, hactive⟩
  · obtain ⟨result, hsome⟩ := hkept.returned hsaw
    exact no_attempt_after_return (hresult hsome) hafter

def shortPolicy : SecureRecoveryPolicy := ⟨10, 2, 4⟩

def watchedRead : RecoveringCall := ⟨.readRange, [], true, true⟩

def lostLink : IoError := .new .brokenPipe "broken pipe"

def idleMetrics : SecureRecoveryMetrics := ⟨0, 0, 0, 0, 0⟩

def recoveryStart : RecoveryWorld := .start 0 false false idleMetrics

theorem lostLink_recoverable : isRecoverableNetworkError lostLink = true := rfl

theorem recovered_run : ∃ (labels : List RecoveryLabel) (w : RecoveryWorld),
    Run (UnchargedStep shortPolicy watchedRead) recoveryStart labels w ∧
      w.phase = .returned (.ok [0]) ∧ w.now = 23 ∧ w.history.suspendedFor = 20 :=
  ⟨_, _, (Run.single ⟨.enter rfl (by decide), nofun⟩)
    |>.snoc ⟨.first rfl rfl, nofun⟩
    |>.snoc ⟨.attempt rfl rfl, nofun⟩
    |>.snoc ⟨.tick 1, nofun⟩
    |>.snoc ⟨.fail rfl lostLink_recoverable, nofun⟩
    |>.snoc ⟨.reconnect rfl (by decide), nofun⟩
    |>.snoc ⟨.backoff rfl, nofun⟩
    |>.snoc ⟨.tick 2, nofun⟩
    |>.snoc ⟨.awake rfl (by decide), nofun⟩
    |>.snoc ⟨.again rfl (by decide), nofun⟩
    |>.snoc ⟨.gate rfl (by decide), nofun⟩
    |>.snoc ⟨.suspend true, nofun⟩
    |>.snoc ⟨.shut rfl rfl, nofun⟩
    |>.snoc ⟨.tick 20, nofun⟩
    |>.snoc ⟨.wait rfl rfl, nofun⟩
    |>.snoc ⟨.suspend false, nofun⟩
    |>.snoc ⟨.opened rfl rfl, nofun⟩
    |>.snoc ⟨.resume rfl, nofun⟩
    |>.snoc ⟨.attempt rfl rfl, nofun⟩
    |>.snoc ⟨.succeed rfl [0], nofun⟩, rfl, rfl, rfl⟩

theorem recovery_loop_faithful_recovered : ∃ w : RecoveryWorld, w.phase = .returned (.ok [0]) ∧
    Ended idleMetrics w.record (.ok [0]) ∧
    w.metrics.transientFailures = w.history.outcomes.countP isTransient ∧
    ∀ error : IoError, w.phase = .returned (.error error) → error.kind = .timedOut →
      w.history.began + shortPolicy.maxElapsed + w.history.suspendedFor ≤ w.now := by
  obtain ⟨labels, w, huncharged, hreturned, -⟩ := recovered_run
  obtain ⟨-, -, hended, -, hfailures, -, hspent⟩ :=
    recovery_loop_faithful (by decide) (huncharged.mono fun h => h.1)
  exact ⟨w, hreturned, (hended _ hreturned).1, hfailures.trans (Nat.zero_add _), hspent huncharged⟩

def pausedAttempt : RecoveryWorld :=
  { recoveryStart with
    phase := .failed lostLink
    deadline := 10
    delay := 2
    guarded := true
    now := 20
    suspended := true
    metrics := { idleMetrics with transientFailures := 1, activeRecoveries := 1 }
    history := ⟨0, [(.readRange, [])], [.error lostLink], false, 20, 20, false⟩ }

theorem paused_attempt_run :
    ∃ labels, Run (RecoveryStep shortPolicy watchedRead) recoveryStart labels pausedAttempt :=
  ⟨_, (Run.single (.enter rfl (by decide)))
    |>.snoc (.first rfl rfl)
    |>.snoc (.attempt rfl rfl)
    |>.snoc (.suspend true)
    |>.snoc (.tick 20)
    |>.snoc (.fail rfl lostLink_recoverable)⟩

theorem pause_charged_during_attempt : ¬∀ (policy : SecureRecoveryPolicy) (call : RecoveringCall)
    (now : Nat) (interrupted suspended : Bool) (metrics : SecureRecoveryMetrics)
    (labels : List RecoveryLabel) (w : RecoveryWorld), policy.maxElapsed ≠ 0 →
      Run (RecoveryStep policy call) (.start now interrupted suspended metrics) labels w →
        ∀ error : IoError, w.phase = .returned (.error error) → error.kind = .timedOut →
          w.history.began + policy.maxElapsed + w.history.suspendedFor ≤ w.now := by
  intro h
  obtain ⟨labels, hrun⟩ := paused_attempt_run
  have hgave := hrun.snoc (.exhaust (.inl rfl) (by decide))
  have hspent : 0 + 10 + 20 ≤ 20 :=
    h shortPolicy watchedRead 0 false false idleMetrics _ _ (by decide) hgave _ rfl rfl
  exact absurd hspent (by decide)

end ClipFerry.Client
