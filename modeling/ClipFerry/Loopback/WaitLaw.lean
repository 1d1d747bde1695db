import ClipFerry.Foundation.Monitor
import ClipFerry.Loopback.TransferControl

namespace ClipFerry.Loopback

open Foundation Transition

variable {ι : Type} [DecidableEq ι]

inductive Waiter where
  | outside
  | awake (delay : Nat) (wait : Wait) (timedOut : Bool)
  | asleep (delay : Nat) (wait : Wait)

structure ControlWorld (ι : Type) where
  state : TransferControlState
  waiters : ι → Waiter
  unannounced : Nat

def ControlWorld.start : ControlWorld ι := ⟨.running, fun _ => .outside, 0⟩

def Waiter.rouse : Waiter → Waiter
  | outside => outside
  | awake delay wait timedOut => awake delay wait timedOut
  | asleep delay wait => awake delay wait false

def Waiter.look (state : TransferControlState) : Waiter → Waiter
  | outside => outside
  | awake delay wait timedOut =>
    match wait.waitForChunk delay timedOut state with
    | .sleeps wait => asleep delay wait
    | .returns _ => outside
  | asleep delay wait => asleep delay wait

inductive ControlEvent (ι : Type) where
  | call (thread : ι) (delay : Nat)
  | look (thread : ι)
  | wake (thread : ι) (timedOut : Bool)
  | change (transition : TransferControlState → TransferControlState)
  | notifyAll

inductive ControlStep : ControlWorld ι → ControlEvent ι → ControlWorld ι → Prop
  | call {world : ControlWorld ι} {i : ι} (delay : Nat) (houtside : world.waiters i = .outside) :
      ControlStep world (.call i delay)
        { world with waiters := Function.update world.waiters i (.awake delay .entering false) }
  | look {world : ControlWorld ι} (i : ι) :
      ControlStep world (.look i)
        { world with waiters :=
            Function.update world.waiters i ((world.waiters i).look world.state) }
  | wake {world : ControlWorld ι} {i : ι} {delay : Nat} {wait : Wait} (timedOut : Bool)
      (hasleep : world.waiters i = .asleep delay wait) :
      ControlStep world (.wake i timedOut)
        { world with waiters := Function.update world.waiters i (.awake delay wait timedOut) }
  | change {world : ControlWorld ι} (transition : TransferControlState → TransferControlState) :
      ControlStep world (.change transition)
        { world with state := transition world.state, unannounced := world.unannounced + 1 }
  | notifyAll {world : ControlWorld ι} {n : Nat} (hpending : world.unannounced = n + 1) :
      ControlStep world .notifyAll
        { world with waiters := fun i => (world.waiters i).rouse, unannounced := n }

def WaitsOut (reason : Nat × Wait) (state : TransferControlState) : Prop :=
  (reason.2 = .paused ∧ state = .paused) ∨
    (reason.2 = .throttled ∧ reason.1 ≠ 0 ∧ state = .running)

def Waiter.reason : Waiter → Option (Nat × Wait)
  | asleep delay wait => some (delay, wait)
  | outside | awake _ _ _ => none

def ControlWorld.monitor (world : ControlWorld ι) : Monitor TransferControlState (Nat × Wait) ι where
  value := world.state
  asleep i := (world.waiters i).reason
  unannounced := world.unannounced

theorem Waiter.rouse_reason (waiter : Waiter) : waiter.rouse.reason = none := by
  cases waiter <;> rfl

theorem Waiter.look_reason {waiter : Waiter} {state : TransferControlState} {reason : Nat × Wait}
    (h : (waiter.look state).reason = some reason) :
    waiter.reason = some reason ∨ WaitsOut reason state := by
  cases waiter with
  | outside => cases h
  | asleep delay wait => exact .inl h
  | awake delay wait timedOut =>
    rw [look] at h
    rcases Wait.waitForChunk_cases delay timedOut state wait with ⟨-, -, hout⟩ | hlook
    · rw [hout] at h
      cases h
    · rw [hlook] at h
      cases hsleeps : Wait.look delay state with
      | returns result =>
        rw [hsleeps] at h
        cases h
      | sleeps wait' =>
        rw [hsleeps] at h
        cases h
        rcases Wait.look_sleeps hsleeps with ⟨hstate, hwait⟩ | ⟨hstate, hdelay, hwait⟩
        · exact .inr (.inl ⟨hwait, hstate⟩)
        · exact .inr (.inr ⟨hwait, hdelay, hstate⟩)

theorem update_reason {world : ControlWorld ι} {i : ι} {waiter : Waiter}
    (hnone : waiter.reason = none) :
    MonitorStep WaitsOut world.monitor
      { world with waiters := Function.update world.waiters i waiter : ControlWorld ι }.monitor := by
  refine .wake fun j reason hasleep => ?_
  dsimp only at hasleep
  by_cases hji : j = i
  · subst hji
    rw [Function.update_self, hnone] at hasleep
    cases hasleep
  · rw [Function.update_of_ne hji] at hasleep
    exact hasleep

theorem controlStep_monitor {world world' : ControlWorld ι} {event : ControlEvent ι}
    (h : ControlStep world event world') : MonitorStep WaitsOut world.monitor world'.monitor := by
  cases h with
  | call delay houtside => exact update_reason rfl
  | wake timedOut hasleep => exact update_reason rfl
  | change transition => exact .change _
  | notifyAll hpending =>
    refine .announce fun i => ?_
    exact Waiter.rouse_reason (world.waiters i)
  | look i =>
    cases hreason : ((world.waiters i).look world.state).reason with
    | none => exact update_reason hreason
    | some reason =>
      have hothers : ∀ j, j ≠ i → (Function.update world.waiters i
          ((world.waiters i).look world.state) j).reason = (world.waiters j).reason := by
        intro j hji
        rw [Function.update_of_ne hji]
      rcases Waiter.look_reason hreason with hbefore | hwaits
      · refine .wake fun j reason' hasleep => ?_
        dsimp only at hasleep
        by_cases hji : j = i
        · subst hji
          rw [Function.update_self, hreason] at hasleep
          exact hbefore.trans hasleep
        · exact (hothers j hji).symm.trans hasleep
      · refine .sleep (i := i) hwaits ?_ hothers
        dsimp only
        rw [Function.update_self, hreason]

/-! The worker tracker: its guards notify under the lock, a start tells nobody. -/

structure TrackerWorld where
  active : Nat
  asleep : Bool

inductive TrackerEvent where
  | tryStart (maximum : Nat)
  | dropGuard
  | waitUntilIdle
  | wake

inductive TrackerStep : TrackerWorld → TrackerEvent → TrackerWorld → Prop
  | refused {world : TrackerWorld} {maximum : Nat} (hfull : maximum ≤ world.active) :
      TrackerStep world (.tryStart maximum) world
  | started {world : TrackerWorld} {maximum : Nat} (hroom : world.active < maximum) :
      TrackerStep world (.tryStart maximum) { world with active := world.active + 1 }
  | dropGuard {world : TrackerWorld} :
      TrackerStep world .dropGuard ⟨world.active - 1, false⟩
  | idle {world : TrackerWorld} (hzero : world.active = 0) : TrackerStep world .waitUntilIdle world
  | sleep {world : TrackerWorld} (hbusy : world.active ≠ 0) :
      TrackerStep world .waitUntilIdle { world with asleep := true }
  | wake {world : TrackerWorld} : TrackerStep world .wake { world with asleep := false }

def TrackerWorld.monitor (world : TrackerWorld) : Monitor Nat Unit Unit where
  value := world.active
  asleep _ := if world.asleep = true then some () else none
  unannounced := 0

theorem trackerStep_monitor {world world' : TrackerWorld} {event : TrackerEvent}
    (h : TrackerStep world event world') :
    MonitorStep (fun _ active => active ≠ 0) world.monitor world'.monitor := by
  cases h with
  | refused hfull => exact .idle
  | started hroom => exact .quiet fun _ _ => Nat.succ_ne_zero _
  | dropGuard => exact .changeAll _ fun _ => rfl
  | idle hzero => exact .idle
  | sleep hbusy => exact .sleep (i := ()) hbusy rfl fun j hj => absurd rfl hj
  | wake => exact .wake fun _ _ hasleep => by cases hasleep

theorem loopback_wakeups_not_lost {controlEvents : List (ControlEvent ι)}
    {trackerEvents : List TrackerEvent} {control : ControlWorld ι} {tracker : TrackerWorld}
    {active : Nat} (hcontrol : Run ControlStep .start controlEvents control)
    (htracker : Run TrackerStep ⟨active, false⟩ trackerEvents tracker) :
    (control.unannounced = 0 → ∀ i delay wait, control.waiters i = .asleep delay wait →
      WaitsOut (delay, wait) control.state) ∧
    (tracker.asleep = true → tracker.active ≠ 0) := by
  have hwaiters := monitor_justified ControlWorld.monitor controlStep_monitor hcontrol
    fun _ => rfl
  have howner := monitor_justified TrackerWorld.monitor trackerStep_monitor htracker
    fun _ => rfl
  constructor
  · intro hannounced i delay wait hasleep
    have hreason : control.monitor.asleep i = some (delay, wait) := congrArg Waiter.reason hasleep
    rcases hwaiters i _ hreason with hwaits | hpending
    · exact hwaits
    · rw [show control.monitor.unannounced = 0 from hannounced] at hpending
      cases hpending
  · intro hasleep
    rcases howner () () (if_pos hasleep) with hbusy | hpending
    · exact hbusy
    · cases hpending

theorem loopback_wakeups_not_lost_paused :
    WaitsOut (5, .paused) .paused ∧ (1 : Nat) ≠ 0 := by
  have hpaused := @ControlStep.change Nat _ .start .pause
  have hcontrol : Run ControlStep (ControlWorld.start (ι := Nat)) _ _ :=
    ((((Run.single hpaused).snoc (.notifyAll rfl)).snoc (.call (i := 0) 5 rfl)).snoc (.look 0))
  have htracker : Run TrackerStep ⟨1, false⟩ _ _ := .single (.sleep (Nat.succ_ne_zero 0))
  have hboth := loopback_wakeups_not_lost hcontrol htracker
  exact ⟨hboth.1 rfl 0 5 .paused rfl, hboth.2 rfl⟩

end ClipFerry.Loopback
