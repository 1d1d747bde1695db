import Mathlib.Logic.Function.Basic
import ClipFerry.Foundation.Transition

namespace ClipFerry.Foundation

open Transition

/-! A value under a lock with a condition variable: who sleeps, and what each of them waits out. -/

structure Monitor (σ κ ι : Type) where
  value : σ
  asleep : ι → Option κ
  unannounced : Nat

variable {σ κ ι τ α : Type} {waits : κ → σ → Prop} {monitor monitor' : Monitor σ κ ι}

/-! A sleeper goes to sleep under the lock; who changes the value may tell the sleepers later. -/

inductive MonitorStep (waits : κ → σ → Prop) : Monitor σ κ ι → Monitor σ κ ι → Prop
  | idle {monitor : Monitor σ κ ι} : MonitorStep waits monitor monitor
  | sleep {monitor : Monitor σ κ ι} {asleep : ι → Option κ} {i : ι} {k : κ}
      (hwaits : waits k monitor.value) (hasleep : asleep i = some k)
      (hothers : ∀ j, j ≠ i → asleep j = monitor.asleep j) :
      MonitorStep waits monitor { monitor with asleep := asleep }
  | wake {monitor : Monitor σ κ ι} {asleep : ι → Option κ}
      (hfewer : ∀ j k, asleep j = some k → monitor.asleep j = some k) :
      MonitorStep waits monitor { monitor with asleep := asleep }
  | quiet {monitor : Monitor σ κ ι} {value : σ} (hkept : ∀ k, waits k monitor.value → waits k value) :
      MonitorStep waits monitor { monitor with value := value }
  | change {monitor : Monitor σ κ ι} (value : σ) :
      MonitorStep waits monitor
        { monitor with value := value, unannounced := monitor.unannounced + 1 }
  | announce {monitor : Monitor σ κ ι} {asleep : ι → Option κ} {n : Nat}
      (hall : ∀ j, asleep j = none) :
      MonitorStep waits monitor { monitor with asleep := asleep, unannounced := n }
  | changeAll {monitor : Monitor σ κ ι} {asleep : ι → Option κ} (value : σ)
      (hall : ∀ j, asleep j = none) :
      MonitorStep waits monitor { monitor with value := value, asleep := asleep }

def Monitor.Justified (waits : κ → σ → Prop) (monitor : Monitor σ κ ι) : Prop :=
  ∀ i k, monitor.asleep i = some k → waits k monitor.value ∨ 0 < monitor.unannounced

theorem Monitor.Justified.start (h : ∀ i, monitor.asleep i = none) : monitor.Justified waits := by
  intro i k hasleep
  rw [h i] at hasleep
  cases hasleep

theorem MonitorStep.justified (hj : monitor.Justified waits) (h : MonitorStep waits monitor monitor') :
    monitor'.Justified waits := by
  cases h with
  | idle => exact hj
  | @sleep asleep i k hwaits hasleep hothers =>
    intro j k' hj'
    by_cases hji : j = i
    · subst hji
      obtain rfl := Option.some.inj (hasleep.symm.trans hj')
      exact .inl hwaits
    · exact hj j k' ((hothers j hji).symm.trans hj')
  | wake hfewer => exact fun j k hasleep => hj j k (hfewer j k hasleep)
  | quiet hkept => exact fun j k hasleep => (hj j k hasleep).imp_left (hkept k)
  | change value => exact fun _ _ _ => .inr (Nat.succ_pos _)
  | announce hall => exact .start hall
  | changeAll value hall => exact .start hall

theorem monitor_justified {step : τ → α → τ → Prop} (see : τ → Monitor σ κ ι)
    (hstep : ∀ {s a t}, step s a t → MonitorStep waits (see s) (see t)) {s t : τ} {l : List α}
    (hrun : Run step s l t) (hstart : ∀ i, (see s).asleep i = none) : (see t).Justified waits :=
  hrun.invariant (I := fun s => (see s).Justified waits) (fun hj h => (hstep h).justified hj)
    (.start hstart)

end ClipFerry.Foundation
