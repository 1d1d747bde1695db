import Mathlib.Logic.Function.Basic
import ClipFerry.Foundation.Transition

namespace ClipFerry.Foundation

open Transition

inductive Flag (α : Type) where
  | clear
  | held (holder : α)
  | leaked
deriving DecidableEq

inductive FlagEvent (α : Type) where
  | take (taker : α)
  | refuse (taker : α)
  | release (holder : α)
  | leak (holder : α)
  | work
deriving DecidableEq

inductive FlagStep {α : Type} : Flag α → FlagEvent α → Flag α → Prop
  | take (taker : α) : FlagStep .clear (.take taker) (.held taker)
  | refuse {flag : Flag α} (taker : α) (hset : flag ≠ .clear) : FlagStep flag (.refuse taker) flag
  | release (holder : α) : FlagStep (.held holder) (.release holder) .clear
  | leak (holder : α) : FlagStep (.held holder) (.leak holder) .leaked
  | work {flag : Flag α} : FlagStep flag .work flag

inductive PartyStep {α : Type} (self : α) : Bool × Bool → FlagEvent α → Bool × Bool → Prop
  | take : PartyStep self (false, false) (.take self) (true, true)
  | refuse : PartyStep self (true, false) (.refuse self) (true, false)
  | release {set : Bool} : PartyStep self (set, true) (.release self) (false, false)
  | leak {set : Bool} : PartyStep self (set, true) (.leak self) (set, false)
  | work {set holds : Bool} : PartyStep self (set, holds) .work (set, holds)

variable {α : Type} {flag flag' : Flag α} {event : FlagEvent α} {events : List (FlagEvent α)}

def Flag.isSet : Flag α → Bool
  | clear => false
  | held _ | leaked => true

theorem Flag.ne_clear (h : flag.isSet = true) : flag ≠ clear := by
  rintro rfl
  cases h

def FlagEvent.isLeak : FlagEvent α → Bool
  | leak _ => true
  | take _ | refuse _ | release _ | work => false

theorem FlagStep.leaked_iff (h : FlagStep flag event flag') :
    flag' = .leaked ↔ flag = .leaked ∨ event.isLeak = true := by
  cases h <;> simp [FlagEvent.isLeak]

theorem flag_leaked_iff (h : Run FlagStep .clear events flag) :
    flag = .leaked ↔ ∃ event ∈ events, event.isLeak = true := by
  induction h with
  | nil => simp
  | snoc run last ih =>
    rw [last.leaked_iff, ih]
    constructor
    · rintro (⟨event, hmem, hleak⟩ | hleak)
      · exact ⟨event, List.mem_append_left _ hmem, hleak⟩
      · exact ⟨_, List.mem_append_right _ (List.mem_singleton_self _), hleak⟩
    · rintro ⟨event, hmem, hleak⟩
      rcases List.mem_append.mp hmem with hmem | hmem
      · exact .inl ⟨event, hmem, hleak⟩
      · exact .inr (List.mem_singleton.mp hmem ▸ hleak)

theorem FlagStep.ne_clear {taker : α} (h : FlagStep flag (.refuse taker) flag') :
    flag ≠ .clear := by
  cases h with
  | refuse _ hset => exact hset

theorem flag_clear_iff (h : Run FlagStep .clear events flag)
    (hfree : ∀ holder, flag ≠ .held holder) :
    flag.isSet = false ↔ ∀ event ∈ events, event.isLeak = false := by
  have hleaked := flag_leaked_iff h
  cases flag with
  | clear =>
    refine ⟨fun _ event hmem => ?_, fun _ => rfl⟩
    cases hleak : event.isLeak with
    | false => rfl
    | true => cases hleaked.mpr ⟨event, hmem, hleak⟩
  | held holder => exact absurd rfl (hfree holder)
  | leaked =>
    obtain ⟨event, hmem, hleak⟩ := hleaked.mp rfl
    refine ⟨nofun, fun hnone => ?_⟩
    rw [hnone event hmem] at hleak
    cases hleak

structure Flag.Tracks (flag : Flag α) (set : Bool) (holding : α → Bool) : Prop where
  set : set = flag.isSet
  holding : ∀ holder, holding holder = true ↔ flag = .held holder

namespace Flag.Tracks

variable {set set' holds : Bool} {holding : α → Bool} {self : α}

theorem clear_of_unset (h : flag.Tracks set holding) (hset : set = false) : flag = .clear := by
  have hflag := h.set
  cases flag with
  | clear => rfl
  | held | leaked =>
    rw [hset] at hflag
    cases hflag

theorem not_held (h : flag.Tracks set holding) (hself : holding self = false) :
    flag ≠ .held self := fun hheld => by
  rw [(h.holding self).mpr hheld] at hself
  cases hself

theorem exclusive (h : flag.Tracks set holding) {holder other : α}
    (hholder : holding holder = true) (hother : holding other = true) : holder = other := by
  have hheld := ((h.holding holder).mp hholder).symm.trans ((h.holding other).mp hother)
  exact Flag.held.inj hheld

variable [DecidableEq α]

theorem update (h : flag.Tracks set holding) (hset : set' = flag'.isSet)
    (hself : holds = true ↔ flag' = .held self)
    (hothers : ∀ other, other ≠ self → (flag = .held other ↔ flag' = .held other)) :
    flag'.Tracks set' (Function.update holding self holds) where
  set := hset
  holding := (Function.forall_update_iff holding fun holder holds =>
    holds = true ↔ flag' = .held holder).mpr
      ⟨hself, fun other hother => (h.holding other).trans (hothers other hother)⟩

theorem step {event : FlagEvent α} (h : flag.Tracks set holding)
    (hstep : PartyStep self (set, holding self) event (set', holds)) :
    ∃ flag', FlagStep flag event flag' ∧
      flag'.Tracks set' (Function.update holding self holds) := by
  generalize hbefore : holding self = before at hstep
  cases hstep with
  | take =>
    obtain rfl := h.clear_of_unset rfl
    exact ⟨_, .take self, h.update rfl (by simp) fun other hother => by simp [hother.symm]⟩
  | refuse =>
    have hset : flag ≠ .clear := Flag.ne_clear h.set.symm
    refine ⟨flag, .refuse self hset, h.update h.set ?_ fun _ _ => Iff.rfl⟩
    exact ⟨nofun, fun hheld => absurd hheld (h.not_held hbefore)⟩
  | release =>
    obtain rfl := (h.holding self).mp hbefore
    exact ⟨_, .release self, h.update rfl (by simp) fun other hother => by simp [hother.symm]⟩
  | leak =>
    obtain rfl := (h.holding self).mp hbefore
    exact ⟨_, .leak self, h.update h.set (by simp) fun other hother => by simp [hother.symm]⟩
  | work =>
    refine ⟨flag, .work, h.update h.set ?_ fun _ _ => Iff.rfl⟩
    rw [← hbefore]
    exact h.holding self

end Flag.Tracks

end ClipFerry.Foundation
