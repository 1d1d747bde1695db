import Mathlib.Algebra.BigOperators.Group.List.Basic
import Mathlib.Data.UInt

namespace ClipFerry.WordSum

variable {sizes : List UInt64}

def exactSum (sizes : List UInt64) : Nat := (sizes.map UInt64.toNat).sum

def addChecked (a b : UInt64) : Option UInt64 :=
  if a.toNat + b.toNat < 2 ^ 64 then some (a + b) else none

/-! The sum of `checked_add`, which is also the sum of `+` where an overflow stops the program. -/

def sumChecked (sizes : List UInt64) : Option UInt64 := sizes.foldlM addChecked 0

theorem exactSum_cons (size : UInt64) (sizes : List UInt64) :
    exactSum (size :: sizes) = size.toNat + exactSum sizes := by
  simp [exactSum]

theorem toNat_sum (sizes : List UInt64) : sizes.sum.toNat = exactSum sizes % 2 ^ 64 := by
  induction sizes with
  | nil => rfl
  | cons size sizes ih => rw [List.sum_cons, UInt64.toNat_add, ih, exactSum_cons, Nat.add_mod_mod]

theorem toNat_sum_eq_iff : sizes.sum.toNat = exactSum sizes ↔ exactSum sizes < 2 ^ 64 := by
  rw [toNat_sum, Nat.mod_eq_iff_lt (by decide)]

theorem foldlM_addChecked {start total : UInt64} :
    sizes.foldlM addChecked start = some total ↔ total.toNat = start.toNat + exactSum sizes := by
  induction sizes generalizing start with
  | nil => simp [exactSum, UInt64.toNat_inj, eq_comm]
  | cons size sizes ih =>
    rw [List.foldlM_cons, exactSum_cons, addChecked]
    by_cases hfits : start.toNat + size.toNat < 2 ^ 64
    · rw [if_pos hfits]
      have hadd : (start + size).toNat = start.toNat + size.toNat := by
        rw [UInt64.toNat_add, Nat.mod_eq_of_lt hfits]
      change sizes.foldlM addChecked (start + size) = some total ↔ _
      rw [ih, hadd, Nat.add_assoc]
    · rw [if_neg hfits]
      have htotal := total.toNat_lt
      constructor
      · intro h
        cases h
      · intro h
        omega

theorem sumChecked_eq_some {total : UInt64} :
    sumChecked sizes = some total ↔ total.toNat = exactSum sizes := by
  rw [sumChecked, foldlM_addChecked, UInt64.toNat_zero, Nat.zero_add]

theorem sumChecked_sum_iff : sumChecked sizes = some sizes.sum ↔ exactSum sizes < 2 ^ 64 := by
  rw [sumChecked_eq_some, toNat_sum_eq_iff]

theorem exactSum_filter {α : Type} {size : α → UInt64} {keep : α → Bool} {entries : List α}
    (h : ∀ e ∈ entries, keep e = false → size e = 0) :
    exactSum ((entries.filter keep).map size) = exactSum (entries.map size) := by
  induction entries with
  | nil => rfl
  | cons e entries ih =>
    have hrest := ih fun e he => h e (List.mem_cons_of_mem _ he)
    rw [List.filter_cons, List.map_cons, exactSum_cons]
    cases hkeep : keep e with
    | true => simp [exactSum_cons, hrest]
    | false => simp [h e List.mem_cons_self hkeep, hrest]

end ClipFerry.WordSum
