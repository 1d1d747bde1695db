import Mathlib.Algebra.BigOperators.Group.List.Basic
import Mathlib.Algebra.Ring.Nat
import Mathlib.Data.UInt
import ClipFerry.Foundation.Tally

namespace ClipFerry.Foundation

variable {α β : Type} {weight : α → Nat} {crowd : List α} {i : Nat} {a b : α}

def crowdWeight (weight : α → Nat) (crowd : List α) : Nat := (crowd.map weight).sum

@[simp] theorem crowdWeight_nil (weight : α → Nat) : crowdWeight weight [] = 0 := rfl

theorem crowdWeight_cons (weight : α → Nat) (a : α) (crowd : List α) :
    crowdWeight weight (a :: crowd) = weight a + crowdWeight weight crowd := by
  simp [crowdWeight]

theorem crowdWeight_concat (weight : α → Nat) (crowd : List α) (a : α) :
    crowdWeight weight (crowd ++ [a]) = crowdWeight weight crowd + weight a := by
  simp [crowdWeight]

theorem crowdWeight_set (weight : α → Nat) (h : crowd[i]? = some a) (b : α) :
    crowdWeight weight (crowd.set i b) + weight a = crowdWeight weight crowd + weight b := by
  induction crowd generalizing i with
  | nil => simp at h
  | cons c crowd ih =>
    cases i with
    | zero =>
      obtain rfl : c = a := by simpa using h
      rw [List.set_cons_zero, crowdWeight_cons, crowdWeight_cons]
      omega
    | succ i =>
      have hrest := ih (by simpa using h)
      rw [List.set_cons_succ, crowdWeight_cons, crowdWeight_cons]
      omega

theorem crowdWeight_same (h : crowd[i]? = some a) (hsame : weight b = weight a) :
    crowdWeight weight (crowd.set i b) = crowdWeight weight crowd := by
  have hset := crowdWeight_set weight h b
  omega

theorem crowdWeight_gain {gain : Nat} (h : crowd[i]? = some a) (hgain : weight b = weight a + gain) :
    crowdWeight weight (crowd.set i b) = crowdWeight weight crowd + gain := by
  have hset := crowdWeight_set weight h b
  omega

theorem crowdWeight_loss {loss : Nat} (h : crowd[i]? = some a) (hloss : weight a = weight b + loss) :
    crowdWeight weight crowd = crowdWeight weight (crowd.set i b) + loss := by
  have hset := crowdWeight_set weight h b
  omega

theorem crowdWeight_mono {lighter : α → Nat} (h : ∀ a ∈ crowd, lighter a ≤ weight a) :
    crowdWeight lighter crowd ≤ crowdWeight weight crowd := by
  induction crowd with
  | nil => exact Nat.le_refl 0
  | cons c crowd ih =>
    rw [crowdWeight_cons, crowdWeight_cons]
    exact Nat.add_le_add (h c List.mem_cons_self) (ih fun a ha => h a (List.mem_cons_of_mem _ ha))

theorem crowdWeight_eq_zero : crowdWeight weight crowd = 0 ↔ ∀ a ∈ crowd, weight a = 0 := by
  induction crowd with
  | nil => simp
  | cons c crowd ih => rw [crowdWeight_cons, Nat.add_eq_zero_iff, ih, List.forall_mem_cons]

theorem word_gain {counter : UInt64} {total : Nat} (h : counter = .ofNat total) (gain : Nat) :
    counter + .ofNat gain = .ofNat (total + gain) := by
  rw [h, UInt64.ofNat_add]

theorem word_loss {counter : UInt64} {total : Nat} (h : counter = .ofNat (total + 1)) :
    counter - 1 = .ofNat total := by
  rw [h, UInt64.ofNat_add]
  exact UInt64.add_sub_cancel _ _

section Family

variable [DecidableEq β] {family : α → Finset β}

theorem union_concat (family : α → Finset β) (crowd : List α) (a : α) :
    Tally.union family (crowd ++ [a]) = Tally.union family crowd ∪ family a := by
  ext x
  simp only [Tally.mem_union, Finset.mem_union, List.mem_append, List.mem_singleton]
  constructor
  · rintro ⟨c, hmem | rfl, hx⟩
    · exact .inl ⟨c, hmem, hx⟩
    · exact .inr hx
  · rintro (⟨c, hmem, hx⟩ | hx)
    · exact ⟨c, .inl hmem, hx⟩
    · exact ⟨a, .inr rfl, hx⟩

theorem union_set (h : crowd[i]? = some a) (hgrows : family a ⊆ family b) :
    Tally.union family (crowd.set i b) = Tally.union family crowd ∪ family b := by
  obtain ⟨hlt, ha⟩ := List.getElem?_eq_some_iff.mp h
  ext x
  simp only [Tally.mem_union, Finset.mem_union]
  constructor
  · rintro ⟨c, hmem, hx⟩
    rcases List.mem_or_eq_of_mem_set hmem with hold | rfl
    · exact .inl ⟨c, hold, hx⟩
    · exact .inr hx
  · rintro (⟨c, hmem, hx⟩ | hx)
    · obtain ⟨j, hj, rfl⟩ := List.mem_iff_getElem.mp hmem
      by_cases hsame : i = j
      · subst hsame
        rw [ha] at hx
        exact ⟨b, List.mem_set hlt b, hgrows hx⟩
      · have hkept : (crowd.set i b)[j]? = some crowd[j] := by
          rw [List.getElem?_set_ne hsame, List.getElem?_eq_getElem hj]
        exact ⟨crowd[j], List.mem_of_getElem? hkept, hx⟩
    · exact ⟨b, List.mem_set hlt b, hx⟩

theorem union_same (h : crowd[i]? = some a) (hsame : family b = family a) :
    Tally.union family (crowd.set i b) = Tally.union family crowd := by
  rw [union_set h (hsame ▸ Finset.Subset.refl _), hsame, Finset.union_eq_left]
  intro x hx
  exact Tally.mem_union.mpr ⟨a, List.mem_of_getElem? h, hx⟩

end Family

end ClipFerry.Foundation
