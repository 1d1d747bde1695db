import Mathlib.Algebra.BigOperators.Group.List.Basic
import Mathlib.Algebra.Order.BigOperators.Group.List
import Mathlib.Algebra.Order.Group.Nat
import Mathlib.Algebra.Ring.Nat
import Mathlib.Data.Finset.Card
import Mathlib.Data.Finset.Disjoint

namespace ClipFerry.Tally

variable {ι α : Type} {family other : ι → Finset α} {members few : List ι}

def total (family : ι → Finset α) (members : List ι) : Nat :=
  (members.map fun i => (family i).card).sum

def Apart (family : ι → Finset α) (members : List ι) : Prop :=
  ∀ i ∈ members, ∀ j ∈ members, i ≠ j → Disjoint (family i) (family j)

theorem total_cons (family : ι → Finset α) (i : ι) (members : List ι) :
    total family (i :: members) = (family i).card + total family members := by
  rw [total, List.map_cons, List.sum_cons]
  rfl

theorem total_perm (h : members.Perm few) : total family members = total family few :=
  (h.map _).sum_eq

theorem total_congr (h : ∀ i ∈ members, family i = other i) :
    total family members = total other members := by
  rw [total, total, List.map_congr_left fun i hi => congrArg Finset.card (h i hi)]

theorem total_mono (h : ∀ i ∈ members, family i ⊆ other i) :
    total family members ≤ total other members :=
  List.sum_le_sum fun i hi => Finset.card_le_card (h i hi)

theorem total_sublist (h : few.Sublist members) : total family few ≤ total family members :=
  List.Sublist.sum_le_sum (h.map _) fun _ _ => Nat.zero_le _

theorem Apart.tail {i : ι} (h : Apart family (i :: members)) : Apart family members :=
  fun j hj k hk => h j (List.mem_cons_of_mem _ hj) k (List.mem_cons_of_mem _ hk)

theorem Apart.subset (h : Apart family members) (hfew : few ⊆ members) : Apart family few :=
  fun i hi j hj => h i (hfew hi) j (hfew hj)

theorem Apart.mono (h : Apart other members) (hle : ∀ i ∈ members, family i ⊆ other i) :
    Apart family members :=
  fun i hi j hj hne => (h i hi j hj hne).mono (hle i hi) (hle j hj)

theorem Apart.cons_empty {i : ι} (h : Apart family members) (hempty : family i = ∅) :
    Apart family (i :: members) := by
  intro j hj k hk hne
  rcases List.mem_cons.mp hj with rfl | hj
  · rw [hempty]
    exact Finset.disjoint_empty_left _
  · rcases List.mem_cons.mp hk with rfl | hk
    · rw [hempty]
      exact Finset.disjoint_empty_right _
    · exact h j hj k hk hne

section DecidableEq

variable [DecidableEq α]

def union (family : ι → Finset α) : List ι → Finset α
  | [] => ∅
  | i :: members => family i ∪ union family members

theorem mem_union {a : α} : a ∈ union family members ↔ ∃ i ∈ members, a ∈ family i := by
  induction members with
  | nil => simp [union]
  | cons i members ih => rw [union, Finset.mem_union, ih, List.exists_mem_cons_iff]

theorem union_subset {whole : Finset α} :
    union family members ⊆ whole ↔ ∀ i ∈ members, family i ⊆ whole := by
  constructor
  · intro h i hi a ha
    exact h (mem_union.mpr ⟨i, hi, ha⟩)
  · intro h a ha
    obtain ⟨i, hi, hmem⟩ := mem_union.mp ha
    exact h i hi hmem

theorem union_mono (h : ∀ i ∈ members, family i ⊆ other i) :
    union family members ⊆ union other members :=
  union_subset.mpr fun i hi _ ha => mem_union.mpr ⟨i, hi, h i hi ha⟩

theorem card_union_le (family : ι → Finset α) (members : List ι) :
    (union family members).card ≤ total family members := by
  induction members with
  | nil => exact Nat.le_refl 0
  | cons i members ih =>
    rw [total_cons]
    exact (Finset.card_union_le _ _).trans (Nat.add_le_add_left ih _)

theorem Apart.total_eq (h : Apart family members) (hnodup : members.Nodup) :
    total family members = (union family members).card := by
  induction members with
  | nil => rfl
  | cons i members ih =>
    obtain ⟨hnew, hrest⟩ := List.nodup_cons.mp hnodup
    have hdisjoint : Disjoint (family i) (union family members) := by
      rw [Finset.disjoint_left]
      intro a ha hmem
      obtain ⟨j, hj, haj⟩ := mem_union.mp hmem
      have hne : i ≠ j := by
        rintro rfl
        exact hnew hj
      have happart := h i List.mem_cons_self j (List.mem_cons_of_mem _ hj) hne
      exact Finset.disjoint_left.mp happart ha haj
    rw [total_cons, union, Finset.card_union_of_disjoint hdisjoint, ih h.tail hrest]

theorem Apart.add [DecidableEq ι] {i : ι} {extra : Finset α} (h : Apart family members)
    (hextra : ∀ j ∈ members, j ≠ i → Disjoint extra (family j)) :
    Apart (Function.update family i (family i ∪ extra)) members := by
  intro j hj k hk hne
  rw [Function.update_apply, Function.update_apply]
  split
  · next hji =>
    have hki : k ≠ i := fun hki => hne (hji.trans hki.symm)
    rw [if_neg hki, Finset.disjoint_union_left]
    exact ⟨hji ▸ h j hj k hk hne, hextra k hk hki⟩
  · next hji =>
    split
    · next hki =>
      rw [Finset.disjoint_union_right]
      exact ⟨hki ▸ h j hj k hk hne, (hextra j hj hji).symm⟩
    · exact h j hj k hk hne

end DecidableEq

end ClipFerry.Tally
