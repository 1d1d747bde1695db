import Mathlib.Data.List.Perm.Subperm
import Mathlib.Data.Set.Card

namespace ClipFerry.Counting

variable {α : Type}

theorem countP_modify {p : α → Bool} {f : α → α} {l : List α} {i : Nat} {a : α}
    (h : l[i]? = some a) :
    (l.modify i f).countP p + (p a).toNat = l.countP p + (p (f a)).toNat := by
  induction l generalizing i with
  | nil => cases h
  | cons b l ih =>
    cases i with
    | zero =>
      obtain rfl : b = a := by simpa using h
      rw [List.modify_zero_cons, List.countP_cons, List.countP_cons]
      cases p b <;> cases p (f b) <;> simp
    | succ i =>
      have hrest := ih (i := i) (by simpa using h)
      rw [List.modify_succ_cons, List.countP_cons, List.countP_cons]
      omega

def matching (p : α → Bool) (l : List α) : Set Nat :=
  {i | ∃ a, l[i]? = some a ∧ p a = true}

theorem matching_finite (p : α → Bool) (l : List α) : (matching p l).Finite := by
  apply (Set.finite_lt_nat l.length).subset
  rintro i ⟨a, ha, -⟩
  exact (List.getElem?_eq_some_iff.mp ha).1

theorem length_notMem_matching (p : α → Bool) (l : List α) :
    l.length ∉ matching p l := by
  rintro ⟨a, ha, -⟩
  simp at ha

theorem matching_append (p : α → Bool) (l : List α) (a : α) :
    matching p (l ++ [a]) = if p a = true then insert l.length (matching p l)
      else matching p l := by
  ext i
  have hlast : i ∈ matching p (l ++ [a]) ↔ (i = l.length ∧ p a = true) ∨ i ∈ matching p l := by
    constructor
    · rintro ⟨b, hb, hp⟩
      rcases Nat.lt_trichotomy i l.length with hlt | rfl | hgt
      · rw [List.getElem?_append_left hlt] at hb
        exact .inr ⟨b, hb, hp⟩
      · obtain rfl : a = b := by simpa using hb
        exact .inl ⟨rfl, hp⟩
      · rw [List.getElem?_eq_none (by simp; omega)] at hb
        cases hb
    · rintro (⟨rfl, hp⟩ | ⟨b, hb, hp⟩)
      · exact ⟨a, by simp, hp⟩
      · exact ⟨b, by rw [List.getElem?_append_left (List.getElem?_eq_some_iff.mp hb).1, hb], hp⟩
  rw [hlast]
  split <;> simp [*]

theorem ncard_matching (p : α → Bool) (l : List α) :
    (matching p l).ncard = l.countP p := by
  induction l using List.reverseRecOn with
  | nil => simp [matching]
  | append_singleton l a ih =>
    rw [matching_append, List.countP_append, List.countP_singleton, ← ih]
    split
    · exact Set.ncard_insert_of_notMem (length_notMem_matching p l) (matching_finite p l)
    · rfl

section Matched

variable {β : Type} {l : List α} {m : List β} {f : α → β}

theorem length_eq_iff_covered (hl : l.Nodup) (hm : m.Nodup) (hmaps : ∀ a ∈ l, f a ∈ m)
    (hinj : ∀ a ∈ l, ∀ b ∈ l, f a = f b → a = b) :
    l.length = m.length ↔ ∀ b ∈ m, ∃ a ∈ l, f a = b := by
  have hmapped : (l.map f).Nodup := List.Nodup.map_on hinj hl
  have hsub : l.map f ⊆ m := by
    intro b hb
    obtain ⟨a, ha, rfl⟩ := List.mem_map.mp hb
    exact hmaps a ha
  constructor
  · intro hlength b hb
    have hperm := (List.subperm_of_subset hmapped hsub).perm_of_length_le (by simp [hlength])
    exact List.mem_map.mp (hperm.mem_iff.mpr hb)
  · intro hcovered
    have hsub' : m ⊆ l.map f := fun b hb => List.mem_map.mpr (hcovered b hb)
    have hle := (List.subperm_of_subset hmapped hsub).length_le
    have hge := (List.subperm_of_subset hm hsub').length_le
    rw [List.length_map] at hle hge
    exact Nat.le_antisymm hle hge

theorem injective_of_covered (hm : m.Nodup) (hcovered : ∀ b ∈ m, ∃ a ∈ l, f a = b)
    (hlength : l.length = m.length) : ∀ a ∈ l, ∀ b ∈ l, f a = f b → a = b := by
  have hsub : m ⊆ l.map f := fun b hb => List.mem_map.mpr (hcovered b hb)
  have hperm := (List.subperm_of_subset hm hsub).perm_of_length_le (by simp [hlength])
  have hmapped := hperm.nodup_iff.mp hm
  exact fun a ha b hb => List.inj_on_of_nodup_map hmapped ha hb

end Matched

end ClipFerry.Counting
