import Mathlib.Algebra.BigOperators.Group.List.Basic
import Mathlib.Algebra.Ring.Nat

namespace ClipFerry.Foundation

variable {α : Type} {w : α → Nat} {limit : Nat} {taken source before after : List α} {a : α}

def load (w : α → Nat) (l : List α) : Nat := (l.map w).sum

@[simp] theorem load_nil : load w [] = 0 := rfl

@[simp] theorem load_append (l l' : List α) : load w (l ++ l') = load w l + load w l' := by
  rw [load, List.map_append, List.sum_append, load, load]

@[simp] theorem load_singleton (a : α) : load w [a] = w a := by simp [load]

def takeFitting (w : α → Nat) (limit : Nat) (taken : List α) : List α → List α
  | [] => taken
  | a :: rest =>
    if limit < load w taken + w a then taken
    else takeFitting w limit (taken ++ [a]) rest

theorem takeFitting_prefix (source : List α) : taken <+: takeFitting w limit taken source := by
  induction source generalizing taken with
  | nil => exact List.prefix_rfl
  | cons a rest ih =>
    rw [takeFitting]
    split
    · exact List.prefix_rfl
    · exact (List.prefix_append taken [a]).trans ih

theorem takeFitting_split (source : List α) :
    ∃ rest, taken ++ source = takeFitting w limit taken source ++ rest := by
  induction source generalizing taken with
  | nil => exact ⟨[], rfl⟩
  | cons a rest ih =>
    rw [takeFitting]
    split
    · exact ⟨a :: rest, rfl⟩
    · obtain ⟨left, hleft⟩ := @ih (taken ++ [a])
      exact ⟨left, by rw [← hleft, List.append_assoc, List.singleton_append]⟩

theorem takeFitting_subset (source : List α) :
    takeFitting w limit taken source ⊆ taken ++ source := by
  obtain ⟨rest, hrest⟩ := @takeFitting_split _ w limit taken source
  rw [hrest]
  exact List.subset_append_left _ _

theorem load_takeFitting (source : List α) (h : load w taken ≤ limit) :
    load w (takeFitting w limit taken source) ≤ limit := by
  induction source generalizing taken with
  | nil => exact h
  | cons a rest ih =>
    rw [takeFitting]
    split
    · exact h
    · next hfits => exact ih (by rw [load_append, load_singleton]; exact Nat.not_lt.mp hfits)

theorem prefix_takeFitting (h : load w (taken ++ before) ≤ limit) :
    taken ++ before <+: takeFitting w limit taken (before ++ after) := by
  induction before generalizing taken with
  | nil =>
    rw [List.append_nil]
    exact takeFitting_prefix _
  | cons a before ih =>
    have hsplit : taken ++ a :: before = (taken ++ [a]) ++ before := by simp
    rw [hsplit] at h ⊢
    have hfits : ¬limit < load w taken + w a := by
      rw [load_append, load_append, load_singleton] at h
      omega
    rw [List.cons_append, takeFitting, if_neg hfits]
    exact ih h

theorem exists_mem_takeFitting {p : α → Prop} :
    (∃ a ∈ takeFitting w limit [] source, p a) ↔
      ∃ before a after, source = before ++ a :: after ∧ p a ∧ load w before + w a ≤ limit := by
  constructor
  · rintro ⟨a, ha, hp⟩
    obtain ⟨before, rest, hsplit⟩ := List.append_of_mem ha
    obtain ⟨left, hsource⟩ := @takeFitting_split _ w limit [] source
    have hload := @load_takeFitting _ w limit [] source (Nat.zero_le limit)
    rw [hsplit, load_append, ← List.singleton_append, load_append, load_singleton] at hload
    refine ⟨before, a, rest ++ left, ?_, hp, by omega⟩
    rw [← List.nil_append source, hsource, hsplit, List.append_assoc, List.cons_append]
  · rintro ⟨before, a, after, rfl, hp, hload⟩
    have hfits : load w ([] ++ (before ++ [a])) ≤ limit := by
      rwa [List.nil_append, load_append, load_singleton]
    have hprefix := @prefix_takeFitting _ w limit [] (before ++ [a]) after hfits
    rw [List.append_assoc, List.singleton_append, List.nil_append] at hprefix
    exact ⟨a, hprefix.subset (List.mem_append_right _ List.mem_cons_self), hp⟩

end ClipFerry.Foundation
