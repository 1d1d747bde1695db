import Mathlib.Data.List.Basic

namespace ClipFerry.Position

variable {α : Type} {l : List α} {a found : α} {i j : Nat}

theorem set_cases (h : (l.set i a)[j]? = some found) :
    (j = i ∧ found = a) ∨ (j ≠ i ∧ l[j]? = some found) := by
  rw [List.getElem?_set] at h
  split at h
  · rename_i hij
    split at h <;> cases h
    exact .inl ⟨hij.symm, rfl⟩
  · rename_i hij
    exact .inr ⟨fun hji => hij hji.symm, h⟩

theorem concat_cases (h : (l ++ [a])[i]? = some found) :
    l[i]? = some found ∨ (i = l.length ∧ found = a) := by
  rcases Nat.lt_or_ge i l.length with hlt | hge
  · rw [List.getElem?_append_left hlt] at h
    exact .inl h
  · rw [List.getElem?_append_right hge, List.getElem?_singleton] at h
    split at h <;> cases h
    exact .inr ⟨by omega, rfl⟩

end ClipFerry.Position
