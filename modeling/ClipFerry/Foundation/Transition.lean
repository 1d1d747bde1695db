import Mathlib.Logic.Function.Basic
import Mathlib.Logic.Relation

namespace ClipFerry.Transition

variable {σ α : Type} {step step' : σ → α → σ → Prop}

inductive Run (step : σ → α → σ → Prop) (s : σ) : List α → σ → Prop
  | nil : Run step s [] s
  | snoc {labels : List α} {a : α} {t u : σ} (run : Run step s labels t) (last : step t a u) :
      Run step s (labels ++ [a]) u

def Reachable (step : σ → α → σ → Prop) (s t : σ) : Prop := ∃ labels, Run step s labels t

theorem Run.single {s t : σ} {a : α} (h : step s a t) : Run step s [a] t := .snoc .nil h

theorem Run.stay {s t : σ} {l : List α} (_ : Run step s l t) : Run step t [] t := .nil

theorem Run.eq_of_nil {s t : σ} {l : List α} (h : Run step s l t) (hl : l = []) : t = s := by
  cases h with
  | nil => rfl
  | snoc => exact absurd hl (List.concat_ne_nil _ _)

theorem Run.uncons {s t : σ} {a : α} {l : List α} (h : Run step s (a :: l) t) :
    ∃ u, step s a u ∧ Run step u l t := by
  generalize hlabels : a :: l = labels at h
  induction h generalizing l with
  | nil => cases hlabels
  | @snoc labels b t u run last ih =>
    cases labels with
    | nil =>
      cases hlabels
      obtain rfl := run.eq_of_nil rfl
      exact ⟨u, last, .nil⟩
    | cons c labels =>
      obtain ⟨rfl, rfl⟩ := List.cons.inj hlabels
      obtain ⟨v, hstep, hrun⟩ := ih rfl
      exact ⟨v, hstep, .snoc hrun last⟩

theorem Run.append {s t u : σ} {l m : List α} (h : Run step s l t) (h' : Run step t m u) :
    Run step s (l ++ m) u := by
  induction h' with
  | nil => simpa using h
  | snoc _ last ih =>
    rw [← List.append_assoc]
    exact .snoc ih last

theorem Run.invariant {I : σ → Prop} (hstep : ∀ {s a t}, I s → step s a t → I t) {s t : σ}
    {l : List α} (h : Run step s l t) (hs : I s) : I t := by
  induction h with
  | nil => exact hs
  | snoc _ last ih => exact hstep ih last

theorem Run.simulates {τ : Type} {I : σ → Prop} {above : τ → α → τ → Prop} {see : σ → τ}
    (hkept : ∀ {s a t}, I s → step s a t → I t)
    (hstep : ∀ {s a t}, I s → step s a t → above (see s) a (see t)) {s t : σ} {l : List α}
    (h : Run step s l t) (hs : I s) : Run above (see s) l (see t) := by
  induction h with
  | nil => exact .nil
  | snoc run last ih =>
    have hinv := run.invariant (I := I) hkept hs
    exact .snoc ih (hstep hinv last)

theorem Run.forward {τ : Type} {R : σ → τ → Prop} {above : τ → α → τ → Prop}
    (hstep : ∀ {s a t u}, R s u → step s a t → ∃ v, above u a v ∧ R t v) {s t : σ} {l : List α}
    {u : τ} (h : Run step s l t) (hs : R s u) : ∃ v, Run above u l v ∧ R t v := by
  induction h with
  | nil => exact ⟨u, .nil, hs⟩
  | snoc _ last ih =>
    obtain ⟨v, hrun, hrelated⟩ := ih
    obtain ⟨w, hlast, hrelated'⟩ := hstep hrelated last
    exact ⟨w, .snoc hrun hlast, hrelated'⟩

theorem Run.traced {I : List α → σ → Prop} {s : σ} (hnil : I [] s)
    (hstep : ∀ {l t a u}, Run step s l t → I l t → step t a u → I (l ++ [a]) u) {t : σ}
    {l : List α} (h : Run step s l t) : I l t := by
  induction h with
  | nil => exact hnil
  | snoc run last ih => exact hstep run ih last

theorem Run.related {R : σ → σ → Prop} (hrefl : ∀ s, R s s)
    (htrans : ∀ {s t u}, R s t → R t u → R s u) (hstep : ∀ {s a t}, step s a t → R s t)
    {s t : σ} {l : List α} (h : Run step s l t) : R s t := by
  induction h with
  | nil => exact hrefl s
  | snoc _ last ih => exact htrans ih (hstep last)

theorem Run.mono (hstep : ∀ {s a t}, step s a t → step' s a t) {s t : σ} {l : List α}
    (h : Run step s l t) : Run step' s l t := by
  induction h with
  | nil => exact .nil
  | snoc _ last ih => exact .snoc ih (hstep last)

theorem Run.split_at {s t : σ} {l : List α} (h : Run step s l t) {a : α} (ha : a ∈ l) :
    ∃ before u v after, Run step s before u ∧ step u a v ∧ Run step v after t ∧
      l = before ++ a :: after := by
  induction h with
  | nil => cases ha
  | @snoc labels b t u run last ih =>
    rcases List.mem_append.mp ha with hmem | hlast
    · obtain ⟨before, x, y, after, hbefore, hstep, hafter, rfl⟩ := ih hmem
      exact ⟨before, x, y, after ++ [b], hbefore, hstep, .snoc hafter last, by simp⟩
    · rw [List.mem_singleton] at hlast
      subst hlast
      exact ⟨labels, t, u, [], run, last, .nil, rfl⟩

def Past (step : σ → α → σ → Prop) (s : σ) (P : List α → σ → Prop) (labels : List α) (t : σ) :
    Prop :=
  ∃ before u after, labels = before ++ after ∧ Run step s before u ∧ Run step u after t ∧
    P before u

theorem Past.here {s t : σ} {P : List α → σ → Prop} {l : List α} (h : Run step s l t)
    (hp : P l t) : Past step s P l t :=
  ⟨l, t, [], (List.append_nil l).symm, h, .nil, hp⟩

theorem Past.extend {s t u : σ} {P : List α → σ → Prop} {l m : List α}
    (h : Past step s P l t) (hrun : Run step t m u) : Past step s P (l ++ m) u := by
  obtain ⟨before, v, after, rfl, hbefore, hafter, hp⟩ := h
  exact ⟨before, v, after ++ m, by simp, hbefore, hafter.append hrun, hp⟩

section Exclusive

variable {ι κ : Type} {P Q : ι → κ → Prop} {i j k : ι} {x : κ}

theorem exclusive_step (h : ∀ {i j x}, P i x → P j x → i = j)
    (hkept : ∀ {j x}, j ≠ k → Q j x → P j x)
    (hfresh : ∀ {j x}, Q k x → P j x → j = k) (hi : Q i x) (hj : Q j x) : i = j := by
  by_cases hik : i = k <;> by_cases hjk : j = k
  · exact hik.trans hjk.symm
  · subst hik
    exact (hfresh hi (hkept hjk hj)).symm
  · subst hjk
    exact hfresh hj (hkept hik hi)
  · exact h (hkept hik hi) (hkept hjk hj)

theorem exclusive_update [DecidableEq ι] {f : ι → α} {a : α} (P : α → κ → Prop)
    (h : ∀ {i j x}, P (f i) x → P (f j) x → i = j)
    (hfresh : ∀ {j x}, P a x → P (f j) x → j = k) (hi : P (Function.update f k a i) x)
    (hj : P (Function.update f k a j) x) : i = j := by
  refine exclusive_step (P := (P <| f ·)) (Q := (P <| Function.update f k a ·)) (k := k) h
    (fun {j x} hjk hclaim => ?_) (fun {j x} hmine hclaim => ?_) hi hj
  · rwa [Function.update_of_ne hjk] at hclaim
  · rw [Function.update_self] at hmine
    exact hfresh hmine hclaim

end Exclusive

end ClipFerry.Transition
