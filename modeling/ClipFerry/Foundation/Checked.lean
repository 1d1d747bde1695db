import Mathlib.Data.List.Basic

namespace ClipFerry.Checked

variable {α β ε : Type}

theorem ok_bind (a : α) (f : α → Except ε β) : (Except.ok a >>= f) = f a := rfl

theorem bind_eq_ok {x : Except ε α} {f : α → Except ε β} {r : β} :
    (x >>= f) = .ok r ↔ ∃ a, x = .ok a ∧ f a = .ok r := by
  cases x with
  | error e => simp [bind, Except.bind]
  | ok a => simp [bind, Except.bind]

theorem guard_eq_ok {c : Prop} [Decidable c] {e : ε} {k : Except ε β} {r : β} :
    (if c then .error e else k) = .ok r ↔ ¬c ∧ k = .ok r := by
  by_cases h : c <;> simp [h]

theorem forM_eq_ok {f : α → Except ε Unit} {l : List α} :
    l.forM f = .ok () ↔ ∀ a ∈ l, f a = .ok () := by
  induction l with
  | nil => exact ⟨fun _ a ha => absurd ha List.not_mem_nil, fun _ => rfl⟩
  | cons a l ih =>
    have h : (a :: l).forM f = (f a >>= fun _ => l.forM f) := rfl
    rw [h, bind_eq_ok, List.forall_mem_cons, ← ih]
    exact ⟨fun ⟨_, ha, hl⟩ => ⟨ha, hl⟩, fun ⟨ha, hl⟩ => ⟨(), ha, hl⟩⟩

theorem foldlM_cons_eq_ok {f : β → α → Except ε β} {a : α} {l : List α} {b r : β} :
    (a :: l).foldlM f b = .ok r ↔ ∃ c, f b a = .ok c ∧ l.foldlM f c = .ok r := by
  rw [List.foldlM_cons]
  exact bind_eq_ok

def FailsOnly (e : ε) (x : Except ε α) : Prop := ∀ error, x = .error error → error = e

namespace FailsOnly

variable {e : ε} {x : Except ε α}

theorem ok (a : α) : FailsOnly e (.ok a) := nofun

theorem error : FailsOnly e (.error e : Except ε α) := by
  intro error h
  cases h
  rfl

theorem bind (hx : FailsOnly e x) {f : α → Except ε β} (hf : ∀ a, FailsOnly e (f a)) :
    FailsOnly e (x >>= f) := by
  cases x with
  | error found =>
    obtain rfl := hx found rfl
    exact .error
  | ok a => exact hf a

theorem guard {c : Prop} [Decidable c] (hx : FailsOnly e x) :
    FailsOnly e (if c then .error e else x) := by
  split
  · exact .error
  · exact hx

end FailsOnly

theorem lookup_eq_some_of_nodup [BEq α] [LawfulBEq α] {l : List (α × β)}
    (hl : (l.map Prod.fst).Nodup) {k : α} {b : β} : l.lookup k = some b ↔ (k, b) ∈ l := by
  induction l with
  | nil => simp
  | cons p l ih =>
    obtain ⟨a, c⟩ := p
    simp only [List.map_cons, List.nodup_cons] at hl
    rw [List.lookup_cons]
    by_cases h : k = a
    · subst h
      have hk : ∀ b, (k, b) ∉ l := fun b hb => hl.1 (List.mem_map_of_mem hb)
      simp [hk, eq_comm]
    · have hb : (k == a) = false := beq_false_of_ne h
      simp [hb, ih hl.2, h]

end ClipFerry.Checked
