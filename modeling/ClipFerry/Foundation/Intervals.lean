import Mathlib.Algebra.Ring.Nat
import Mathlib.Data.List.Sort
import Mathlib.Order.Interval.Finset.Nat
import Mathlib.Order.MinMax
import Mathlib.Tactic.Order

namespace ClipFerry.Intervals

variable {α : Type} [LinearOrder α]

def Covers (ranges : List (α × α)) (x : α) : Prop := ∃ r ∈ ranges, r.1 ≤ x ∧ x < r.2

def CoversAll (ranges : List (α × α)) (a b : α) : Prop := ∀ x, a ≤ x → x < b → Covers ranges x

structure Normal (ranges : List (α × α)) : Prop where
  proper : ∀ r ∈ ranges, r.1 < r.2
  apart : ranges.Pairwise fun r s => r.2 < s.1

theorem covers_cons {r : α × α} {ranges : List (α × α)} {x : α} :
    Covers (r :: ranges) x ↔ (r.1 ≤ x ∧ x < r.2) ∨ Covers ranges x := by
  simp [Covers]

theorem Covers.perm {l m : List (α × α)} (h : l.Perm m) {x : α} : Covers l x ↔ Covers m x := by
  simp only [Covers, h.mem_iff]

theorem Normal.tail {r : α × α} {ranges : List (α × α)} (h : Normal (r :: ranges)) :
    Normal ranges where
  proper s hs := h.proper s (List.mem_cons_of_mem _ hs)
  apart := (List.pairwise_cons.mp h.apart).2

theorem Normal.lt_of_covers_tail {r : α × α} {ranges : List (α × α)} (h : Normal (r :: ranges))
    {x : α} (hx : Covers ranges x) : r.2 < x := by
  obtain ⟨s, hs, hle, -⟩ := hx
  exact lt_of_lt_of_le ((List.pairwise_cons.mp h.apart).1 s hs) hle

theorem Normal.covers_head {r : α × α} {ranges : List (α × α)} (h : Normal (r :: ranges)) :
    Covers (r :: ranges) r.1 :=
  covers_cons.mpr (.inl ⟨le_refl _, h.proper r List.mem_cons_self⟩)

theorem Normal.not_covers_end {r : α × α} {ranges : List (α × α)} (h : Normal (r :: ranges)) :
    ¬Covers (r :: ranges) r.2 := by
  intro hx
  rcases covers_cons.mp hx with ⟨-, hlt⟩ | hx
  · exact lt_irrefl _ hlt
  · exact lt_irrefl _ (h.lt_of_covers_tail hx)

theorem Normal.head_le {r : α × α} {ranges : List (α × α)} (h : Normal (r :: ranges)) {x : α}
    (hx : Covers (r :: ranges) x) : r.1 ≤ x := by
  rcases covers_cons.mp hx with ⟨hle, -⟩ | hx
  · exact hle
  · exact le_of_lt (lt_trans (h.proper r List.mem_cons_self) (h.lt_of_covers_tail hx))

theorem Normal.end_le {r s : α × α} {l m : List (α × α)} (hl : Normal (r :: l))
    (hstart : r.1 = s.1) (h : ∀ x, Covers (r :: l) x ↔ Covers (s :: m) x) : s.2 ≤ r.2 := by
  by_contra hlt
  have hpos := hl.proper r List.mem_cons_self
  have hr : Covers (s :: m) r.2 := covers_cons.mpr (.inl ⟨by order, by order⟩)
  exact hl.not_covers_end ((h _).mpr hr)

theorem Normal.ext {l m : List (α × α)} (hl : Normal l) (hm : Normal m)
    (h : ∀ x, Covers l x ↔ Covers m x) : l = m := by
  induction l generalizing m with
  | nil =>
    cases m with
    | nil => rfl
    | cons s m => simpa [Covers] using (h s.1).mpr hm.covers_head
  | cons r l ih =>
    cases m with
    | nil => simpa [Covers] using (h r.1).mp hl.covers_head
    | cons s m =>
      have hstart : r.1 = s.1 :=
        le_antisymm (hl.head_le ((h _).mpr hm.covers_head)) (hm.head_le ((h _).mp hl.covers_head))
      have hend : r.2 = s.2 :=
        le_antisymm (hm.end_le hstart.symm fun x => (h x).symm) (hl.end_le hstart h)
      obtain rfl : r = s := Prod.ext hstart hend
      have hrest : ∀ x, Covers l x ↔ Covers m x := by
        intro x
        have hx := h x
        rw [covers_cons, covers_cons] at hx
        constructor
        · intro hc
          have hlt := hl.lt_of_covers_tail hc
          rcases hx.mp (.inr hc) with ⟨-, hgt⟩ | hc
          · exact absurd hgt (not_lt_of_gt hlt)
          · exact hc
        · intro hc
          have hlt := hm.lt_of_covers_tail hc
          rcases hx.mpr (.inr hc) with ⟨-, hgt⟩ | hc
          · exact absurd hgt (not_lt_of_gt hlt)
          · exact hc
      rw [ih hl.tail hm.tail hrest]

def absorb : List (α × α) → α × α → List (α × α)
  | [], r => [r]
  | last :: front, r =>
    if r.1 ≤ last.2 then (last.1, max last.2 r.2) :: front else r :: last :: front

def merge (ranges : List (α × α)) : List (α × α) := (ranges.foldl absorb []).reverse

structure Stacked (stack : List (α × α)) : Prop where
  proper : ∀ r ∈ stack, r.1 < r.2
  apart : stack.Pairwise fun r s => s.2 < r.1

theorem Stacked.absorb {stack : List (α × α)} {r : α × α} (h : Stacked stack) (hr : r.1 < r.2)
    (hle : ∀ s ∈ stack, s.1 ≤ r.1) : Stacked (absorb stack r) := by
  cases stack with
  | nil => exact ⟨by simpa [Intervals.absorb] using hr, by simp [Intervals.absorb]⟩
  | cons last front =>
    have hlast := h.proper last List.mem_cons_self
    obtain ⟨hbelow, hfront⟩ := List.pairwise_cons.mp h.apart
    rw [Intervals.absorb]
    split
    · refine ⟨?_, List.pairwise_cons.mpr ⟨hbelow, hfront⟩⟩
      intro s hs
      rcases List.mem_cons.mp hs with rfl | hs
      · exact lt_of_lt_of_le hlast (le_max_left _ _)
      · exact h.proper s (List.mem_cons_of_mem _ hs)
    · rename_i hgap
      refine ⟨?_, List.pairwise_cons.mpr ⟨?_, h.apart⟩⟩
      · intro s hs
        rcases List.mem_cons.mp hs with rfl | hs
        · exact hr
        · exact h.proper s hs
      · intro s hs
        rcases List.mem_cons.mp hs with rfl | hs
        · exact lt_of_not_ge hgap
        · exact lt_trans (hbelow s hs) (lt_trans hlast (lt_of_not_ge hgap))

theorem covers_absorb {stack : List (α × α)} {r : α × α} (hle : ∀ s ∈ stack, s.1 ≤ r.1) {x : α} :
    Covers (absorb stack r) x ↔ (r.1 ≤ x ∧ x < r.2) ∨ Covers stack x := by
  cases stack with
  | nil => simp [absorb, Covers]
  | cons last front =>
    have hlast := hle last List.mem_cons_self
    rw [absorb]
    split
    · rename_i htouch
      simp only [covers_cons, lt_max_iff]
      constructor
      · rintro (⟨h₁, h₂ | h₂⟩ | h)
        · exact .inr (.inl ⟨h₁, h₂⟩)
        · by_cases hx : x < last.2
          · exact .inr (.inl ⟨h₁, hx⟩)
          · exact .inl ⟨by order, h₂⟩
        · exact .inr (.inr h)
      · rintro (⟨h₁, h₂⟩ | ⟨h₁, h₂⟩ | h)
        · exact .inl ⟨by order, .inr h₂⟩
        · exact .inl ⟨h₁, .inl h₂⟩
        · exact .inr h
    · rw [covers_cons]

theorem start_le_absorb {stack : List (α × α)} {r : α × α} (hle : ∀ s ∈ stack, s.1 ≤ r.1) :
    ∀ s ∈ absorb stack r, s.1 ≤ r.1 := by
  cases stack with
  | nil => simp [absorb]
  | cons last front =>
    rw [absorb]
    split
    · simpa using hle
    · simpa using hle

theorem foldl_absorb {ranges stack : List (α × α)} (hs : Stacked stack)
    (hsorted : ranges.Pairwise fun r s => r.1 ≤ s.1) (hproper : ∀ r ∈ ranges, r.1 < r.2)
    (hle : ∀ s ∈ stack, ∀ r ∈ ranges, s.1 ≤ r.1) :
    Stacked (ranges.foldl absorb stack) ∧
      ∀ x, Covers (ranges.foldl absorb stack) x ↔ Covers ranges x ∨ Covers stack x := by
  induction ranges generalizing stack with
  | nil => exact ⟨hs, fun x => by simp [Covers]⟩
  | cons r rest ih =>
    obtain ⟨hr, hrest⟩ := List.pairwise_cons.mp hsorted
    have hler : ∀ s ∈ stack, s.1 ≤ r.1 := fun s h => hle s h r List.mem_cons_self
    have hnext : ∀ s ∈ absorb stack r, ∀ q ∈ rest, s.1 ≤ q.1 := fun s h q hq =>
      le_trans (start_le_absorb hler s h) (hr q hq)
    obtain ⟨hstacked, hcovers⟩ := ih (hs.absorb (hproper r List.mem_cons_self) hler) hrest
      (fun q hq => hproper q (List.mem_cons_of_mem _ hq)) hnext
    refine ⟨hstacked, fun x => ?_⟩
    rw [List.foldl_cons, hcovers, covers_absorb hler, covers_cons]
    tauto

theorem merge_normal {ranges : List (α × α)} (hsorted : ranges.Pairwise fun r s => r.1 ≤ s.1)
    (hproper : ∀ r ∈ ranges, r.1 < r.2) :
    Normal (merge ranges) ∧ ∀ x, Covers (merge ranges) x ↔ Covers ranges x := by
  obtain ⟨hstacked, hcovers⟩ := foldl_absorb ⟨by simp, .nil⟩ hsorted hproper (by simp)
  refine ⟨⟨fun r hr => hstacked.proper r (List.mem_reverse.mp hr), ?_⟩, fun x => ?_⟩
  · rw [merge, List.pairwise_reverse]
    exact hstacked.apart
  · rw [merge, Covers.perm (List.reverse_perm _), hcovers]
    simp [Covers]

section Points

variable {ranges : List (Nat × Nat)}

def points : List (Nat × Nat) → Finset Nat
  | [] => ∅
  | r :: ranges => Finset.Ico r.1 r.2 ∪ points ranges

theorem mem_points {x : Nat} : x ∈ points ranges ↔ Covers ranges x := by
  induction ranges with
  | nil => simp [points, Covers]
  | cons r ranges ih => rw [points, Finset.mem_union, ih, Finset.mem_Ico, covers_cons]

theorem points_append (l m : List (Nat × Nat)) : points (l ++ m) = points l ∪ points m := by
  induction l with
  | nil => exact (Finset.empty_union _).symm
  | cons r l ih => rw [List.cons_append, points, ih, points, Finset.union_assoc]

theorem Normal.card_points (h : Normal ranges) :
    (points ranges).card = (ranges.map fun r => r.2 - r.1).sum := by
  induction ranges with
  | nil => rfl
  | cons r ranges ih =>
    have hdisjoint : Disjoint (Finset.Ico r.1 r.2) (points ranges) := by
      rw [Finset.disjoint_left]
      intro x hhead htail
      have hlt := h.lt_of_covers_tail (mem_points.mp htail)
      have hend := (Finset.mem_Ico.mp hhead).2
      omega
    rw [points, Finset.card_union_of_disjoint hdisjoint, Nat.card_Ico, ih h.tail, List.map_cons,
      List.sum_cons]

end Points

end ClipFerry.Intervals
