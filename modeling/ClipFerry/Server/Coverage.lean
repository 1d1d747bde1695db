import ClipFerry.Foundation.Intervals

namespace ClipFerry.Server

open Intervals

def u64Limit : Nat := 2 ^ 64

def checkedAddU64 (a b : Nat) : Option Nat := if a + b < u64Limit then some (a + b) else none

def maxTrackedRanges : Nat := 4096

structure RangeCoverage where
  ranges : List (Nat × Nat)
  uniqueBytes : Nat
  saturated : Bool
deriving DecidableEq, Repr

namespace RangeCoverage

def empty : RangeCoverage := ⟨[], 0, false⟩

def sortByStart (ranges : List (Nat × Nat)) : List (Nat × Nat) :=
  ranges.insertionSort fun r s => r.1 ≤ s.1

def totalLength (ranges : List (Nat × Nat)) : Nat := (ranges.map fun r => r.2 - r.1).sum

def mergedWith (ranges : List (Nat × Nat)) (start stop : Nat) : List (Nat × Nat) :=
  merge (sortByStart (ranges ++ [(start, stop)]))

def note (coverage : RangeCoverage) (start length : Nat) : RangeCoverage :=
  if coverage.saturated = true ∨ length = 0 then coverage
  else match checkedAddU64 start length with
  | none => { coverage with saturated := true }
  | some stop =>
    let merged := mergedWith coverage.ranges start stop
    if maxTrackedRanges < merged.length then { coverage with ranges := [], saturated := true }
    else { coverage with ranges := merged, uniqueBytes := totalLength merged }

structure WellFormed (coverage : RangeCoverage) : Prop where
  normal : Normal coverage.ranges
  below : ∀ r ∈ coverage.ranges, r.2 < u64Limit
  few : coverage.ranges.length ≤ maxTrackedRanges
  exact : coverage.saturated = false → coverage.uniqueBytes = totalLength coverage.ranges

def Knows (coverage : RangeCoverage) (a b : Nat) : Prop :=
  coverage.saturated = true ∨ CoversAll coverage.ranges a b

theorem empty_wellFormed : empty.WellFormed :=
  ⟨⟨by simp [empty], by simp [empty]⟩, by simp [empty], by simp [empty], fun _ => rfl⟩

theorem merge_sortByStart {ranges : List (Nat × Nat)} (h : ∀ r ∈ ranges, r.1 < r.2) :
    Normal (merge (sortByStart ranges)) ∧
      ∀ x, Covers (merge (sortByStart ranges)) x ↔ Covers ranges x := by
  have hperm : (sortByStart ranges).Perm ranges := List.perm_insertionSort _ _
  have hsorted : (sortByStart ranges).Pairwise fun r s => r.1 ≤ s.1 :=
    @List.pairwise_insertionSort _ (fun r s : Nat × Nat => r.1 ≤ s.1) _
      ⟨fun r s => Nat.le_total r.1 s.1⟩ ⟨fun _ _ _ => Nat.le_trans⟩ ranges
  obtain ⟨hnormal, hcovers⟩ := merge_normal hsorted fun r hr => h r (hperm.mem_iff.mp hr)
  exact ⟨hnormal, fun x => (hcovers x).trans (Covers.perm hperm)⟩

theorem note_cases (coverage : RangeCoverage) (start length : Nat) :
    ((coverage.saturated = true ∨ length = 0) ∧ coverage.note start length = coverage) ∨
    (coverage.saturated = false ∧ 0 < length ∧
      ((u64Limit ≤ start + length ∧
          coverage.note start length = { coverage with saturated := true }) ∨
        (maxTrackedRanges < (mergedWith coverage.ranges start (start + length)).length ∧
          coverage.note start length = ⟨[], coverage.uniqueBytes, true⟩))) ∨
    (coverage.saturated = false ∧ 0 < length ∧
      (mergedWith coverage.ranges start (start + length)).length ≤ maxTrackedRanges ∧
      start + length < u64Limit ∧
      coverage.note start length = ⟨mergedWith coverage.ranges start (start + length),
        totalLength (mergedWith coverage.ranges start (start + length)), false⟩) := by
  rw [note]
  split
  · rename_i h
    exact .inl ⟨h, rfl⟩
  · rename_i h
    obtain ⟨hsat, hlen⟩ := not_or.mp h
    have hsat : coverage.saturated = false := by simpa using hsat
    have hpos : 0 < length := Nat.pos_of_ne_zero hlen
    by_cases hlt : start + length < u64Limit
    · rw [checkedAddU64, if_pos hlt]
      dsimp only
      split
      · rename_i hmany
        exact .inr (.inl ⟨hsat, hpos, .inr ⟨hmany, rfl⟩⟩)
      · rename_i hfew
        exact .inr (.inr ⟨hsat, hpos, Nat.le_of_not_lt hfew, hlt, by rw [hsat]⟩)
    · rw [checkedAddU64, if_neg hlt]
      exact .inr (.inl ⟨hsat, hpos, .inl ⟨Nat.le_of_not_lt hlt, rfl⟩⟩)

theorem mergedWith_spec {coverage : RangeCoverage} (wf : coverage.WellFormed) {start length : Nat}
    (hpos : 0 < length) : Normal (mergedWith coverage.ranges start (start + length)) ∧
      ∀ x, Covers (mergedWith coverage.ranges start (start + length)) x ↔
        Covers coverage.ranges x ∨ (start ≤ x ∧ x < start + length) := by
  have hproper : ∀ r ∈ coverage.ranges ++ [(start, start + length)], r.1 < r.2 := by
    intro r hr
    rcases List.mem_append.mp hr with hr | hr
    · exact wf.normal.proper r hr
    · rw [List.mem_singleton.mp hr]
      exact Nat.lt_add_of_pos_right hpos
  obtain ⟨hnormal, hcovers⟩ := merge_sortByStart hproper
  refine ⟨hnormal, fun x => ?_⟩
  rw [mergedWith, hcovers, Covers.perm (List.perm_append_singleton _ _), covers_cons, or_comm]

theorem WellFormed.covered_below {coverage : RangeCoverage} (wf : coverage.WellFormed) {x : Nat}
    (hx : Covers coverage.ranges x) : x + 1 < u64Limit := by
  obtain ⟨r, hr, -, hlt⟩ := hx
  exact Nat.lt_of_le_of_lt hlt (wf.below r hr)

theorem WellFormed.note {coverage : RangeCoverage} (wf : coverage.WellFormed)
    (start length : Nat) : (coverage.note start length).WellFormed := by
  rcases note_cases coverage start length with ⟨-, heq⟩ |
    ⟨-, -, ⟨-, heq⟩ | ⟨-, heq⟩⟩ | ⟨hsat, hpos, hfew, hlt, heq⟩
  · rw [heq]
    exact wf
  · rw [heq]
    exact ⟨wf.normal, wf.below, wf.few, fun h => by cases h⟩
  · rw [heq]
    exact ⟨⟨by simp, by simp⟩, by simp, by simp, fun h => by cases h⟩
  · obtain ⟨hnormal, hcovers⟩ := mergedWith_spec wf hpos
    rw [heq]
    refine ⟨hnormal, ?_, hfew, fun _ => rfl⟩
    intro r hr
    have hproper := hnormal.proper r hr
    have hlast : Covers _ (r.2 - 1) := ⟨r, hr, by omega, by omega⟩
    rcases (hcovers _).mp hlast with hx | ⟨-, hx⟩
    · have hbelow := wf.covered_below hx
      omega
    · omega

theorem note_knows {coverage : RangeCoverage} (wf : coverage.WellFormed) (start length : Nat) :
    (coverage.note start length).Knows start (start + length) := by
  rcases note_cases coverage start length with ⟨hskip, heq⟩ |
    ⟨-, -, ⟨-, heq⟩ | ⟨-, heq⟩⟩ | ⟨-, hpos, -, -, heq⟩
  · rw [heq]
    rcases hskip with hsat | rfl
    · exact .inl hsat
    · exact .inr fun x hle hlt => by omega
  · exact .inl (by rw [heq])
  · exact .inl (by rw [heq])
  · rw [heq]
    exact .inr fun x hle hlt => ((mergedWith_spec wf hpos).2 x).mpr (.inr ⟨hle, hlt⟩)

theorem Knows.note {coverage : RangeCoverage} (wf : coverage.WellFormed) {a b : Nat}
    (h : coverage.Knows a b) (start length : Nat) : (coverage.note start length).Knows a b := by
  rcases note_cases coverage start length with ⟨-, heq⟩ |
    ⟨-, -, ⟨-, heq⟩ | ⟨-, heq⟩⟩ | ⟨hsat, hpos, -, -, heq⟩
  · rw [heq]
    exact h
  · exact .inl (by rw [heq])
  · exact .inl (by rw [heq])
  · rcases h with h | h
    · rw [hsat] at h
      cases h
    · rw [heq]
      exact .inr fun x hle hlt => ((mergedWith_spec wf hpos).2 x).mpr (.inl (h x hle hlt))

theorem Knows.mono {coverage : RangeCoverage} {a b c : Nat} (h : coverage.Knows a b)
    (hle : c ≤ b) : coverage.Knows a c :=
  h.imp_right fun h x ha hx => h x ha (Nat.lt_of_lt_of_le hx hle)

theorem mergedWith_covered {coverage : RangeCoverage} (wf : coverage.WellFormed)
    {start length : Nat} (hpos : 0 < length)
    (h : CoversAll coverage.ranges start (start + length)) :
    mergedWith coverage.ranges start (start + length) = coverage.ranges := by
  obtain ⟨hnormal, hcovers⟩ := mergedWith_spec wf hpos
  apply hnormal.ext wf.normal
  intro x
  rw [hcovers]
  exact ⟨fun hx => hx.elim id fun ⟨hle, hlt⟩ => h x hle hlt, .inl⟩

theorem note_known {coverage : RangeCoverage} (wf : coverage.WellFormed) {start length : Nat}
    (h : coverage.Knows start (start + length)) : coverage.note start length = coverage := by
  rcases note_cases coverage start length with ⟨-, heq⟩ |
    ⟨hsat, hpos, hnew⟩ | ⟨hsat, hpos, -, -, heq⟩
  · exact heq
  · have hall : CoversAll coverage.ranges start (start + length) :=
      h.resolve_left (by simp [hsat])
    rcases hnew with ⟨hover, -⟩ | ⟨hmany, -⟩
    · have hlast := wf.covered_below (hall (start + length - 1) (by omega) (by omega))
      omega
    · have hfew := wf.few
      rw [mergedWith_covered wf hpos hall] at hmany
      omega
  · have hall : CoversAll coverage.ranges start (start + length) :=
      h.resolve_left (by simp [hsat])
    rw [heq, mergedWith_covered wf hpos hall, ← wf.exact hsat, ← hsat]

end RangeCoverage

end ClipFerry.Server
