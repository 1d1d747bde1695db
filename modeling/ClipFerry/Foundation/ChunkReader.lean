import Mathlib.Data.List.Basic

namespace ClipFerry.Foundation

variable {α : Type}

structure ChunkReader (α : Type) where
  chunks : List (List α)
  nonempty : ∀ chunk ∈ chunks, chunk ≠ []

namespace ChunkReader

def bytes (reader : ChunkReader α) : List α := reader.chunks.flatten

def bytewise (bytes : List α) : ChunkReader α where
  chunks := bytes.map ([·])
  nonempty := fun _ h => by
    obtain ⟨_, -, rfl⟩ := List.mem_map.mp h
    exact List.cons_ne_nil _ _

@[simp] theorem bytes_bytewise (bytes : List α) : (bytewise bytes).bytes = bytes := by
  induction bytes with
  | nil => rfl
  | cons b bytes ih => exact congrArg (b :: ·) ih

def read : ChunkReader α → Nat → List α × ChunkReader α
  | ⟨[], h⟩, _ => ([], ⟨[], h⟩)
  | ⟨chunk :: later, h⟩, n =>
    if hn : n < chunk.length then
      (chunk.take n, ⟨chunk.drop n :: later, fun c hc => by
        cases hc with
        | head => simpa using hn
        | tail _ hc => exact h c (.tail _ hc)⟩)
    else
      (chunk, ⟨later, fun c hc => h c (.tail _ hc)⟩)

theorem read_append (reader : ChunkReader α) (n : Nat) :
    (reader.read n).1 ++ (reader.read n).2.bytes = reader.bytes := by
  obtain ⟨_ | ⟨chunk, later⟩, h⟩ := reader
  · rfl
  · rw [read]
    split
    · simp [bytes, ← List.append_assoc]
    · simp [bytes]

theorem length_read_le (reader : ChunkReader α) (n : Nat) : (reader.read n).1.length ≤ n := by
  obtain ⟨_ | ⟨chunk, later⟩, h⟩ := reader
  · exact Nat.zero_le n
  · rw [read]
    split
    · exact List.length_take_le n chunk
    · next hn => exact Nat.not_lt.mp hn

theorem read_eq_nil {reader : ChunkReader α} {n : Nat} (hn : 0 < n) :
    (reader.read n).1 = [] ↔ reader.bytes = [] := by
  obtain ⟨_ | ⟨chunk, later⟩, h⟩ := reader
  · exact iff_of_true rfl rfl
  · have hchunk : chunk ≠ [] := h chunk (.head _)
    rw [read]
    split <;> simp [bytes, hchunk, Nat.ne_of_gt hn]

def readExact (reader : ChunkReader α) (n : Nat) : Option (List α) × ChunkReader α :=
  if 0 < n then
    if _ : (reader.read n).1 = [] then
      (none, (reader.read n).2)
    else
      let last := (reader.read n).2.readExact (n - (reader.read n).1.length)
      (last.1.map ((reader.read n).1 ++ ·), last.2)
  else
    (some [], reader)
termination_by n
decreasing_by
  have := List.length_pos_iff.mpr ‹¬(reader.read n).1 = []›
  omega

theorem readExact_whole {reader : ChunkReader α} {n : Nat} (h : n ≤ reader.bytes.length) :
    (reader.readExact n).1 = some (reader.bytes.take n) ∧
      (reader.readExact n).2.bytes = reader.bytes.drop n := by
  induction reader, n using readExact.induct with
  | case1 reader n hn hgot =>
    rw [(read_eq_nil hn).mp hgot, List.length_nil] at h
    omega
  | case2 reader n hn hgot ih =>
    have hsplit := reader.read_append n
    have hle := reader.length_read_le n
    have hlength := congrArg List.length hsplit
    rw [List.length_append] at hlength
    obtain ⟨htaken, hleft⟩ := ih (by omega)
    rw [readExact, if_pos hn, dif_neg hgot]
    dsimp only
    constructor
    · rw [htaken, ← hsplit, List.take_append, List.take_of_length_le hle]
      rfl
    · rw [hleft, ← hsplit, List.drop_append, List.drop_eq_nil_of_le hle]
      rfl
  | case3 reader n hn =>
    obtain rfl : n = 0 := by omega
    rw [readExact, if_neg hn]
    exact ⟨rfl, rfl⟩

theorem readExact_short {reader : ChunkReader α} {n : Nat} (h : reader.bytes.length < n) :
    (reader.readExact n).1 = none := by
  induction reader, n using readExact.induct with
  | case1 reader n hn hgot => rw [readExact, if_pos hn, dif_pos hgot]
  | case2 reader n hn hgot ih =>
    have hlength := congrArg List.length (reader.read_append n)
    rw [List.length_append] at hlength
    rw [readExact, if_pos hn, dif_neg hgot]
    dsimp only
    rw [ih (by omega)]
    rfl
  | case3 reader n hn => omega

end ChunkReader

end ClipFerry.Foundation
