import ClipFerry.Stream.Cursor

namespace ClipFerry.Loopback

open ClipFerry.Stream Server VirtualTree

inductive TransferControlState where
  | running
  | paused
  | cancelled
deriving DecidableEq, Repr

namespace TransferControlState

def pause : TransferControlState → TransferControlState
  | running | paused => paused
  | cancelled => cancelled

def resume : TransferControlState → TransferControlState
  | running | paused => running
  | cancelled => cancelled

def cancel : TransferControlState → TransferControlState := fun _ => cancelled

end TransferControlState

/-! Where a caller of wait_for_chunk is between two sections that hold the lock. -/

inductive Wait where
  | entering
  | paused
  | throttled
deriving DecidableEq, Repr

inductive WaitOutcome where
  | sleeps (wait : Wait)
  | returns (result : Except HResult Unit)

namespace Wait

def look (delay : Nat) : TransferControlState → WaitOutcome
  | .cancelled => .returns (.error .cancelled)
  | .paused => .sleeps paused
  | .running => if delay = 0 then .returns (.ok ()) else .sleeps throttled

def waitForChunk (delay : Nat) (timedOut : Bool) (state : TransferControlState) : Wait → WaitOutcome
  | entering | paused => look delay state
  | throttled => if timedOut = true then .returns (.ok ()) else look delay state

variable {delay : Nat} {timedOut : Bool} {state : TransferControlState} {wait wait' : Wait}
  {result : Except HResult Unit}

theorem look_returns (h : look delay state = .returns result) :
    (state = .cancelled ∧ result = .error .cancelled) ∨
      (state = .running ∧ delay = 0 ∧ result = .ok ()) := by
  cases state with
  | cancelled =>
    cases h
    exact .inl ⟨rfl, rfl⟩
  | paused => cases h
  | running =>
    rw [look] at h
    split at h
    · next hzero =>
      cases h
      exact .inr ⟨rfl, hzero, rfl⟩
    · cases h

theorem look_sleeps (h : look delay state = .sleeps wait) :
    (state = .paused ∧ wait = paused) ∨ (state = .running ∧ delay ≠ 0 ∧ wait = throttled) := by
  cases state with
  | cancelled => cases h
  | paused =>
    cases h
    exact .inl ⟨rfl, rfl⟩
  | running =>
    rw [look] at h
    split at h
    · cases h
    · next hnonzero =>
      cases h
      exact .inr ⟨rfl, hnonzero, rfl⟩

theorem waitForChunk_cases (delay : Nat) (timedOut : Bool) (state : TransferControlState)
    (wait : Wait) :
    (wait = throttled ∧ timedOut = true ∧
      waitForChunk delay timedOut state wait = .returns (.ok ())) ∨
    waitForChunk delay timedOut state wait = look delay state := by
  cases wait with
  | entering | paused => exact .inr rfl
  | throttled =>
    rw [waitForChunk]
    split
    · next htimedOut => exact .inl ⟨rfl, htimedOut, rfl⟩
    · exact .inr rfl

end Wait

def generatedByte (offset : UInt64) : UInt8 := offset.toUInt8 * 31 + 0xA5

def generated (offset length : Nat) : List UInt8 :=
  (List.range length).map fun index => generatedByte (.ofNat (offset + index))

@[simp] theorem length_generated (offset length : Nat) : (generated offset length).length = length := by
  simp [generated]

theorem generated_add (offset first second : Nat) :
    generated offset (first + second) = generated offset first ++ generated (offset + first) second := by
  simp [generated, List.range_add, Nat.add_assoc]

theorem generated_part {offset length size : Nat} (h : offset + length ≤ size) :
    ((generated 0 size).drop offset).take length = generated offset length := by
  obtain ⟨rest, rfl⟩ := Nat.exists_eq_add_of_le h
  rw [Nat.add_assoc, generated_add, List.drop_left' (length_generated 0 offset), generated_add,
    List.take_left' (length_generated _ _), Nat.zero_add]

def untouched (length : Nat) : List.Vector UInt8 length :=
  ⟨List.replicate length 0, List.length_replicate⟩

def filled (bytes : List UInt8) (length : Nat) : List.Vector UInt8 length :=
  ⟨(bytes ++ List.replicate (length - bytes.length) 0).take length, by
    rw [List.length_take, List.length_append, List.length_replicate]
    omega⟩

theorem take_filled {bytes : List UInt8} {length : Nat} (h : bytes.length ≤ length) :
    (filled bytes length).val.take bytes.length = bytes := by
  rw [filled, List.take_take, Nat.min_eq_left h, List.take_left]

end ClipFerry.Loopback
