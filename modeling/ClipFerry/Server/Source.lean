import ClipFerry.VirtualTree.Descriptor
import Mathlib.Data.Vector.Defs

namespace ClipFerry.Server

open VirtualTree

structure ReadAtSource where
  len : UInt64
  readAt (attempt offset length : Nat) : Except HResult (Nat × List.Vector UInt8 length)

namespace ReadAtSource

def Bounded (source : ReadAtSource) : Prop := ∀ attempt offset length read buffer,
  source.readAt attempt offset length = .ok (read, buffer) → read ≤ length

def Serves (source : ReadAtSource) (content : List UInt8) : Prop :=
  ∀ attempt offset length read buffer, 0 < length →
    source.readAt attempt offset length = .ok (read, buffer) →
      read ≤ length ∧ buffer.val.take read = (content.drop offset).take read

def Steady (source : ReadAtSource) : Prop := ∀ attempt attempt' offset length read read' buffer buffer',
  source.readAt attempt offset length = .ok (read, buffer) →
    source.readAt attempt' offset length = .ok (read', buffer') → read = read'

end ReadAtSource

def memorySource (bytes : List UInt8) : ReadAtSource where
  len := .ofNat bytes.length
  readAt _ offset length := .ok (min (bytes.length - offset) length,
    ⟨(bytes.drop offset).take length ++ List.replicate (length - (bytes.length - offset)) 0,
      by rw [List.length_append, List.length_take, List.length_drop, List.length_replicate]; omega⟩)

theorem memorySource_bounded (bytes : List UInt8) : (memorySource bytes).Bounded := by
  intro attempt offset length read buffer h
  cases h
  exact Nat.min_le_right _ _

theorem memorySource_serves (bytes : List UInt8) : (memorySource bytes).Serves bytes := by
  intro attempt offset length read buffer hpos h
  cases h
  refine ⟨Nat.min_le_right _ _, ?_⟩
  have hlength : min (bytes.length - offset) length ≤ ((bytes.drop offset).take length).length := by
    rw [List.length_take, List.length_drop]
    omega
  rw [List.take_append_of_le_length hlength, List.take_take]
  congr 1
  omega

end ClipFerry.Server
