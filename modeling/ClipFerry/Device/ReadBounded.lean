import ClipFerry.Device.WriteNewAtomic

namespace ClipFerry.Device

open Foundation Protocol VirtualTree

def irregular (limit : Nat) (description : String) : IoError :=
  invalidData s!"{description} must be a regular file between 1 and {limit} bytes"

def takeBounded (limit : Nat) (description : String) (bytes : List UInt8) :
    Except IoError (List UInt8) :=
  if limit < bytes.length then .error (invalidData s!"{description} exceeds {limit} bytes")
  else .ok bytes

def readBounded (directory : Directory) (path : Text) (limit : Nat) (description : String) :
    Except IoError (List UInt8) :=
  match directory.read path with
  | none => .error notFound
  | some contents =>
    if contents.length = 0 ∨ limit < contents.length then .error (irregular limit description)
    else takeBounded limit description (contents.take (limit + 1))

inductive ReadPhase where
  | statting
  | opening
  | reading (file : Nat) (bytes : List UInt8)
  | finished (result : Except IoError (List UInt8))

inductive ReadStep (path : Text) (limit : Nat) (description : String) (directory : Directory) :
    ReadPhase → ReadPhase → Prop
  | failed {phase : ReadPhase} (error : IoError) (hactive : ∀ result, phase ≠ .finished result) :
      ReadStep path limit description directory phase (.finished (.error error))
  | refused {file : Nat} (hfound : directory.find path = some file)
      (hlength : (directory.content file).length = 0 ∨
        limit < (directory.content file).length) :
      ReadStep path limit description directory .statting
        (.finished (.error (irregular limit description)))
  | statted {file : Nat} (hfound : directory.find path = some file)
      (hlength : 0 < (directory.content file).length ∧ (directory.content file).length ≤ limit) :
      ReadStep path limit description directory .statting .opening
  | opened {file : Nat} (hfound : directory.find path = some file) :
      ReadStep path limit description directory .opening (.reading file [])
  | got {file : Nat} {bytes : List UInt8} (count : Nat) (hcount : 0 < count)
      (hfits : bytes.length + count ≤ min (directory.content file).length (limit + 1)) :
      ReadStep path limit description directory (.reading file bytes)
        (.reading file (bytes ++ ((directory.content file).drop bytes.length).take count))
  | ended {file : Nat} {bytes : List UInt8}
      (hend : (directory.content file).length ≤ bytes.length ∨ bytes.length = limit + 1) :
      ReadStep path limit description directory (.reading file bytes)
        (.finished (takeBounded limit description bytes))

variable {directory directory' : Directory} {path : Text} {limit : Nat} {description : String}
  {bytes contents : List UInt8} {phase phase' : ReadPhase}

theorem takeBounded_eq_ok :
    takeBounded limit description bytes = .ok contents ↔ bytes.length ≤ limit ∧ bytes = contents := by
  rw [takeBounded, Checked.guard_eq_ok, Nat.not_lt, Except.ok.injEq]

theorem readBounded_eq_ok : readBounded directory path limit description = .ok contents ↔
    directory.read path = some contents ∧ contents ≠ [] ∧ contents.length ≤ limit := by
  rw [readBounded]
  cases directory.read path with
  | none => simp
  | some found =>
    rw [Checked.guard_eq_ok, takeBounded_eq_ok, not_or, Nat.not_lt, List.length_eq_zero_iff,
      Option.some.injEq]
    constructor
    · rintro ⟨⟨hnonempty, hfits⟩, -, hsame⟩
      rw [List.take_of_length_le (Nat.le_succ_of_le hfits)] at hsame
      exact hsame ▸ ⟨rfl, hnonempty, hfits⟩
    · rintro ⟨rfl, hnonempty, hfits⟩
      rw [List.take_of_length_le (Nat.le_succ_of_le hfits)]
      exact ⟨⟨hnonempty, hfits⟩, hfits, rfl⟩

def Reads (directory : Directory) (path : Text) (limit : Nat) : ReadPhase → Prop
  | .statting | .opening | .finished (.error _) => True
  | .reading file bytes =>
      directory.find path = some file ∧ bytes.length ≤ limit + 1 ∧ bytes <+: directory.content file
  | .finished (.ok bytes) => directory.read path = some bytes ∧ bytes.length ≤ limit

theorem Reads.frame (h : Reads directory path limit phase)
    (hkept : ∀ {file}, directory.find path = some file →
      directory'.find path = some file ∧ directory'.content file = directory.content file) :
    Reads directory' path limit phase := by
  cases phase with
  | statting | opening => trivial
  | reading file bytes =>
    obtain ⟨hfind, hlength, hprefix⟩ := h
    obtain ⟨hfind', hcontent⟩ := hkept hfind
    exact ⟨hfind', hlength, hcontent ▸ hprefix⟩
  | finished result =>
    cases result with
    | error => trivial
    | ok bytes =>
      obtain ⟨hread, hlength⟩ := h
      obtain ⟨file, hfind, hbytes⟩ := Option.map_eq_some_iff.mp hread
      obtain ⟨hfind', hcontent⟩ := hkept hfind
      exact ⟨by rw [Volume.read, hfind', Option.map_some, hcontent, hbytes], hlength⟩

theorem ReadStep.reads (h : ReadStep path limit description directory phase phase')
    (hreads : Reads directory path limit phase) : Reads directory path limit phase' := by
  cases h with
  | failed | refused | statted => trivial
  | opened hfound => exact ⟨hfound, Nat.zero_le _, List.nil_prefix⟩
  | @got file bytes count hcount hfits =>
    obtain ⟨hfound, hlength, rest, hrest⟩ := hreads
    rw [← hrest, List.length_append] at hfits
    have hsplit : bytes ++ ((directory.content file).drop bytes.length).take count =
        bytes ++ rest.take count := by rw [← hrest, List.drop_left]
    rw [hsplit]
    refine ⟨hfound, ?_, rest.drop count, ?_⟩
    · rw [List.length_append, List.length_take]
      omega
    · rw [List.append_assoc, List.take_append_drop, hrest]
  | @ended file bytes hend =>
    obtain ⟨hfound, hlength, hprefix⟩ := hreads
    rw [takeBounded]
    split
    · trivial
    · next hfits =>
      refine ⟨?_, Nat.not_lt.mp hfits⟩
      have hwhole : bytes = directory.content file :=
        hprefix.eq_of_length_le (hend.resolve_right (by omega))
      rw [Volume.read, hfound, Option.map_some, hwhole]

end ClipFerry.Device
