import ClipFerry.Foundation.ByteField
import ClipFerry.Foundation.Utf16
import ClipFerry.Local.StableFile
import ClipFerry.VirtualTree.Containment

namespace ClipFerry.DataObject

open ByteField Checked VirtualTree
open Local (joinWords joinWords_split)

def fdAttributes : UInt32 := 0x4

def fdCreateTime : UInt32 := 0x8

def fdAccessTime : UInt32 := 0x10

def fdWritesTime : UInt32 := 0x20

def fdFileSize : UInt32 := 0x40

def fdUnicode : UInt32 := 0x80000000

def fileNameUnits : Nat := 260

structure FileDescriptorW where
  dwFlags : UInt32
  clsid : List.Vector UInt8 16
  sizel : List.Vector UInt8 8
  pointl : List.Vector UInt8 8
  dwFileAttributes : UInt32
  ftCreationTime : FileTime
  ftLastAccessTime : FileTime
  ftLastWriteTime : FileTime
  nFileSizeHigh : UInt32
  nFileSizeLow : UInt32
  cFileName : List.Vector UInt16 fileNameUnits

def zeroTime : FileTime := ⟨0, 0⟩

theorem length_written (destination : List.Vector UInt16 fileNameUnits) {encoded : List UInt16}
    (h : encoded.length < fileNameUnits) :
    (encoded ++ 0 :: destination.val.drop (encoded.length + 1)).length = fileNameUnits := by
  have hlength := destination.property
  rw [List.length_append, List.length_cons, List.length_drop]
  omega

-- a slice or an index beyond `destination` panics, and the callback boundary turns it to an error
def writeFileName (destination : List.Vector UInt16 fileNameUnits) (name : Text) :
    Except HResult (List.Vector UInt16 fileNameUnits) := do
  validateVirtualPath name
  let encoded := Utf16.encode name
  if h : encoded.length < fileNameUnits then
    .ok ⟨encoded ++ 0 :: destination.val.drop (encoded.length + 1), length_written destination h⟩
  else .error .unexpected

def descriptorFlags (directory creation access write : Bool) : UInt32 :=
  let flags := fdAttributes ||| fdUnicode
  let flags := if directory = false then flags ||| fdFileSize else flags
  let flags := if creation = true then flags ||| fdCreateTime else flags
  let flags := if access = true then flags ||| fdAccessTime else flags
  if write = true then flags ||| fdWritesTime else flags

def fileDescriptor (metadata : VirtualFileDescriptor) : Except HResult FileDescriptorW := do
  let cFileName ← writeFileName ⟨List.replicate fileNameUnits 0, List.length_replicate⟩
    metadata.fileName
  .ok {
    dwFlags := descriptorFlags metadata.isDirectory metadata.creationTime.isSome
      metadata.lastAccessTime.isSome metadata.lastWriteTime.isSome
    clsid := ⟨List.replicate 16 0, rfl⟩
    sizel := ⟨List.replicate 8 0, rfl⟩
    pointl := ⟨List.replicate 8 0, rfl⟩
    dwFileAttributes := metadata.attributes
    ftCreationTime := metadata.creationTime.getD zeroTime
    ftLastAccessTime := metadata.lastAccessTime.getD zeroTime
    ftLastWriteTime := metadata.lastWriteTime.getD zeroTime
    nFileSizeHigh := (metadata.size >>> 32).toUInt32
    nFileSizeLow := metadata.size.toUInt32
    cFileName := cFileName }

def le16 (value : UInt16) : List UInt8 := toBytesLe 2 value.toNat

def le32 (value : UInt32) : List UInt8 := toBytesLe 4 value.toNat

def timeBytes (time : FileTime) : List UInt8 := le32 time.dwLowDateTime ++ le32 time.dwHighDateTime

def FileDescriptorW.bytes (descriptor : FileDescriptorW) : List UInt8 :=
  le32 descriptor.dwFlags ++ (descriptor.clsid.val ++ (descriptor.sizel.val ++
    (descriptor.pointl.val ++ (le32 descriptor.dwFileAttributes ++
      (timeBytes descriptor.ftCreationTime ++ (timeBytes descriptor.ftLastAccessTime ++
        (timeBytes descriptor.ftLastWriteTime ++ (le32 descriptor.nFileSizeHigh ++
          (le32 descriptor.nFileSizeLow ++ descriptor.cFileName.val.flatMap le16)))))))))

def descriptorSize : Nat := 592

/-! What a reader of the clipboard makes of a descriptor. -/

def readU16 (bytes : List UInt8) (offset : Nat) : UInt16 :=
  .ofNat (ofBytesLe ((bytes.drop offset).take 2))

def readU32 (bytes : List UInt8) (offset : Nat) : UInt32 :=
  .ofNat (ofBytesLe ((bytes.drop offset).take 4))

def readTime (bytes : List UInt8) (offset : Nat) : FileTime :=
  ⟨readU32 bytes offset, readU32 bytes (offset + 4)⟩

def readUnits (bytes : List UInt8) : Nat → Nat → List UInt16
  | _, 0 => []
  | offset, count + 1 => readU16 bytes offset :: readUnits bytes (offset + 2) count

def readFlagged (flags flag : UInt32) (time : FileTime) : Option FileTime :=
  if flags &&& flag ≠ 0 then some time else none

def readDescriptor (bytes : List UInt8) : Option VirtualFileDescriptor := do
  let fileName ← Utf16.decode ((readUnits bytes 72 fileNameUnits).takeWhile (· != 0))
  some {
    fileName := fileName
    size := joinWords (readU32 bytes 64) (readU32 bytes 68)
    attributes := readU32 bytes 36
    creationTime := readFlagged (readU32 bytes 0) fdCreateTime (readTime bytes 40)
    lastAccessTime := readFlagged (readU32 bytes 0) fdAccessTime (readTime bytes 48)
    lastWriteTime := readFlagged (readU32 bytes 0) fdWritesTime (readTime bytes 56) }

@[simp] theorem length_le32 (value : UInt32) : (le32 value).length = 4 := length_toBytesLe _ _

@[simp] theorem length_timeBytes (time : FileTime) : (timeBytes time).length = 8 := by
  rw [timeBytes, List.length_append, length_le32, length_le32]

@[simp] theorem length_le16s (units : List UInt16) :
    (units.flatMap le16).length = 2 * units.length := by
  induction units with
  | nil => rfl
  | cons unit units ih =>
    rw [List.flatMap_cons, List.length_append, ih, le16, length_toBytesLe, List.length_cons]
    omega

theorem length_bytes (descriptor : FileDescriptorW) :
    descriptor.bytes.length = descriptorSize := by
  simp only [FileDescriptorW.bytes, List.length_append, length_le32, length_timeBytes,
    length_le16s, descriptor.clsid.property, descriptor.sizel.property,
    descriptor.pointl.property, descriptor.cFileName.property]
  rfl

variable {bytes rest : List UInt8} {offset : Nat}

theorem readU32_of_remaining {value : UInt32} (h : Remaining bytes offset (le32 value ++ rest)) :
    readU32 bytes offset = value := by
  rw [readU32, h.drop, List.take_left' (length_le32 value), le32,
    ofBytesLe_toBytesLe value.toNat_lt, UInt32.ofNat_toNat]

theorem readTime_of_remaining {time : FileTime}
    (h : Remaining bytes offset (timeBytes time ++ rest)) : readTime bytes offset = time := by
  rw [timeBytes, List.append_assoc] at h
  rw [readTime, readU32_of_remaining h, readU32_of_remaining (h.skip (length_le32 _))]

theorem readUnits_of_remaining {units : List UInt16}
    (h : Remaining bytes offset (units.flatMap le16 ++ rest)) :
    readUnits bytes offset units.length = units := by
  induction units generalizing offset with
  | nil => rfl
  | cons unit units ih =>
    rw [List.flatMap_cons, List.append_assoc] at h
    have hlength : (le16 unit).length = 2 := length_toBytesLe _ _
    rw [List.length_cons, readUnits, ih (h.skip hlength), readU16, h.drop,
      List.take_left' hlength, le16, ofBytesLe_toBytesLe unit.toNat_lt, UInt16.ofNat_toNat]

theorem flags_creation (directory creation access write : Bool) :
    descriptorFlags directory creation access write &&& fdCreateTime ≠ 0 ↔ creation = true := by
  cases directory <;> cases creation <;> cases access <;> cases write <;> decide

theorem flags_access (directory creation access write : Bool) :
    descriptorFlags directory creation access write &&& fdAccessTime ≠ 0 ↔ access = true := by
  cases directory <;> cases creation <;> cases access <;> cases write <;> decide

theorem flags_write (directory creation access write : Bool) :
    descriptorFlags directory creation access write &&& fdWritesTime ≠ 0 ↔ write = true := by
  cases directory <;> cases creation <;> cases access <;> cases write <;> decide

theorem readFlagged_eq {flags flag : UInt32} {time : Option FileTime}
    (h : flags &&& flag ≠ 0 ↔ time.isSome = true) :
    readFlagged flags flag (time.getD zeroTime) = time := by
  cases time with
  | none => exact if_neg (mt h.mp nofun)
  | some time => exact if_pos (h.mpr rfl)

theorem length_encode (name : Text) : (Utf16.encode name).length = utf16Count name := by
  rw [Utf16.encode, utf16Count, List.length_flatMap]
  congr 1
  exact List.map_congr_left fun c _ => Utf16.length_encodeChar c

theorem nul_notMem {name : Text} (h : validateVirtualPath name = .ok ()) : '\x00' ∉ name := by
  intro hmem
  obtain ⟨part, hpart, hc⟩ := LexicalPath.mem_splitOnP (p := (· == '\\')) hmem (by decide)
  have hcontrol := (safeComponent_of_ok ((components_ok h).2 part hpart)).chars '\x00' hc
  exact absurd hcontrol.2 (by decide)

theorem units_of_path {name : Text} (h : validateVirtualPath name = .ok ()) :
    (Utf16.encode name).length < fileNameUnits := by
  rw [length_encode]
  obtain ⟨hguard, -⟩ := guard_eq_ok.mp h
  simp only [Bool.or_eq_true, decide_eq_true_eq, not_or, Nat.not_le] at hguard
  exact hguard.2

theorem writeFileName_eq_ok {destination : List.Vector UInt16 fileNameUnits} {name : Text}
    {written : List.Vector UInt16 fileNameUnits} :
    writeFileName destination name = .ok written ↔ validateVirtualPath name = .ok () ∧
      written.val = Utf16.encode name ++
        0 :: destination.val.drop ((Utf16.encode name).length + 1) := by
  rw [writeFileName, bind_eq_ok]
  constructor
  · rintro ⟨⟨⟩, hpath, h⟩
    simp only [dif_pos (units_of_path hpath)] at h
    cases h
    exact ⟨hpath, rfl⟩
  · rintro ⟨hpath, hwritten⟩
    refine ⟨(), hpath, ?_⟩
    simp only [dif_pos (units_of_path hpath)]
    exact congrArg Except.ok (Subtype.ext hwritten.symm)

theorem fileDescriptor_ok {metadata : VirtualFileDescriptor}
    (h : validateVirtualPath metadata.fileName = .ok ()) :
    ∃ descriptor, fileDescriptor metadata = .ok descriptor := by
  have hwritten := length_written
    ⟨List.replicate fileNameUnits 0, List.length_replicate⟩ (units_of_path h)
  exact ⟨_, bind_eq_ok.mpr ⟨⟨_, hwritten⟩, writeFileName_eq_ok.mpr ⟨h, rfl⟩, rfl⟩⟩

structure FieldsRead (descriptor : FileDescriptorW) (bytes : List UInt8) : Prop where
  dwFlags : readU32 bytes 0 = descriptor.dwFlags
  dwFileAttributes : readU32 bytes 36 = descriptor.dwFileAttributes
  ftCreationTime : readTime bytes 40 = descriptor.ftCreationTime
  ftLastAccessTime : readTime bytes 48 = descriptor.ftLastAccessTime
  ftLastWriteTime : readTime bytes 56 = descriptor.ftLastWriteTime
  nFileSizeHigh : readU32 bytes 64 = descriptor.nFileSizeHigh
  nFileSizeLow : readU32 bytes 68 = descriptor.nFileSizeLow
  cFileName : readUnits bytes 72 fileNameUnits = descriptor.cFileName.val

theorem fieldsRead_bytes (descriptor : FileDescriptorW) :
    FieldsRead descriptor descriptor.bytes := by
  have hflags : Remaining descriptor.bytes 0 (le32 descriptor.dwFlags ++ _) := .start _
  have hclsid := hflags.skip (length_le32 _)
  have hsizel := hclsid.skip descriptor.clsid.property
  have hpointl := hsizel.skip descriptor.sizel.property
  have hattributes := hpointl.skip descriptor.pointl.property
  have hcreation := hattributes.skip (length_le32 _)
  have haccess := hcreation.skip (length_timeBytes _)
  have hwrite := haccess.skip (length_timeBytes _)
  have hhigh := hwrite.skip (length_timeBytes _)
  have hlow := hhigh.skip (length_le32 _)
  have hname := hlow.skip (length_le32 _)
  rw [← List.append_nil (descriptor.cFileName.val.flatMap le16)] at hname
  have hunits := readUnits_of_remaining hname
  rw [descriptor.cFileName.property] at hunits
  exact ⟨readU32_of_remaining hflags, readU32_of_remaining hattributes,
    readTime_of_remaining hcreation, readTime_of_remaining haccess,
    readTime_of_remaining hwrite, readU32_of_remaining hhigh, readU32_of_remaining hlow, hunits⟩

theorem readDescriptor_bytes {metadata : VirtualFileDescriptor} {descriptor : FileDescriptorW}
    (h : fileDescriptor metadata = .ok descriptor) :
    readDescriptor descriptor.bytes = some metadata := by
  have hread := fieldsRead_bytes descriptor
  obtain ⟨written, hwritten, h⟩ := bind_eq_ok.mp h
  obtain ⟨hpath, hunits⟩ := writeFileName_eq_ok.mp hwritten
  cases h
  rw [readDescriptor, hread.cFileName]
  simp only [hunits, Utf16.decode_terminated (nul_notMem hpath)]
  simp only [Option.bind_eq_bind, Option.bind_some, hread.dwFlags, hread.dwFileAttributes,
    hread.ftCreationTime, hread.ftLastAccessTime, hread.ftLastWriteTime, hread.nFileSizeHigh,
    hread.nFileSizeLow, joinWords_split, readFlagged_eq (flags_creation _ _ _ _),
    readFlagged_eq (flags_access _ _ _ _), readFlagged_eq (flags_write _ _ _ _)]

end ClipFerry.DataObject
