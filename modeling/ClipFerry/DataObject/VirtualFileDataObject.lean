import ClipFerry.DataObject.FileDescriptor
import ClipFerry.Stream.VirtualStream

namespace ClipFerry.DataObject

open Checked Server ClipFerry.Stream VirtualTree

def targetDeviceError : HResult := .other 0x80040065

def lindexError : HResult := .other 0x80040068

def tymedError : HResult := .other 0x80040069

def aspectError : HResult := .other 0x8004006B

def pointerError : HResult := .other 0x80004003

def notImplementedError : HResult := .other 0x80004001

def outOfMemoryError : HResult := .other 0x8007000E

def aspectContent : UInt32 := 1

def tymedHglobal : UInt32 := 1

def tymedIstream : UInt32 := 4

def dropEffectCopy : UInt32 := 1

def datadirGet : UInt32 := 1

structure ClipboardFormats where
  descriptor : UInt16
  contents : UInt16
  preferredEffect : UInt16
  origin : UInt16
deriving DecidableEq

def ClipboardFormats.ids (formats : ClipboardFormats) : List UInt16 :=
  [formats.descriptor, formats.contents, formats.preferredEffect, formats.origin]

-- a null `ptd` is 0
structure FormatEtc where
  cfFormat : UInt16
  ptd : UInt64
  dwAspect : UInt32
  lindex : Int32
  tymed : UInt32
deriving DecidableEq

def formatEtc (format : UInt16) (index : Int32) (medium : UInt32) : FormatEtc :=
  ⟨format, 0, aspectContent, index, medium⟩

def ClipboardFormats.enumerated (formats : ClipboardFormats) (firstContentIndex : Option Int32) :
    List FormatEtc :=
  formatEtc formats.descriptor (-1) tymedHglobal ::
    (firstContentIndex.toList.map fun index => formatEtc formats.contents index tymedIstream) ++
    [formatEtc formats.preferredEffect (-1) tymedHglobal,
      formatEtc formats.origin (-1) tymedHglobal]

structure FormatEnumerator where
  formats : List FormatEtc
  position : Nat

namespace FormatEnumerator

def available (enumerator : FormatEnumerator) : Nat :=
  enumerator.formats.length - enumerator.position

def advance (enumerator : FormatEnumerator) (count : Nat) : FormatEnumerator :=
  { enumerator with position := enumerator.position + count }

/-! `next` answers whether it fetched all that was requested, and what it wrote. -/

def next (enumerator : FormatEnumerator) (requested : UInt32) (outputNull fetchedNull : Bool) :
    Except HResult (Bool × List FormatEtc) × FormatEnumerator :=
  if requested ≠ 1 ∧ fetchedNull = true then (.error pointerError, enumerator)
  else if requested ≠ 0 ∧ outputNull = true then (.error pointerError, enumerator)
  else
    let fetched := min requested.toNat enumerator.available
    (.ok (decide (fetched = requested.toNat),
        (enumerator.formats.drop enumerator.position).take fetched),
      enumerator.advance fetched)

def skip (enumerator : FormatEnumerator) (requested : UInt32) : Bool × FormatEnumerator :=
  let skipped := min requested.toNat enumerator.available
  (decide (skipped = requested.toNat), enumerator.advance skipped)

def reset (enumerator : FormatEnumerator) : FormatEnumerator := { enumerator with position := 0 }

end FormatEnumerator

inductive EnumeratorStep : FormatEnumerator → FormatEnumerator → Prop
  | next {enumerator : FormatEnumerator} (requested : UInt32) (outputNull fetchedNull : Bool) :
      EnumeratorStep enumerator (enumerator.next requested outputNull fetchedNull).2
  | skip {enumerator : FormatEnumerator} (requested : UInt32) :
      EnumeratorStep enumerator (enumerator.skip requested).2
  | reset {enumerator : FormatEnumerator} : EnumeratorStep enumerator enumerator.reset

/-! What the n-th call of a factory returns. -/

abbrev SourceFactory := Nat → ReadAtSource

structure VirtualFileEntry where
  descriptor : VirtualFileDescriptor
  sourceFactory : Option SourceFactory

inductive StgMedium where
  | hglobal (bytes : List UInt8)
  | istream (fileName : Text) (stream : VirtualStream)

structure VirtualFileDataObject where
  formats : ClipboardFormats
  entries : List VirtualFileEntry
  originPayload : List UInt8

def checkEntry (entry : VirtualFileEntry) : Except HResult Unit :=
  if entry.descriptor.isDirectory = true then
    if entry.descriptor.size ≠ 0 ∨ entry.sourceFactory.isSome = true then .error .invalidArg
    else .ok ()
  else if entry.sourceFactory.isNone = true then .error .invalidArg
  else .ok ()

def validateVirtualEntries (toLowercase : Char → Text) (entries : List VirtualFileEntry) :
    Except HResult Unit :=
  if entries = [] ∨ maxVirtualItems < entries.length then .error .invalidArg
  else do
    entries.forM checkEntry
    validateVirtualDescriptorTree toLowercase (entries.map (·.descriptor))

def indexOf (lindex : Int32) : Option Nat :=
  if 0 ≤ lindex.toInt then some lindex.toInt.toNat else none

/-! `allocate` is what the system answers to a request for that many bytes. -/

def hglobalMedium (allocate : Nat → Except HResult Unit) (bytes : List UInt8) :
    Except HResult StgMedium := do
  allocate (max bytes.length 1)
  .ok (.hglobal (bytes ++ List.replicate (max bytes.length 1 - bytes.length) 0))

def descriptorOffset : Nat := 4

def writeAt (bytes : List UInt8) (offset : Nat) (chunk : List UInt8) : List UInt8 :=
  bytes.take offset ++ (chunk ++ bytes.drop (offset + chunk.length))

def writeDescriptors (bytes : List UInt8) :
    Nat → List VirtualFileEntry → Except HResult (List UInt8)
  | _, [] => .ok bytes
  | index, entry :: rest => do
    let descriptor ← fileDescriptor entry.descriptor
    writeDescriptors (writeAt bytes (descriptorOffset + index * descriptorSize) descriptor.bytes)
      (index + 1) rest

namespace VirtualFileDataObject

variable (object : VirtualFileDataObject) (allocate : Nat → Except HResult Unit)

def expected (format : FormatEtc) : Except HResult (Int32 × UInt32) :=
  if format.cfFormat = object.formats.descriptor ∨
      format.cfFormat = object.formats.preferredEffect ∨
      format.cfFormat = object.formats.origin then .ok (-1, tymedHglobal)
  else if format.cfFormat = object.formats.contents then
    match indexOf format.lindex with
    | none => .error lindexError
    | some index =>
      if (object.entries[index]?.bind (·.sourceFactory)).isNone = true then .error lindexError
      else .ok (format.lindex, tymedIstream)
  else .error .formatEtc

def validate (format : FormatEtc) : Except HResult Unit :=
  if format.ptd ≠ 0 then .error targetDeviceError
  else if format.dwAspect ≠ aspectContent then .error aspectError
  else do
    let expected ← object.expected format
    if format.lindex ≠ expected.1 then .error lindexError
    else if format.tymed &&& expected.2 = 0 then .error tymedError
    else .ok ()

def fileDescriptorMedium : Except HResult StgMedium :=
  if usizeLimit ≤ object.entries.length * descriptorSize then .error outOfMemoryError
  else match checkedAddUsize descriptorOffset (object.entries.length * descriptorSize) with
  | none => .error outOfMemoryError
  | some allocationSize =>
    if 2 ^ 32 ≤ object.entries.length then .error .invalidArg
    else do
      let bytes ← writeDescriptors (writeAt (List.replicate allocationSize 0) 0
        (le32 (.ofNat object.entries.length))) 0 object.entries
      hglobalMedium allocate bytes

def contentsMedium (attempt : Nat) (lindex : Int32) : Except HResult StgMedium :=
  match indexOf lindex with
  | none => .error lindexError
  | some index => match object.entries[index]? with
    | none => .error lindexError
    | some entry => match entry.sourceFactory with
      | none => .error lindexError
      | some sourceFactory =>
        if (sourceFactory attempt).len ≠ entry.descriptor.size then .error .unexpected
        else .ok (.istream entry.descriptor.fileName ⟨sourceFactory attempt, 0⟩)

def mediumFor (attempt : Nat) (format : FormatEtc) : Except HResult StgMedium :=
  if format.cfFormat = object.formats.descriptor then object.fileDescriptorMedium allocate
  else if format.cfFormat = object.formats.contents then
    object.contentsMedium attempt format.lindex
  else if format.cfFormat = object.formats.preferredEffect then
    hglobalMedium allocate (le32 dropEffectCopy)
  else if format.cfFormat = object.formats.origin then hglobalMedium allocate object.originPayload
  else .error .formatEtc

def getData (attempt : Nat) (format : Option FormatEtc) : Except HResult StgMedium :=
  match format with
  | none => .error pointerError
  | some format => do
    object.validate format
    object.mediumFor allocate attempt format

def queryGetData (format : Option FormatEtc) : Except HResult Unit :=
  match format with
  | none => .error pointerError
  | some format => object.validate format

def firstContentIndex : Option Int32 :=
  (object.entries.findIdx? (·.sourceFactory.isSome)).bind fun index =>
    if index < 2 ^ 31 then some (.ofNat index) else none

def enumFormatEtc (direction : UInt32) : Except HResult FormatEnumerator :=
  if direction ≠ datadirGet then .error notImplementedError
  else .ok ⟨object.formats.enumerated object.firstContentIndex, 0⟩

end VirtualFileDataObject

/-! What a reader of the clipboard makes of a group descriptor. -/

def groupCount (bytes : List UInt8) : Nat := (readU32 bytes 0).toNat

def readItem (bytes : List UInt8) (index : Nat) : Option VirtualFileDescriptor :=
  if index < groupCount bytes then
    readDescriptor ((bytes.drop (descriptorOffset + index * descriptorSize)).take descriptorSize)
  else none

end ClipFerry.DataObject
