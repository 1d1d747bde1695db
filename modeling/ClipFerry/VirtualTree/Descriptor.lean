import Mathlib.Algebra.Ring.Nat
import Mathlib.Data.List.Basic

namespace ClipFerry.VirtualTree

abbrev Text := List Char

inductive HResult where
  | invalidArg
  | formatEtc
  | unexpected
  | cancelled
  | readFault
  | timeout
  | accessDenied
  | invalidFunction
  | invalidPointer
  | fileInvalid
  | other (code : UInt32)
deriving DecidableEq, Repr

def HResult.code : HResult → UInt32
  | invalidArg => 0x80070057
  | formatEtc => 0x80040064
  | unexpected => 0x8000FFFF
  | cancelled => 0x800704C7
  | readFault => 0x8007001E
  | timeout => 0x800705B4
  | accessDenied => 0x80070005
  | invalidFunction => 0x80030001
  | invalidPointer => 0x80030009
  | fileInvalid => 0x800703EE
  | other code => code

structure FileTime where
  dwLowDateTime : UInt32
  dwHighDateTime : UInt32
deriving DecidableEq, Repr

def fileAttributeDirectory : UInt32 := 0x10

def fileAttributeNormal : UInt32 := 0x80

structure VirtualFileDescriptor where
  fileName : Text
  size : UInt64
  attributes : UInt32
  creationTime : Option FileTime
  lastAccessTime : Option FileTime
  lastWriteTime : Option FileTime
deriving DecidableEq, Repr

def VirtualFileDescriptor.basic (fileName : Text) (size : UInt64) : VirtualFileDescriptor :=
  ⟨fileName, size, fileAttributeNormal, none, none, none⟩

def VirtualFileDescriptor.isDirectory (d : VirtualFileDescriptor) : Bool :=
  d.attributes &&& fileAttributeDirectory != 0

def maxVirtualItems : Nat := 4096

def maxVirtualDepth : Nat := 64

def maxTotalVirtualPathU16 : Nat := 256 * 1024

def maxFileNameUnits : Nat := 260

def usizeLimit : Nat := 2 ^ 64

def checkedAddUsize (a b : Nat) : Option Nat :=
  if a + b < usizeLimit then some (a + b) else none

def lenUtf16 (c : Char) : Nat := if c.val < 0x10000 then 1 else 2

def utf16Count (name : Text) : Nat := (name.map lenUtf16).sum

end ClipFerry.VirtualTree
