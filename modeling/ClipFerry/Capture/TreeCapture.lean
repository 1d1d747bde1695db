import ClipFerry.Foundation.Utf16
import ClipFerry.Product.Publish
import ClipFerry.Product.TotalSize
import Mathlib.Data.List.Sort

namespace ClipFerry.Capture

open VirtualTree Local Product Checked

def maxCaptureRoots : Nat := 256

structure OpenedFile where
  information : Except HResult FileInformation
  fileType : UInt32

/-! What `std::path` and the system answer for a path. Links are followed, so paths that differ can
lead to one directory, and a directory can be found again below itself. -/

structure FileSystem where
  isAbsolute (path : Text) : Bool
  fileName (path : Text) : Option Text
  join (path name : Text) : Text
  getFileAttributes (path : Text) : Except HResult UInt32
  openSnapshotHandle (path : Text) : Except HResult OpenedFile
  readDir (path : Text) : Except HResult (List (Except HResult (List UInt16)))

def windows {α : Type} (result : Except HResult α) : Except CaptureError α :=
  result.mapError .windows

def rejecting {α : Type} (result : Except CaptureRejection α) : Except CaptureError α :=
  result.mapError .rejected

def toStr (name : List UInt16) : Except CaptureError Text :=
  match Utf16.decode name with
  | some text => .ok text
  | none => .error (.rejected .nonUnicodeName)

def pathWide (path : Text) : Except HResult (List UInt16) :=
  if '\x00' ∈ path then .error .invalidArg else .ok (Utf16.encode path ++ [0])

def validateVirtualFileName (name : Text) : Except HResult Unit := validateVirtualPathComponent name

structure CaptureState where
  entries : List FileSnapshot
  totalPathUnits : Nat
  activeDirectories : List FileIdentity

def CaptureState.push (state : CaptureState) (snapshot : FileSnapshot) (total : Nat) :
    CaptureState :=
  { state with entries := state.entries ++ [snapshot], totalPathUnits := total }

def CaptureState.enter (state : CaptureState) (identity : FileIdentity) : CaptureState :=
  { state with activeDirectories := identity :: state.activeDirectories }

def CaptureState.leave (state : CaptureState) (identity : FileIdentity) : CaptureState :=
  { state with activeDirectories := state.activeDirectories.erase identity }

/-! A child is its name and its path. `lowercase` is `str::to_lowercase`. -/

abbrev ChildEntry := Text × Text

def compareChildren (lowercase : Text → Text) : ChildEntry → ChildEntry → Ordering :=
  compareLex (compareOn fun child => lowercase child.1) (compareOn fun child => child.1)

def CaseFolded (lowercase : Text → Text) (left right : ChildEntry) : Prop :=
  (compareChildren lowercase left right).isLE = true

instance (lowercase : Text → Text) : DecidableRel (CaseFolded lowercase) := fun left right =>
  inferInstanceAs (Decidable ((compareChildren lowercase left right).isLE = true))

def sortChildren (lowercase : Text → Text) (children : List ChildEntry) : List ChildEntry :=
  children.insertionSort (CaseFolded lowercase)

def childVirtualPath (virtualPath name : Text) : Text := virtualPath ++ '\\' :: name

def replaceSlash (path : Text) : Text := path.map fun c => if c = '/' then '\\' else c

def descendantPrefix (root : Text) : Text := root.rdropWhile (· == '\\') ++ ['\\']

def rootsOverlap (normalizedRoots : List Text) : Bool :=
  normalizedRoots.zipIdx.any fun root => normalizedRoots.zipIdx.any fun candidate =>
    candidate.2 != root.2 && (candidate.1 == root.1 ||
      (descendantPrefix root.1).isPrefixOf candidate.1)

namespace FileSystem

variable (files : FileSystem) (lowercase : Text → Text)

def captureAt (path virtualPath : Text) (allowDirectory : Bool) :
    Except CaptureError FileSnapshot :=
  if files.isAbsolute path = false then .error (.rejected .invalidPath)
  else do
    windows (validateVirtualPath virtualPath)
    let _ ← windows (pathWide path)
    let pathAttributes ← windows (files.getFileAttributes path)
    rejecting (rejectAttributesForCapture pathAttributes allowDirectory)
    let file ← windows (files.openSnapshotHandle path)
    let information ← windows file.information
    rejecting (rejectAttributesForCapture information.dwFileAttributes allowDirectory)
    if file.fileType ≠ fileTypeDisk then .error (.rejected .nonDiskFile)
    else .ok (.fromInformation path virtualPath information)

def readChild (path : Text) (child : Except HResult (List UInt16)) :
    Except CaptureError ChildEntry := do
  let child ← windows child
  let name ← toStr child
  windows (validateVirtualFileName name)
  .ok (name, files.join path name)

def readChildren (path : Text) : Except CaptureError (List ChildEntry) := do
  let readDirectory ← windows (files.readDir path)
  readDirectory.mapM (files.readChild path)

-- `levels` is what the depth of the entry leaves of the allowed depth
def captureTreeEntry : Nat → Text → Text → CaptureState → Except CaptureError CaptureState
  | 0, _, _, _ => .error (.rejected .treeTooDeep)
  | levels + 1, path, virtualPath, state => do
    let snapshot ← files.captureAt path virtualPath true
    match checkedAddUsize state.totalPathUnits (utf16Count virtualPath) with
    | none => .error (.rejected .manifestTooLarge)
    | some total =>
      if maxVirtualItems ≤ state.entries.length ∨ maxTotalVirtualPathU16 < total then
        .error (.rejected .manifestTooLarge)
      else if snapshot.isDirectory = false then .ok (state.push snapshot total)
      -- the entry of a directory that is being walked already is an empty boundary
      else if snapshot.identity ∈ state.activeDirectories then .ok (state.push snapshot total)
      else do
        let children ← files.readChildren path
        let walked ← (sortChildren lowercase children).foldlM (fun state child =>
          captureTreeEntry levels child.2 (childVirtualPath virtualPath child.1) state)
          ((state.push snapshot total).enter snapshot.identity)
        .ok (walked.leave snapshot.identity)

def captureRoot (state : CaptureState) (path : Text) : Except CaptureError CaptureState :=
  if files.isAbsolute path = false then .error (.rejected .invalidPath)
  else match files.fileName path with
  | none => .error (.rejected .nonUnicodeName)
  | some rootName => do
    windows (validateVirtualFileName rootName)
    files.captureTreeEntry lowercase maxVirtualDepth path rootName state

-- the paths that `to_str` gives have the same text as the paths themselves
def capture (toLowercase : Char → Text) (paths : List (List UInt16)) :
    Except CaptureError FileTreeSnapshot :=
  if paths = [] ∨ maxCaptureRoots < paths.length then .error (.rejected .tooManyItems)
  else do
    let roots ← paths.mapM toStr
    if rootsOverlap (roots.map fun root => lowercase (replaceSlash root)) = true then
      .error (.rejected .invalidPath)
    else do
      let state ← roots.foldlM (files.captureRoot lowercase) ⟨[], 0, []⟩
      windows (validateVirtualDescriptorTree toLowercase (state.entries.map (·.descriptor)))
      let _ ← rejecting (capturedTotal state.entries)
      .ok ⟨state.entries⟩

end FileSystem

def fileSizes (tree : FileTreeSnapshot) : List UInt64 :=
  (tree.entries.filter fun entry => !entry.isDirectory).map (·.size)

def totalSize (tree : FileTreeSnapshot) : UInt64 := (fileSizes tree).sum

end ClipFerry.Capture
