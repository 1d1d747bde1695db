import ClipFerry.Foundation.Checked
import ClipFerry.VirtualTree.Path

namespace ClipFerry.Local

open VirtualTree Checked

inductive CaptureRejection where
  | missingCopyEffect
  | cutOperation
  | tooManyItems
  | treeTooDeep
  | manifestTooLarge
  | invalidPath
  | nonUnicodeName
  | directory
  | nonDiskFile
deriving DecidableEq, Repr

structure FileIdentity where
  volumeSerial : UInt32
  fileIndex : UInt64
deriving DecidableEq

structure FileInformation where
  dwFileAttributes : UInt32
  ftCreationTime : FileTime
  ftLastAccessTime : FileTime
  ftLastWriteTime : FileTime
  dwVolumeSerialNumber : UInt32
  nFileSizeHigh : UInt32
  nFileSizeLow : UInt32
  nFileIndexHigh : UInt32
  nFileIndexLow : UInt32
deriving DecidableEq

def joinWords (high low : UInt32) : UInt64 := (high.toUInt64 <<< 32) ||| low.toUInt64

def fileSize (information : FileInformation) : UInt64 :=
  joinWords information.nFileSizeHigh information.nFileSizeLow

def fileIdentity (information : FileInformation) : FileIdentity :=
  ⟨information.dwVolumeSerialNumber,
    joinWords information.nFileIndexHigh information.nFileIndexLow⟩

theorem joinWords_split (value : UInt64) :
    joinWords (value >>> 32).toUInt32 value.toUInt32 = value := by
  have hlt := value.toNat_lt
  apply UInt64.toNat_inj.mp
  rw [joinWords, UInt64.toNat_or, UInt64.toNat_shiftLeft]
  simp only [UInt32.toNat_toUInt64, UInt64.toNat_toUInt32, UInt64.toNat_shiftRight,
    UInt64.reduceToNat, Nat.reduceMod, Nat.shiftRight_eq_div_pow]
  rw [Nat.mod_eq_of_lt (by rw [Nat.shiftLeft_eq]; omega),
    ← Nat.shiftLeft_add_eq_or_of_lt (by omega), Nat.shiftLeft_eq]
  omega

structure FileSnapshot where
  path : Text
  fileName : Text
  size : UInt64
  attributes : UInt32
  creationTime : FileTime
  lastAccessTime : FileTime
  lastWriteTime : FileTime
  identity : FileIdentity
deriving DecidableEq

def fileAttributeReadonly : UInt32 := 0x1

def fileAttributeHidden : UInt32 := 0x2

def fileAttributeSystem : UInt32 := 0x4

def fileAttributeArchive : UInt32 := 0x20

def transferableAttributes (attributes : UInt32) : UInt32 :=
  let basic := attributes &&& (fileAttributeArchive ||| fileAttributeHidden |||
    fileAttributeReadonly ||| fileAttributeSystem)
  if attributes &&& fileAttributeDirectory ≠ 0 then basic ||| fileAttributeDirectory
  else if basic = 0 then fileAttributeNormal
  else basic

namespace FileSnapshot

def fromInformation (path fileName : Text) (information : FileInformation) : FileSnapshot where
  path := path
  fileName := fileName
  size := fileSize information
  attributes := information.dwFileAttributes
  creationTime := information.ftCreationTime
  lastAccessTime := information.ftLastAccessTime
  lastWriteTime := information.ftLastWriteTime
  identity := fileIdentity information

def isDirectory (snapshot : FileSnapshot) : Bool :=
  snapshot.attributes &&& fileAttributeDirectory != 0

def descriptor (snapshot : FileSnapshot) : VirtualFileDescriptor where
  fileName := snapshot.fileName
  size := snapshot.size
  attributes := transferableAttributes snapshot.attributes
  creationTime := some snapshot.creationTime
  lastAccessTime := some snapshot.lastAccessTime
  lastWriteTime := some snapshot.lastWriteTime

def matchesInformation (snapshot : FileSnapshot) (information : FileInformation) : Bool :=
  snapshot.size = fileSize information && snapshot.identity = fileIdentity information

end FileSnapshot

def rejectAttributesForCapture (attributes : UInt32) (allowDirectory : Bool) :
    Except CaptureRejection Unit :=
  if allowDirectory = false ∧ attributes &&& fileAttributeDirectory ≠ 0 then .error .directory
  else .ok ()

def rejectAttributes (attributes : UInt32) : Except CaptureRejection Unit :=
  rejectAttributesForCapture attributes false

def fileTypeDisk : UInt32 := 1

def sourceChangedError : HResult := .fileInvalid

def offerUnavailableError : HResult := .timeout

structure File where
  path : Text
  handle : Nat
deriving DecidableEq

/-! What the system answers about an open file at one moment of a read. -/

structure FileAnswers where
  information : Except HResult FileInformation
  fileType : UInt32
  seekRead (offset length : Nat) : Except HResult (List UInt8)

inductive Moment where
  | opening
  | reading
  | ending
deriving DecidableEq

structure Disk where
  openStableHandle (path : Text) : Except HResult Nat
  answers (moment : Moment) (file : File) : FileAnswers

structure StableFileContext where
  file : File
  snapshot : FileSnapshot
deriving DecidableEq

namespace StableFileContext

def openSnapshot (disk : Disk) (snapshot : FileSnapshot) : Except HResult StableFileContext := do
  let handle ← disk.openStableHandle snapshot.path
  let file : File := ⟨snapshot.path, handle⟩
  let information ← (disk.answers .opening file).information
  match rejectAttributes information.dwFileAttributes with
  | .error _ => .error sourceChangedError
  | .ok () =>
    if (disk.answers .opening file).fileType ≠ fileTypeDisk ∨
        snapshot.matchesInformation information = false then
      .error sourceChangedError
    else .ok ⟨file, snapshot⟩

def verify (disk : Disk) (moment : Moment) (context : StableFileContext) : Except HResult Unit := do
  let information ← (disk.answers moment context.file).information
  if context.snapshot.matchesInformation information = true then .ok ()
  else .error sourceChangedError

end StableFileContext

inductive StableFileState where
  | unstarted
  | active (context : StableFileContext)
  | failed (code : HResult)
deriving DecidableEq

structure StableFileSource where
  snapshot : FileSnapshot
  expiresAt : Nat
  revoked : Bool
  state : StableFileState
  readCalls : Nat
  bytesRead : Nat
deriving DecidableEq

namespace StableFileSource

def new (snapshot : FileSnapshot) (expiresAt : Nat) : StableFileSource :=
  ⟨snapshot, expiresAt, false, .unstarted, 0, 0⟩

def context (disk : Disk) (now : Nat) (source : StableFileSource) :
    StableFileSource × Except HResult StableFileContext :=
  match source.state with
  | .active context => (source, .ok context)
  | .failed code => (source, .error code)
  | .unstarted =>
    if source.revoked = true ∨ source.expiresAt ≤ now then
      ({ source with state := .failed offerUnavailableError }, .error offerUnavailableError)
    else match StableFileContext.openSnapshot disk source.snapshot with
    | .ok context => ({ source with state := .active context }, .ok context)
    | .error error => ({ source with state := .failed error }, .error error)

def revoke (source : StableFileSource) : StableFileSource := { source with revoked := true }

def wanted (source : StableFileSource) (offset : UInt64) (length : Nat) : Nat :=
  min length (source.snapshot.size.toNat - offset.toNat)

def readContext (disk : Disk) (source : StableFileSource) (offset : UInt64) (length : Nat)
    (context : StableFileContext) : StableFileSource × Except HResult (List UInt8) :=
  match context.verify disk .reading with
  | .error error => (source, .error error)
  | .ok () =>
    if source.snapshot.size ≤ offset then (source, .ok [])
    else match (disk.answers .reading context.file).seekRead offset.toNat
        (source.wanted offset length) with
    | .error error => (source, .error error)
    | .ok read =>
      ({ source with bytesRead := source.bytesRead + read.length },
        if read.length ≠ source.wanted offset length then .error sourceChangedError
        else if source.snapshot.size.toNat ≤ offset.toNat + read.length then do
          context.verify disk .ending
          .ok read
        else .ok read)

def readAt (disk : Disk) (now : Nat) (source : StableFileSource) (offset : UInt64)
    (length : Nat) : StableFileSource × Except HResult (List UInt8) :=
  if length = 0 then (source, .ok [])
  else match context disk now { source with readCalls := source.readCalls + 1 } with
  | (source, .error error) => (source, .error error)
  | (source, .ok context) => readContext disk source offset length context

end StableFileSource

structure StableFileContext.OpenOf (captured : FileSnapshot) (context : StableFileContext) :
    Prop where
  snapshot : context.snapshot = captured
  path : context.file.path = captured.path

theorem StableFileContext.openSnapshot_openOf {disk : Disk} {snapshot : FileSnapshot}
    {context : StableFileContext} (h : openSnapshot disk snapshot = .ok context) :
    OpenOf snapshot context := by
  obtain ⟨handle, -, h⟩ := bind_eq_ok.mp h
  obtain ⟨information, -, h⟩ := bind_eq_ok.mp h
  split at h
  · cases h
  · obtain ⟨-, h⟩ := guard_eq_ok.mp h
    cases h
    exact ⟨rfl, rfl⟩

structure StableFileSource.Evolves (source source' : StableFileSource) : Prop where
  snapshot : source'.snapshot = source.snapshot
  expiresAt : source'.expiresAt = source.expiresAt
  revoked : source.revoked = true → source'.revoked = true
  decided : source.state = .unstarted ∨ source'.state = source.state
  activated : ∀ context, source'.state = .active context → source.state = .active context ∨
    (source.revoked = false ∧ context.OpenOf source.snapshot)

namespace StableFileSource

variable {disk : Disk} {now : Nat} {source source' : StableFileSource} {context : StableFileContext}

theorem Evolves.refl (source : StableFileSource) : source.Evolves source :=
  ⟨rfl, rfl, id, .inr rfl, fun _ h => .inl h⟩

theorem Evolves.trans {source'' : StableFileSource} (h : source.Evolves source')
    (h' : source'.Evolves source'') : source.Evolves source'' where
  snapshot := h'.snapshot.trans h.snapshot
  expiresAt := h'.expiresAt.trans h.expiresAt
  revoked hrevoked := h'.revoked (h.revoked hrevoked)
  decided := by
    rcases h.decided with hunstarted | hstate
    · exact .inl hunstarted
    · rw [← hstate]
      exact h'.decided
  activated context hactive := by
    rcases h'.activated context hactive with hactive' | ⟨hfree, hopen⟩
    · exact h.activated context hactive'
    · refine .inr ⟨?_, h.snapshot ▸ hopen⟩
      apply Bool.eq_false_iff.mpr
      intro hrevoked
      rw [h.revoked hrevoked] at hfree
      cases hfree

theorem revoke_evolves (source : StableFileSource) : source.Evolves source.revoke :=
  ⟨rfl, rfl, fun _ => rfl, .inr rfl, fun _ h => .inl h⟩

theorem context_active (h : source.state = .active context) :
    source.context disk now = (source, .ok context) := by
  rw [StableFileSource.context, h]

theorem context_failed {code : HResult} (h : source.state = .failed code) :
    source.context disk now = (source, .error code) := by
  rw [StableFileSource.context, h]

theorem context_unavailable (h : source.state = .unstarted)
    (hgone : source.revoked = true ∨ source.expiresAt ≤ now) :
    source.context disk now =
      ({ source with state := .failed offerUnavailableError }, .error offerUnavailableError) := by
  rw [StableFileSource.context, h]
  exact if_pos hgone

theorem context_evolves (disk : Disk) (now : Nat) (source : StableFileSource) :
    source.Evolves (source.context disk now).1 := by
  cases hstate : source.state with
  | active context =>
    rw [context_active hstate]
    exact .refl source
  | failed code =>
    rw [context_failed hstate]
    exact .refl source
  | unstarted =>
    have hfailed : ∀ code, source.Evolves { source with state := .failed code } := fun code =>
      ⟨rfl, rfl, id, .inl hstate, fun _ h => nomatch h⟩
    rw [StableFileSource.context, hstate]
    simp only
    split
    · exact hfailed _
    · rename_i hgone
      cases hopen : StableFileContext.openSnapshot disk source.snapshot with
      | error error => exact hfailed error
      | ok context =>
        refine ⟨rfl, rfl, id, .inl hstate, fun context' h => .inr ⟨?_, ?_⟩⟩
        · exact Bool.eq_false_iff.mpr fun hrevoked => hgone (.inl hrevoked)
        · cases h
          exact StableFileContext.openSnapshot_openOf hopen

theorem readContext_evolves (disk : Disk) (source : StableFileSource) (offset : UInt64)
    (length : Nat) (context : StableFileContext) :
    source.Evolves (source.readContext disk offset length context).1 := by
  have hcounted : ∀ n, source.Evolves { source with bytesRead := n } := fun n =>
    ⟨rfl, rfl, id, .inr rfl, fun _ h => .inl h⟩
  rw [readContext]
  repeat' split
  all_goals first | exact .refl source | exact hcounted _

theorem readAt_evolves (disk : Disk) (now : Nat) (source : StableFileSource) (offset : UInt64)
    (length : Nat) : source.Evolves (source.readAt disk now offset length).1 := by
  have hcounted : source.Evolves { source with readCalls := source.readCalls + 1 } :=
    ⟨rfl, rfl, id, .inr rfl, fun _ h => .inl h⟩
  have hcontext := hcounted.trans (context_evolves disk now _)
  rw [readAt]
  split
  · exact .refl source
  · revert hcontext
    cases context disk now { source with readCalls := source.readCalls + 1 } with
    | mk started result =>
      intro hcontext
      cases result with
      | error error => exact hcontext
      | ok context => exact hcontext.trans (readContext_evolves disk _ offset length context)

theorem readAt_error {offset : UInt64} {length : Nat} {started : StableFileSource}
    {error : HResult} (hlength : length ≠ 0)
    (h : StableFileSource.context disk now { source with readCalls := source.readCalls + 1 } =
      (started, .error error)) :
    source.readAt disk now offset length = (started, .error error) := by
  rw [readAt, if_neg hlength, h]

theorem readAt_ok {offset : UInt64} {length : Nat} {started : StableFileSource}
    (hlength : length ≠ 0)
    (h : StableFileSource.context disk now { source with readCalls := source.readCalls + 1 } =
      (started, .ok context)) :
    source.readAt disk now offset length = readContext disk started offset length context := by
  rw [readAt, if_neg hlength, h]

end StableFileSource

/-! An unchanged file: it can be opened at its path, and every handle on it answers with the
captured identity and size and with all the bytes that are asked for. -/

structure Disk.Intact (disk : Disk) (snapshot : FileSnapshot) (content : List UInt8) : Prop where
  length : content.length = snapshot.size.toNat
  opened : ∃ handle, disk.openStableHandle snapshot.path = .ok handle
  information : ∀ moment file, file.path = snapshot.path → ∃ information,
    (disk.answers moment file).information = .ok information ∧
      snapshot.matchesInformation information = true ∧
      rejectAttributes information.dwFileAttributes = .ok ()
  ordinary : ∀ moment file, file.path = snapshot.path →
    (disk.answers moment file).fileType = fileTypeDisk
  bytes : ∀ moment file offset length, file.path = snapshot.path →
    (disk.answers moment file).seekRead offset length = .ok ((content.drop offset).take length)

namespace StableFileSource

variable {disk : Disk} {now : Nat} {source : StableFileSource} {context : StableFileContext}
  {content : List UInt8}

theorem verify_intact (hintact : disk.Intact source.snapshot content)
    (hopen : context.OpenOf source.snapshot) (moment : Moment) :
    context.verify disk moment = .ok () := by
  obtain ⟨information, hanswer, hmatches, -⟩ := hintact.information moment context.file hopen.path
  rw [StableFileContext.verify, hanswer, ok_bind, hopen.snapshot, if_pos hmatches]

theorem readContext_intact (hintact : disk.Intact source.snapshot content)
    (hopen : context.OpenOf source.snapshot) (offset : UInt64) (length : Nat) :
    (source.readContext disk offset length context).2 =
      .ok ((content.drop offset.toNat).take length) := by
  have hsize := hintact.length
  rw [readContext, verify_intact hintact hopen]
  simp only
  split
  · rename_i hend
    rw [UInt64.le_iff_toNat_le] at hend
    rw [List.drop_eq_nil_of_le (by omega), List.take_nil]
  · rename_i hinside
    rw [UInt64.le_iff_toNat_le] at hinside
    have htake : (content.drop offset.toNat).take (source.wanted offset length) =
        (content.drop offset.toNat).take length := by
      rw [wanted, ← hsize, ← List.length_drop, List.take_eq_take_iff]
      omega
    have hlength : ((content.drop offset.toNat).take length).length =
        source.wanted offset length := by
      rw [wanted, List.length_take, List.length_drop, hsize]
    rw [hintact.bytes .reading context.file _ _ hopen.path, htake]
    simp only [hlength, ne_eq, not_true_eq_false, if_false]
    split
    · rw [verify_intact hintact hopen, ok_bind]
    · rfl

theorem readAt_intact (hstate : source.state = .active context)
    (hopen : context.OpenOf source.snapshot) (hintact : disk.Intact source.snapshot content)
    (offset : UInt64) {length : Nat} (hlength : length ≠ 0) :
    (source.readAt disk now offset length).2 = .ok ((content.drop offset.toNat).take length) := by
  have hcontext : StableFileSource.context disk now
      { source with readCalls := source.readCalls + 1 } =
      ({ source with readCalls := source.readCalls + 1 }, .ok context) := context_active hstate
  rw [readAt_ok hlength hcontext]
  exact @readContext_intact disk { source with readCalls := source.readCalls + 1 } context content
    hintact hopen offset length

end StableFileSource

end ClipFerry.Local
