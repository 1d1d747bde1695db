import Mathlib.Logic.Function.Basic
import ClipFerry.Foundation.Volume
import ClipFerry.Protocol.Frame

namespace ClipFerry.Device

open Foundation Protocol VirtualTree

def lowerHex : Nat → Nat → Text
  | 0, _ => []
  | width + 1, value => lowerHex width (value / 16) ++ [Nat.digitChar (value % 16)]

def temporaryName (filename : Text) (processId : UInt32) (random : UInt64) : Text :=
  '.' :: (filename ++ '.' :: (Nat.toDigits 10 processId.toNat ++ '.' ::
    (lowerHex 16 random.toNat ++ ['.', 't', 'm', 'p'])))

abbrev Directory : Type := Volume Text UInt8

inductive PublishPhase where
  | drawing (tries : Nat)
  | writing (temporary : Text) (file written : Nat)
  | linking (temporary : Text) (file : Nat)
  | removing (temporary : Text) (file : Nat) (result : Except IoError Unit)
  | finished (result : Except IoError Unit)

def exhausted : IoError := .new .alreadyExists "could not allocate a unique temporary filename"

inductive PublishStep (filename : Text) (bytes : List UInt8) :
    Directory → PublishPhase → Directory → PublishPhase → Prop
  | taken {directory : Directory} {tries : Nat} (processId : UInt32) (random : UInt64)
      (htries : tries < 8)
      (htaken : directory.find (temporaryName filename processId random) ≠ none) :
      PublishStep filename bytes directory (.drawing tries) directory (.drawing (tries + 1))
  | exhausted {directory : Directory} :
      PublishStep filename bytes directory (.drawing 8) directory (.finished (.error exhausted))
  | notCreated {directory : Directory} {tries : Nat} (error : IoError) (htries : tries < 8)
      (hkind : error.kind ≠ .alreadyExists) :
      PublishStep filename bytes directory (.drawing tries) directory (.finished (.error error))
  | created {directory : Directory} {tries : Nat} (processId : UInt32) (random : UInt64)
      (htries : tries < 8)
      (hfree : directory.find (temporaryName filename processId random) = none) :
      PublishStep filename bytes directory (.drawing tries)
        (directory.createNew (temporaryName filename processId random))
        (.writing (temporaryName filename processId random) directory.files.length 0)
  | wrote {directory : Directory} {temporary : Text} {file written : Nat} (count : Nat)
      (hcount : 0 < count) (hfits : written + count ≤ bytes.length) :
      PublishStep filename bytes directory (.writing temporary file written)
        (directory.write 0 file written ((bytes.drop written).take count))
        (.writing temporary file (written + count))
  | notWritten {directory : Directory} {temporary : Text} {file written : Nat} (error : IoError) :
      PublishStep filename bytes directory (.writing temporary file written) directory
        (.removing temporary file (.error error))
  | synced {directory : Directory} {temporary : Text} {file written : Nat}
      (hall : bytes.length ≤ written) :
      PublishStep filename bytes directory (.writing temporary file written) directory
        (.linking temporary file)
  | linked {directory : Directory} {temporary : Text} {file found : Nat}
      (hfound : directory.find temporary = some found) (hfree : directory.find filename = none) :
      PublishStep filename bytes directory (.linking temporary file)
        (directory.link filename found (Volume.find_lt hfound)) (.removing temporary file (.ok ()))
  | occupied {directory : Directory} {temporary : Text} {file : Nat} (message : String)
      (code : Option Int) (hoccupied : directory.find filename ≠ none) :
      PublishStep filename bytes directory (.linking temporary file) directory
        (.removing temporary file (.error ⟨.alreadyExists, message, code⟩))
  | notLinked {directory : Directory} {temporary : Text} {file : Nat} (error : IoError) :
      PublishStep filename bytes directory (.linking temporary file) directory
        (.removing temporary file (.error error))
  | removed {directory : Directory} {temporary : Text} {file : Nat} {result : Except IoError Unit} :
      PublishStep filename bytes directory (.removing temporary file result)
        (directory.remove temporary) (.finished result)
  | notRemoved {directory : Directory} {temporary : Text} {file : Nat}
      {result : Except IoError Unit} :
      PublishStep filename bytes directory (.removing temporary file result) directory
        (.finished result)

namespace PublishPhase

def temporary : PublishPhase → Option Text
  | writing temporary _ _ | linking temporary _ | removing temporary _ _ => some temporary
  | drawing _ | finished _ => none

def file : PublishPhase → Option Nat
  | writing _ file _ | linking _ file | removing _ file _ => some file
  | drawing _ | finished _ => none

def writes : PublishPhase → Option Nat
  | writing _ file _ => some file
  | _ => none

theorem file_of_writes {phase : PublishPhase} {i : Nat} (h : phase.writes = some i) :
    phase.file = some i := by
  cases phase <;> first | exact h | cases h

end PublishPhase

def Temporary (name : Text) : Prop := name.head? = some '.'

theorem temporaryName_temporary (filename : Text) (processId : UInt32) (random : UInt64) :
    Temporary (temporaryName filename processId random) := rfl

variable {directory directory' : Directory} {filename name : Text} {bytes : List UInt8}
  {phase phase' : PublishPhase} {i : Nat}

theorem ne_temporaryName (h : ¬Temporary name) (processId : UInt32) (random : UInt64) :
    name ≠ temporaryName filename processId random := fun hsame =>
  h (hsame ▸ temporaryName_temporary filename processId random)

def Owned (directory : Directory) (bytes : List UInt8) : PublishPhase → Prop
  | .drawing _ | .finished _ => True
  | .writing temporary file written => Temporary temporary ∧ directory.find temporary = some file ∧
      written ≤ bytes.length ∧ directory.content file = bytes.take written
  | .linking temporary file => Temporary temporary ∧ directory.find temporary = some file ∧
      directory.content file = bytes
  | .removing temporary file _ => Temporary temporary ∧ directory.find temporary = some file

theorem Owned.of_temporary (h : Owned directory bytes phase)
    (htemporary : phase.temporary = some name) :
    Temporary name ∧ ∃ file, phase.file = some file ∧ directory.find name = some file := by
  cases phase with
  | drawing | finished => cases htemporary
  | writing temporary file =>
    cases htemporary
    exact ⟨h.1, file, rfl, h.2.1⟩
  | linking temporary file =>
    cases htemporary
    exact ⟨h.1, file, rfl, h.2.1⟩
  | removing temporary file =>
    cases htemporary
    exact ⟨h.1, file, rfl, h.2⟩

theorem Owned.file_lt (h : Owned directory bytes phase) (hfile : phase.file = some i) :
    i < directory.files.length := by
  cases phase with
  | drawing | finished => cases hfile
  | writing | linking =>
    cases hfile
    exact Volume.find_lt h.2.1
  | removing =>
    cases hfile
    exact Volume.find_lt h.2

theorem Owned.frame (h : Owned directory bytes phase)
    (hfind : ∀ {name i}, phase.temporary = some name → directory.find name = some i →
      directory'.find name = some i)
    (hcontent : ∀ {i}, phase.file = some i → directory'.content i = directory.content i) :
    Owned directory' bytes phase := by
  cases phase with
  | drawing | finished => trivial
  | writing => exact ⟨h.1, hfind rfl h.2.1, h.2.2.1, (hcontent rfl).trans h.2.2.2⟩
  | linking => exact ⟨h.1, hfind rfl h.2.1, (hcontent rfl).trans h.2.2⟩
  | removing => exact ⟨h.1, hfind rfl h.2⟩

namespace PublishStep

theorem owned (howned : Owned directory bytes phase) (hname : ¬Temporary filename)
    (h : PublishStep filename bytes directory phase directory' phase') :
    Owned directory' bytes phase' := by
  cases h with
  | taken | exhausted | notCreated | removed | notRemoved => trivial
  | created processId random htries hfree =>
    refine ⟨temporaryName_temporary _ _ _, ?_, Nat.zero_le _, ?_⟩
    · rw [Volume.find_createNew, if_pos rfl]
    · rw [Volume.content_createNew, Volume.content_length, List.take_zero]
  | @wrote temporary file written count hcount hfits =>
    obtain ⟨htemporary, hfind, hwritten, hcontent⟩ := howned
    have hlength : (bytes.take written).length = written := by
      rw [List.length_take, Nat.min_eq_left hwritten]
    refine ⟨htemporary, hfind, hfits, ?_⟩
    have hover := overlay_length 0 (bytes.take written) ((bytes.drop written).take count)
    rw [hlength] at hover
    rw [Volume.content_write _ _ _ (Volume.find_lt hfind), if_pos rfl, hcontent, hover,
      List.take_add]
  | notWritten => exact ⟨howned.1, howned.2.1⟩
  | synced hall =>
    refine ⟨howned.1, howned.2.1, ?_⟩
    rw [howned.2.2.2, List.take_of_length_le hall]
  | @linked temporary file found hfound hfree =>
    refine ⟨howned.1, ?_⟩
    have hne : temporary ≠ filename := fun hsame => hname (hsame ▸ howned.1)
    rw [Volume.find_link, if_neg hne, howned.2.1]
  | occupied | notLinked => exact ⟨howned.1, howned.2.1⟩

theorem find_kept (h : PublishStep filename bytes directory phase directory' phase')
    (hother : phase.temporary ≠ some name) (hfind : directory.find name = some i) :
    directory'.find name = some i := by
  cases h with
  | taken | exhausted | notCreated | wrote | notWritten | synced | occupied | notLinked
  | notRemoved => exact hfind
  | created processId random htries hfree =>
    have hne : name ≠ temporaryName filename processId random := by
      rintro rfl
      rw [hfree] at hfind
      cases hfind
    rw [Volume.find_createNew, if_neg hne, hfind]
  | linked hfound hfree =>
    have hne : name ≠ filename := by
      rintro rfl
      rw [hfree] at hfind
      cases hfind
    rw [Volume.find_link, if_neg hne, hfind]
  | removed =>
    have hne : name ≠ _ := fun hsame => hother (congrArg some hsame.symm)
    rw [Volume.find_remove, if_neg hne, hfind]

theorem content_kept (howned : Owned directory bytes phase)
    (h : PublishStep filename bytes directory phase directory' phase')
    (hother : phase.writes ≠ some i) : directory'.content i = directory.content i := by
  cases h with
  | taken | exhausted | notCreated | notWritten | synced | linked | occupied | notLinked
  | removed | notRemoved => rfl
  | created => exact Volume.content_createNew _ _
  | wrote count hcount hfits =>
    rw [Volume.content_write _ _ _ (Volume.find_lt howned.2.1), if_neg]
    rintro rfl
    exact hother rfl

theorem find_new (howned : Owned directory bytes phase)
    (h : PublishStep filename bytes directory phase directory' phase')
    (hfind : directory'.find name = some i)
    (hname : ∀ processId random, name ≠ temporaryName filename processId random) :
    directory.find name = some i ∨
      (name = filename ∧ directory.find filename = none ∧ directory.content i = bytes ∧
        ∃ temporary, phase = .linking temporary i ∧ phase' = .removing temporary i (.ok ())) := by
  cases h with
  | taken | exhausted | notCreated | wrote | notWritten | synced | occupied | notLinked
  | notRemoved => exact .inl hfind
  | created processId random =>
    rw [Volume.find_createNew, if_neg (hname processId random)] at hfind
    exact .inl hfind
  | @linked temporary file found hfound hfree =>
    rw [Volume.find_link] at hfind
    split at hfind
    · next hsame =>
      obtain rfl := Option.some.inj (hfound.symm.trans howned.2.1)
      cases hfind
      exact .inr ⟨hsame, hfree, howned.2.2, temporary, rfl, rfl⟩
    · exact .inl hfind
  | removed =>
    rw [Volume.find_remove] at hfind
    split at hfind
    · cases hfind
    · exact .inl hfind

theorem file_cases (h : PublishStep filename bytes directory phase directory' phase')
    (hfile : phase'.file = some i) : phase.file = some i ∨ i = directory.files.length := by
  cases h with
  | taken | exhausted | notCreated | removed | notRemoved => cases hfile
  | created => exact .inr (Option.some.inj hfile).symm
  | wrote | notWritten | synced | linked | occupied | notLinked => exact .inl hfile

theorem writes_cases (h : PublishStep filename bytes directory phase directory' phase')
    (hwrites : phase'.writes = some i) : phase.writes = some i ∨ i = directory.files.length := by
  cases h with
  | taken | exhausted | notCreated | notWritten | synced | linked | occupied | notLinked
  | removed | notRemoved => cases hwrites
  | created => exact .inr (Option.some.inj hwrites).symm
  | wrote => exact .inl hwrites

end PublishStep

/-! The same steps with nothing between them, and no failure but a name in use. -/

def notFound : IoError :=
  ⟨.notFound, "The system cannot find the file specified. (os error 2)", some 2⟩

def alreadyExists : IoError :=
  ⟨.alreadyExists, "Cannot create a file when that file already exists. (os error 183)", some 183⟩

def createWritten (temporary : Text) (bytes : List UInt8) (directory : Directory) : Directory :=
  (directory.createNew temporary).write 0 directory.files.length 0 bytes

def linkTemporary (filename temporary : Text) (written : Directory) :
    Directory × Except IoError Unit :=
  match hfound : written.find temporary with
  | none => (written, .error notFound)
  | some found =>
    if written.find filename = none then
      ((written.link filename found (Volume.find_lt hfound)).remove temporary, .ok ())
    else (written.remove temporary, .error alreadyExists)

def writeNewAtomic (filename : Text) (bytes : List UInt8) (processId : UInt32) :
    List UInt64 → Directory → Directory × Except IoError Unit
  | [], directory => (directory, .error exhausted)
  | random :: draws, directory =>
    if directory.find (temporaryName filename processId random) ≠ none then
      writeNewAtomic filename bytes processId draws directory
    else
      linkTemporary filename (temporaryName filename processId random)
        (createWritten (temporaryName filename processId random) bytes directory)

theorem find_createWritten (temporary : Text) (bytes : List UInt8) (directory : Directory) :
    (createWritten temporary bytes directory).find name =
      if name = temporary then some directory.files.length else directory.find name := by
  rw [createWritten, Volume.find_write, Volume.find_createNew]

theorem read_createWritten (temporary : Text) (bytes : List UInt8) (directory : Directory) :
    (createWritten temporary bytes directory).read name =
      if name = temporary then some bytes else directory.read name := by
  have hcontent {i : Nat} : (createWritten temporary bytes directory).content i =
      if i = directory.files.length then bytes else directory.content i := by
    have hlt : directory.files.length < (directory.createNew temporary).files.length := by
      simp [Volume.createNew]
    rw [createWritten, Volume.content_write _ _ _ hlt, Volume.content_createNew,
      Volume.content_createNew, Volume.content_length]
    simp [overlay]
  rw [Volume.read, find_createWritten]
  split
  · rw [Option.map_some, hcontent, if_pos rfl]
  · cases hfind : directory.find name with
    | none => rw [Volume.read, hfind, Option.map_none, Option.map_none]
    | some found =>
      rw [Volume.read, hfind, Option.map_some, Option.map_some, hcontent,
        if_neg (Nat.ne_of_lt (Volume.find_lt hfind))]

theorem linkTemporary_free {temporary : Text}
    (hfound : directory.read temporary = some bytes) (hfree : directory.read filename = none) :
    ∃ linked, linkTemporary filename temporary directory = (linked, .ok ()) ∧
      ∀ name, linked.read name = if name = temporary then none
        else if name = filename then some bytes else directory.read name := by
  obtain ⟨found, hfind, hcontent⟩ := Volume.read_eq_some.mp hfound
  have hfree' := Volume.read_eq_none.mp hfree
  refine ⟨(directory.link filename found (Volume.find_lt hfind)).remove temporary, ?_, fun name => ?_⟩
  · rw [linkTemporary]
    split
    · next hnone =>
      rw [hfind] at hnone
      cases hnone
    · next hsome =>
      rw [hfind] at hsome
      cases hsome
      rw [if_pos hfree']
  · rw [Volume.read_remove, Volume.read_link, hcontent]

theorem linkTemporary_occupied {temporary : Text}
    (hfound : directory.read temporary = some bytes) (hoccupied : directory.read filename ≠ none) :
    linkTemporary filename temporary directory =
      (directory.remove temporary, .error alreadyExists) := by
  obtain ⟨found, hfind, hcontent⟩ := Volume.read_eq_some.mp hfound
  have hoccupied' := mt Volume.read_eq_none.mpr hoccupied
  rw [linkTemporary]
  split
  · next hnone =>
    rw [hfind] at hnone
    cases hnone
  · rw [if_neg hoccupied']

theorem writeNewAtomic_eq (processId : UInt32) {random : UInt64} {draws : List UInt64}
    (hclean : ∀ name, Temporary name → directory.read name = none) :
    writeNewAtomic filename bytes processId (random :: draws) directory =
      linkTemporary filename (temporaryName filename processId random)
        (createWritten (temporaryName filename processId random) bytes directory) := by
  have hfree := Volume.read_eq_none.mp
    (hclean _ (temporaryName_temporary filename processId random))
  rw [writeNewAtomic, if_neg (not_not.mpr hfree)]

structure Publishable (filename : Text) (processId : UInt32) (draws : List UInt64)
    (directory : Directory) : Prop where
  free : directory.read filename = none
  drawn : ∃ random ∈ draws, directory.read (temporaryName filename processId random) = none

theorem publishable_cons_taken {processId : UInt32} {random : UInt64} {draws : List UInt64}
    (htaken : directory.read (temporaryName filename processId random) ≠ none) :
    Publishable filename processId (random :: draws) directory ↔
      Publishable filename processId draws directory := by
  constructor
  · rintro ⟨hfree, drawn, hdrawn, hdrawnFree⟩
    rcases List.mem_cons.mp hdrawn with rfl | hdrawn
    · exact absurd hdrawnFree htaken
    · exact ⟨hfree, drawn, hdrawn, hdrawnFree⟩
  · rintro ⟨hfree, drawn, hdrawn, hdrawnFree⟩
    exact ⟨hfree, drawn, List.mem_cons_of_mem _ hdrawn, hdrawnFree⟩

theorem Publishable.writes {processId : UInt32} {draws : List UInt64} (hname : ¬Temporary filename)
    (h : Publishable filename processId draws directory) :
    ∃ written, writeNewAtomic filename bytes processId draws directory = (written, .ok ()) ∧
      ∀ name, written.read name = if name = filename then some bytes else directory.read name := by
  induction draws with
  | nil =>
    obtain ⟨-, _, hdrawn, -⟩ := h
    cases hdrawn
  | cons random draws ih =>
    rw [writeNewAtomic]
    by_cases hdrawn : directory.read (temporaryName filename processId random) = none
    · have hne : filename ≠ temporaryName filename processId random := ne_temporaryName hname _ _
      obtain ⟨written, hwritten, hread⟩ := linkTemporary_free
        (read_createWritten (temporaryName filename processId random) bytes directory ▸ if_pos rfl)
        ((read_createWritten _ bytes directory).trans ((if_neg hne).trans h.free))
      rw [if_neg (not_not.mpr (Volume.read_eq_none.mp hdrawn))]
      refine ⟨written, hwritten, fun name => ?_⟩
      rw [hread, read_createWritten]
      split
      · next hsame => rw [if_neg (hsame ▸ Ne.symm hne), hsame, hdrawn]
      · rfl
    · rw [if_pos (mt Volume.read_eq_none.mpr hdrawn)]
      exact ih ((publishable_cons_taken hdrawn).mp h)

theorem publishable_of_writes {processId : UInt32} {draws : List UInt64}
    (hname : ¬Temporary filename)
    (h : writeNewAtomic filename bytes processId draws directory = (directory', .ok ())) :
    Publishable filename processId draws directory := by
  induction draws with
  | nil => cases h
  | cons random draws ih =>
    rw [writeNewAtomic] at h
    by_cases hdrawn : directory.read (temporaryName filename processId random) = none
    · rw [if_neg (not_not.mpr (Volume.read_eq_none.mp hdrawn))] at h
      refine ⟨?_, random, List.mem_cons_self, hdrawn⟩
      by_contra hoccupied
      have hne : filename ≠ temporaryName filename processId random := ne_temporaryName hname _ _
      have hoccupied' : (createWritten (temporaryName filename processId random) bytes
          directory).read filename ≠ none := by
        rw [read_createWritten, if_neg hne]
        exact hoccupied
      rw [linkTemporary_occupied (read_createWritten (temporaryName filename processId random) bytes
        directory ▸ if_pos rfl) hoccupied'] at h
      cases h
    · rw [if_pos (mt Volume.read_eq_none.mpr hdrawn)] at h
      exact (publishable_cons_taken hdrawn).mpr (ih h)

theorem writeNewAtomic_occupied (processId : UInt32) {draws : List UInt64} (hdraws : draws ≠ [])
    (hname : ¬Temporary filename) (hclean : ∀ name, Temporary name → directory.read name = none)
    (hoccupied : directory.read filename ≠ none) :
    ∃ written, writeNewAtomic filename bytes processId draws directory =
      (written, .error alreadyExists) ∧ ∀ name, written.read name = directory.read name := by
  obtain ⟨random, draws, rfl⟩ := List.exists_cons_of_ne_nil hdraws
  have hne : filename ≠ temporaryName filename processId random := ne_temporaryName hname _ _
  have hoccupied' : (createWritten (temporaryName filename processId random) bytes directory).read
      filename ≠ none := by
    rw [read_createWritten, if_neg hne]
    exact hoccupied
  refine ⟨_, (writeNewAtomic_eq processId hclean).trans (linkTemporary_occupied
    (read_createWritten (temporaryName filename processId random) bytes directory ▸ if_pos rfl)
    hoccupied'), fun name => ?_⟩
  rw [Volume.read_remove, read_createWritten]
  split
  · next hsame => rw [hsame, hclean _ (temporaryName_temporary _ _ _)]
  · rfl

end ClipFerry.Device
