import ClipFerry.Foundation.Table

namespace ClipFerry.Foundation

variable {ν α : Type}

/-! Names for files; several names may be links to one file. -/

def overlay (fill : α) (contents : List α) (position : Nat) (data : List α) : List α :=
  contents.take position ++ List.replicate (position - contents.length) fill ++ data ++
    contents.drop (position + data.length)

theorem overlay_length (fill : α) (contents data : List α) :
    overlay fill contents contents.length data = contents ++ data := by
  simp [overlay]

structure Volume (ν α : Type) where
  names : Table ν Nat
  files : List (List α)
  bounded : ∀ entry ∈ names.entries, entry.2 < files.length

namespace Volume

def empty : Volume ν α := ⟨∅, [], nofun⟩

def content (volume : Volume ν α) (file : Nat) : List α := volume.files.getD file []

def write (volume : Volume ν α) (fill : α) (file position : Nat) (data : List α) :
    Volume ν α where
  names := volume.names
  files := volume.files.modify file fun contents => overlay fill contents position data
  bounded := fun entry hentry => by
    rw [List.length_modify]
    exact volume.bounded entry hentry

section DecidableNames

variable [DecidableEq ν] {volume volume' : Volume ν α} {name other old new : ν} {file i : Nat}

def find (volume : Volume ν α) (name : ν) : Option Nat := volume.names.get name

def read (volume : Volume ν α) (name : ν) : Option (List α) := (volume.find name).map volume.content

theorem find_lt (h : volume.find name = some file) : file < volume.files.length :=
  volume.bounded _ (Table.get_eq_some.mp h)

theorem bounded_insert {names : Table ν Nat} {size : Nat}
    (h : ∀ entry ∈ names.entries, entry.2 < size) (hfile : file < size) :
    ∀ entry ∈ (names.insert name file).entries, entry.2 < size := by
  intro entry hentry
  have hget : (names.insert name file).get entry.1 = some entry.2 := Table.get_eq_some.mpr hentry
  rw [Table.get_insert] at hget
  split at hget
  · cases hget
    exact hfile
  · exact h _ (Table.get_eq_some.mp hget)

def createNew (volume : Volume ν α) (name : ν) : Volume ν α where
  names := volume.names.insert name volume.files.length
  files := volume.files ++ [[]]
  bounded := bounded_insert (fun entry hentry => by
    have hlt := volume.bounded entry hentry
    rw [List.length_append]
    omega) (by simp)

def link (volume : Volume ν α) (name : ν) (file : Nat) (h : file < volume.files.length) :
    Volume ν α where
  names := volume.names.insert name file
  files := volume.files
  bounded := bounded_insert volume.bounded h

def remove (volume : Volume ν α) (name : ν) : Volume ν α where
  names := volume.names.retain fun other _ => other ≠ name
  files := volume.files
  bounded := fun entry hentry => volume.bounded entry (List.mem_of_mem_filter hentry)

theorem find_write (fill : α) (position : Nat) (data : List α) :
    (volume.write fill file position data).find name = volume.find name := rfl

theorem find_createNew : (volume.createNew name).find other =
    if other = name then some volume.files.length else volume.find other := Table.get_insert

theorem find_link (h : file < volume.files.length) : (volume.link name file h).find other =
    if other = name then some file else volume.find other := Table.get_insert

theorem find_remove : (volume.remove name).find other =
    if other = name then none else volume.find other := by
  apply Option.ext
  intro i
  rw [find, remove, Table.get_retain, decide_eq_true_eq]
  split
  · next h => simp [h]
  · next h => simp [h, find]

theorem read_eq_some {contents : List α} : volume.read name = some contents ↔
    ∃ file, volume.find name = some file ∧ volume.content file = contents :=
  Option.map_eq_some_iff

theorem read_eq_none : volume.read name = none ↔ volume.find name = none := Option.map_eq_none_iff

theorem mem_keys : name ∈ volume.names.keys ↔ volume.read name ≠ none := by
  rw [Ne, read_eq_none, find, Table.get, ← AList.mem_keys, AList.lookup_eq_none, not_not]

theorem read_link (h : file < volume.files.length) : (volume.link name file h).read other =
    if other = name then some (volume.content file) else volume.read other := by
  rw [read, find_link]
  split <;> rfl

theorem read_remove : (volume.remove name).read other =
    if other = name then none else volume.read other := by
  rw [read, find_remove]
  split <;> rfl

end DecidableNames

variable {volume : Volume ν α} {file i : Nat}

theorem content_write (fill : α) (position : Nat) (data : List α)
    (h : file < volume.files.length) : (volume.write fill file position data).content i =
      if i = file then overlay fill (volume.content file) position data else volume.content i := by
  rw [content, write, List.getD_eq_getElem?_getD, List.getElem?_modify]
  split
  · next hsame =>
    subst hsame
    rw [if_pos rfl, content, List.getD_eq_getElem?_getD, List.getElem?_eq_getElem h]
    rfl
  · next hother =>
    rw [if_neg (Ne.symm hother), content, List.getD_eq_getElem?_getD]
    simp

theorem content_length : volume.content volume.files.length = [] := by
  rw [content, List.getD_eq_getElem?_getD, List.getElem?_eq_none le_rfl]
  rfl

theorem content_createNew [DecidableEq ν] (name : ν) (i : Nat) :
    (volume.createNew name).content i = volume.content i := by
  rw [content, content, createNew, List.getD_eq_getElem?_getD, List.getD_eq_getElem?_getD,
    List.getElem?_append]
  split
  · rfl
  · next hbeyond =>
    rw [List.getElem?_singleton, List.getElem?_eq_none (Nat.not_lt.mp hbeyond)]
    split <;> rfl

end Volume

end ClipFerry.Foundation
