import ClipFerry.DataObject.ObjectLaw
import ClipFerry.Local.Offer
import ClipFerry.Product.TotalSize

namespace ClipFerry.Product

open VirtualTree Local DataObject Checked

structure ListsTree (object : VirtualFileDataObject) (allocate : Nat → Except HResult Unit)
    (tree : FileTreeSnapshot) : Prop where
  group : ∃ bytes, (∀ attempt, object.getData allocate attempt
      (some (formatEtc object.formats.descriptor (-1) tymedHglobal)) = .ok (.hglobal bytes)) ∧
    groupCount bytes = tree.entries.length ∧ ∀ (index : Nat) (snapshot : FileSnapshot),
      tree.entries[index]? = some snapshot → readItem bytes index = some snapshot.descriptor
  contents : ∀ (index : Nat) (snapshot : FileSnapshot), tree.entries[index]? = some snapshot →
    ∀ attempt, (∃ medium, object.getData allocate attempt
      (some (formatEtc object.formats.contents (.ofNat index) tymedIstream)) = .ok medium) ↔
        snapshot.isDirectory = false

variable {object : VirtualFileDataObject} {allocate : Nat → Except HResult Unit}
  {tree : FileTreeSnapshot} {index : Nat}

theorem lindex_place (hindex : index < 2 ^ 31) :
    0 ≤ (Int32.ofNat index).toInt ∧ (Int32.ofNat index).toInt.toNat = index := by
  rw [Int32.toInt_ofNat_of_lt hindex]
  exact ⟨Int.natCast_nonneg index, Int.toNat_natCast index⟩

theorem entries_below (hvalid : ValidEntries object.entries) {found : VirtualFileEntry}
    (hfound : object.entries[index]? = some found) : index < 2 ^ 31 := by
  have hlt := (List.getElem?_eq_some_iff.mp hfound).1
  have hitems := hvalid.items
  have hlimit : maxVirtualItems < 2 ^ 31 := by decide
  omega

theorem lists_tree (hoffers : Offers object allocate)
    (hlisted : object.entries.map (·.descriptor) = tree.entries.map (·.descriptor)) :
    ListsTree object allocate tree := by
  have hentry : ∀ (index : Nat) (snapshot : FileSnapshot), tree.entries[index]? = some snapshot →
      ∃ entry, object.entries[index]? = some entry ∧ entry.descriptor = snapshot.descriptor := by
    intro index snapshot hsnapshot
    have hplace := congrArg (fun descriptors => descriptors[index]?) hlisted
    simpa only [List.getElem?_map, hsnapshot, Option.map_some, Option.map_eq_some_iff] using hplace
  have hlength : object.entries.length = tree.entries.length := by
    have hlengths := congrArg List.length hlisted
    rwa [List.length_map, List.length_map] at hlengths
  constructor
  · obtain ⟨descriptors, hdescriptors⟩ := exists_descriptors hoffers.entries.paths
    have hcount : object.entries.length = descriptors.length := hdescriptors.length_eq
    refine ⟨groupBytes descriptors, fun attempt => ?_, ?_, fun index snapshot hsnapshot => ?_⟩
    · refine bind_eq_ok.mpr ⟨(), query_formatEtc_global (.inl rfl), ?_⟩
      refine (if_pos rfl).trans ?_
      exact fileDescriptorMedium_ok hoffers.allocate hoffers.entries hdescriptors
    · rw [groupCount_bytes (hcount ▸ hoffers.entries.items), ← hcount, hlength]
    · obtain ⟨entry, hentry, hdescriptor⟩ := hentry index snapshot hsnapshot
      rw [readItem_bytes hdescriptors hoffers.entries.items hentry, hdescriptor]
  · intro index snapshot hsnapshot attempt
    obtain ⟨entry, hentry, hdescriptor⟩ := hentry index snapshot hsnapshot
    obtain ⟨hnonnegative, hplace⟩ := lindex_place (entries_below hoffers.entries hentry)
    have hserved := @served_iff_file _ allocate attempt
      (formatEtc object.formats.contents (.ofNat index) tymedIstream) hoffers rfl
    rw [hserved]
    constructor
    · rintro ⟨-, -, -, -, found, hfound, hfile⟩
      rw [show (formatEtc object.formats.contents (.ofNat index) tymedIstream).lindex =
        Int32.ofNat index from rfl, hplace, hentry] at hfound
      cases hfound
      rwa [hdescriptor, isDirectory_descriptor] at hfile
    · intro hfile
      refine ⟨rfl, rfl, tymedIstream_self, hnonnegative, entry, ?_, ?_⟩
      · rw [show (formatEtc object.formats.contents (.ofNat index) tymedIstream).lindex =
          Int32.ofNat index from rfl, hplace, hentry]
      · rw [hdescriptor, isDirectory_descriptor, hfile]

end ClipFerry.Product
