import ClipFerry.Foundation.Checked
import ClipFerry.VirtualTree.Path
import Mathlib.Data.List.Perm.Basic
import Mathlib.Data.List.Nodup

namespace ClipFerry.VirtualTree

section Definitions

variable (toLowercase : Char → Text)

def caseFoldPath (path : Text) : Text := path.flatMap toLowercase

structure TreeScan where
  byPath : List (Text × Bool)
  totalPathUnits : Nat

def TreeScan.empty : TreeScan := ⟨[], 0⟩

def scanDescriptor (scan : TreeScan) (d : VirtualFileDescriptor) : Except HResult TreeScan := do
  validateVirtualPath d.fileName
  if maxVirtualDepth < (components d.fileName).length then .error .formatEtc
  else match checkedAddUsize scan.totalPathUnits (utf16Count d.fileName) with
  | none => .error .formatEtc
  | some total =>
    if maxTotalVirtualPathU16 < total then .error .formatEtc
    else if d.isDirectory = true ∧ d.size ≠ 0 then .error .invalidArg
    else match scan.byPath.lookup (caseFoldPath toLowercase d.fileName) with
    | some _ => .error .formatEtc
    | none => .ok ⟨(caseFoldPath toLowercase d.fileName, d.isDirectory) :: scan.byPath, total⟩

def checkParent (byPath : List (Text × Bool)) (parts : List Text) (depth : Nat) :
    Except HResult Unit :=
  if byPath.lookup (caseFoldPath toLowercase (joinComponents (parts.take depth))) ≠ some true then
    .error .formatEtc
  else
    .ok ()

def checkParents (byPath : List (Text × Bool)) (d : VirtualFileDescriptor) :
    Except HResult Unit :=
  let parts := components d.fileName
  (List.range' 1 (parts.length - 1)).forM (checkParent toLowercase byPath parts)

def validateVirtualDescriptorTree (descriptors : List VirtualFileDescriptor) :
    Except HResult Unit :=
  if descriptors = [] ∨ maxVirtualItems < descriptors.length then
    .error .invalidArg
  else do
    let scan ← descriptors.foldlM (scanDescriptor toLowercase) .empty
    descriptors.forM (checkParents toLowercase scan.byPath)

def key (d : VirtualFileDescriptor) : Text := caseFoldPath toLowercase d.fileName

structure WellFormedTree (ds : List VirtualFileDescriptor) : Prop where
  nonempty : 1 ≤ ds.length
  items : ds.length ≤ maxVirtualItems
  paths : ∀ d ∈ ds, validateVirtualPath d.fileName = .ok ()
  depth : ∀ d ∈ ds, (components d.fileName).length ≤ maxVirtualDepth
  total : (ds.map (utf16Count ·.fileName)).sum ≤ maxTotalVirtualPathU16
  directories : ∀ d ∈ ds, d.isDirectory = true → d.size = 0
  distinct : (ds.map (key toLowercase)).Nodup
  parents : ∀ d ∈ ds, ∀ k, 0 < k → k < (components d.fileName).length →
    ∃ p ∈ ds, p.isDirectory = true ∧
      key toLowercase p = caseFoldPath toLowercase (joinComponents ((components d.fileName).take k))

def ProperAncestor (a b : VirtualFileDescriptor) : Prop :=
  (components a.fileName).map (caseFoldPath toLowercase) <+:
      (components b.fileName).map (caseFoldPath toLowercase) ∧
    (components a.fileName).length < (components b.fileName).length

end Definitions

open Checked

variable {toLowercase : Char → Text}

theorem lookup_isNone_iff {byPath : List (Text × Bool)} {k : Text} :
    byPath.lookup k = none ↔ k ∉ byPath.map Prod.fst := by
  rw [List.lookup_eq_none_iff]
  constructor
  · intro h hk
    obtain ⟨p, hp, rfl⟩ := List.mem_map.mp hk
    simpa using h p hp
  · intro h p hp
    have hne : k ≠ p.1 := fun he => h (he ▸ List.mem_map_of_mem hp)
    simpa using hne

theorem scanDescriptor_eq_ok {scan scan' : TreeScan} {d : VirtualFileDescriptor} :
    scanDescriptor toLowercase scan d = .ok scan' ↔
      validateVirtualPath d.fileName = .ok () ∧
      (components d.fileName).length ≤ maxVirtualDepth ∧
      scan.totalPathUnits + utf16Count d.fileName ≤ maxTotalVirtualPathU16 ∧
      (d.isDirectory = true → d.size = 0) ∧
      key toLowercase d ∉ scan.byPath.map Prod.fst ∧
      scan' = ⟨(key toLowercase d, d.isDirectory) :: scan.byPath,
        scan.totalPathUnits + utf16Count d.fileName⟩ := by
  have hlimit : maxTotalVirtualPathU16 < usizeLimit := by decide
  have hadd : checkedAddUsize scan.totalPathUnits (utf16Count d.fileName) = none ∨
      checkedAddUsize scan.totalPathUnits (utf16Count d.fileName) =
        some (scan.totalPathUnits + utf16Count d.fileName) := by
    unfold checkedAddUsize
    split <;> simp
  unfold scanDescriptor
  rw [bind_eq_ok]
  constructor
  · rintro ⟨⟨⟩, hpath, h⟩
    obtain ⟨hdepth, h⟩ := guard_eq_ok.mp h
    rcases hadd with hadd | hadd
    · rw [hadd] at h; cases h
    rw [hadd] at h
    obtain ⟨htotal, h⟩ := guard_eq_ok.mp h
    obtain ⟨hdir, h⟩ := guard_eq_ok.mp h
    cases hk : scan.byPath.lookup (caseFoldPath toLowercase d.fileName) with
    | some b => rw [hk] at h; cases h
    | none =>
      rw [hk] at h
      exact ⟨hpath, Nat.le_of_not_lt hdepth, Nat.le_of_not_lt htotal,
        fun hd => not_not.mp fun hs => hdir ⟨hd, hs⟩, lookup_isNone_iff.mp hk,
        (Except.ok.inj h).symm⟩
  · rintro ⟨hpath, hdepth, htotal, hdir, hk, rfl⟩
    have hsum : checkedAddUsize scan.totalPathUnits (utf16Count d.fileName) =
        some (scan.totalPathUnits + utf16Count d.fileName) := if_pos (by omega)
    refine ⟨(), hpath, guard_eq_ok.mpr ⟨Nat.not_lt.mpr hdepth, ?_⟩⟩
    simp only [hsum]
    refine guard_eq_ok.mpr ⟨Nat.not_lt.mpr htotal, guard_eq_ok.mpr ⟨fun h => h.2 (hdir h.1), ?_⟩⟩
    have hnone := lookup_isNone_iff.mpr hk
    unfold key at hnone
    rw [hnone]
    rfl

structure ScanAccepts (toLowercase : Char → Text) (scan : TreeScan) (ds : List VirtualFileDescriptor) : Prop where
  paths : ∀ d ∈ ds, validateVirtualPath d.fileName = .ok ()
  depth : ∀ d ∈ ds, (components d.fileName).length ≤ maxVirtualDepth
  total : scan.totalPathUnits + (ds.map (utf16Count ·.fileName)).sum ≤ maxTotalVirtualPathU16
  directories : ∀ d ∈ ds, d.isDirectory = true → d.size = 0
  distinct : (ds.map (key toLowercase)).Nodup
  fresh : ∀ d ∈ ds, key toLowercase d ∉ scan.byPath.map Prod.fst

def mapEntry (toLowercase : Char → Text) (d : VirtualFileDescriptor) : Text × Bool :=
  (key toLowercase d, d.isDirectory)

theorem scan_eq_ok {scan scan' : TreeScan} {ds : List VirtualFileDescriptor}
    (ht : scan.totalPathUnits ≤ maxTotalVirtualPathU16) :
    ds.foldlM (scanDescriptor toLowercase) scan = .ok scan' ↔
      ScanAccepts toLowercase scan ds ∧
      scan' = ⟨(ds.map (mapEntry toLowercase)).reverse ++ scan.byPath,
        scan.totalPathUnits + (ds.map (utf16Count ·.fileName)).sum⟩ := by
  induction ds generalizing scan with
  | nil =>
    constructor
    · intro h
      exact ⟨⟨by simp, by simp, by simpa using ht, by simp, by simp, by simp⟩,
        (Except.ok.inj h).symm⟩
    · rintro ⟨-, rfl⟩
      rfl
  | cons d ds ih =>
    rw [foldlM_cons_eq_ok]
    constructor
    · rintro ⟨mid, hd, hds⟩
      obtain ⟨hpath, hdepth, htotal, hdir, hk, rfl⟩ := scanDescriptor_eq_ok.mp hd
      obtain ⟨acc, rfl⟩ := (ih htotal).mp hds
      refine ⟨⟨?_, ?_, ?_, ?_, ?_, ?_⟩, ?_⟩
      · exact List.forall_mem_cons.mpr ⟨hpath, acc.paths⟩
      · exact List.forall_mem_cons.mpr ⟨hdepth, acc.depth⟩
      · simpa [Nat.add_assoc] using acc.total
      · exact List.forall_mem_cons.mpr ⟨hdir, acc.directories⟩
      · refine List.nodup_cons.mpr ⟨fun hm => ?_, acc.distinct⟩
        obtain ⟨e, he, hek⟩ := List.mem_map.mp hm
        exact acc.fresh e he (by simp [hek])
      · refine List.forall_mem_cons.mpr ⟨hk, fun e he hm => acc.fresh e he ?_⟩
        exact List.mem_cons_of_mem _ hm
      · simp [mapEntry, Nat.add_assoc]
    · rintro ⟨acc, rfl⟩
      have htotal := acc.total
      simp only [List.map_cons, List.sum_cons] at htotal
      have hnodup := List.nodup_cons.mp acc.distinct
      refine ⟨_, scanDescriptor_eq_ok.mpr ⟨acc.paths d (by simp), acc.depth d (by simp), by omega,
        acc.directories d (by simp), acc.fresh d (by simp), rfl⟩, ?_⟩
      refine (ih (by simp only; omega)).mpr ⟨⟨?_, ?_, ?_, ?_, ?_, ?_⟩, ?_⟩
      · exact (List.forall_mem_cons.mp acc.paths).2
      · exact (List.forall_mem_cons.mp acc.depth).2
      · simp only; omega
      · exact (List.forall_mem_cons.mp acc.directories).2
      · exact hnodup.2
      · intro e he hm
        rcases List.mem_cons.mp hm with heq | hm
        · have hkey : key toLowercase e = key toLowercase d := heq
          exact hnodup.1 (hkey ▸ List.mem_map_of_mem he)
        · exact acc.fresh e (List.mem_cons_of_mem _ he) hm
      · simp [mapEntry, Nat.add_assoc]

theorem checkParents_eq_ok {byPath : List (Text × Bool)} {d : VirtualFileDescriptor} :
    checkParents toLowercase byPath d = .ok () ↔
      ∀ k, 0 < k → k < (components d.fileName).length →
        byPath.lookup (caseFoldPath toLowercase
          (joinComponents ((components d.fileName).take k))) = some true := by
  unfold checkParents
  rw [forM_eq_ok]
  constructor
  · intro h k hk hlt
    have hmem : k ∈ List.range' 1 ((components d.fileName).length - 1) :=
      List.mem_range'_1.mpr (by omega)
    exact not_not.mp (guard_eq_ok.mp (h k hmem)).1
  · intro h k hmem
    have hk := List.mem_range'_1.mp hmem
    exact guard_eq_ok.mpr ⟨not_not.mpr (h k (by omega) (by omega)), rfl⟩

theorem lookup_scanned {ds : List VirtualFileDescriptor} (hd : (ds.map (key toLowercase)).Nodup)
    {path : Text} : (ds.map (mapEntry toLowercase)).reverse.lookup path = some true ↔
      ∃ p ∈ ds, p.isDirectory = true ∧ key toLowercase p = path := by
  have hfst : ((ds.map (mapEntry toLowercase)).reverse.map Prod.fst).Nodup := by
    rw [List.map_reverse, List.nodup_reverse, List.map_map]
    exact hd
  rw [lookup_eq_some_of_nodup hfst, List.mem_reverse, List.mem_map]
  constructor
  · rintro ⟨p, hp, he⟩
    exact ⟨p, hp, congrArg Prod.snd he, congrArg Prod.fst he⟩
  · rintro ⟨p, hp, hdir, rfl⟩
    exact ⟨p, hp, by simp [mapEntry, hdir]⟩

theorem validate_eq_ok_iff (ds : List VirtualFileDescriptor) :
    validateVirtualDescriptorTree toLowercase ds = .ok () ↔ WellFormedTree toLowercase ds := by
  have hempty : TreeScan.empty.totalPathUnits ≤ maxTotalVirtualPathU16 := Nat.zero_le _
  unfold validateVirtualDescriptorTree
  rw [guard_eq_ok, bind_eq_ok]
  constructor
  · rintro ⟨hsize, scan, hscan, hparents⟩
    obtain ⟨acc, rfl⟩ := (scan_eq_ok hempty).mp hscan
    obtain ⟨hne, hitems⟩ := not_or.mp hsize
    refine ⟨List.length_pos_of_ne_nil hne, Nat.le_of_not_lt hitems, acc.paths, acc.depth, ?_,
      acc.directories, acc.distinct, ?_⟩
    · simpa [TreeScan.empty] using acc.total
    · intro d hd k hk hlt
      have hlook := checkParents_eq_ok.mp (forM_eq_ok.mp hparents d hd) k hk hlt
      simp only [TreeScan.empty, List.append_nil] at hlook
      exact (lookup_scanned acc.distinct).mp hlook
  · intro wf
    have hne : ds ≠ [] := List.ne_nil_of_length_pos wf.nonempty
    have acc : ScanAccepts toLowercase .empty ds :=
      ⟨wf.paths, wf.depth, by simpa [TreeScan.empty] using wf.total, wf.directories, wf.distinct,
        by simp [TreeScan.empty]⟩
    refine ⟨not_or.mpr ⟨hne, Nat.not_lt.mpr wf.items⟩, _,
      (scan_eq_ok hempty).mpr ⟨acc, rfl⟩, ?_⟩
    refine forM_eq_ok.mpr fun d hd => checkParents_eq_ok.mpr fun k hk hlt => ?_
    simp only [TreeScan.empty, List.append_nil]
    exact (lookup_scanned wf.distinct).mpr (wf.parents d hd k hk hlt)

theorem WellFormedTree.of_perm {ds ds' : List VirtualFileDescriptor} (h : ds.Perm ds')
    (wf : WellFormedTree toLowercase ds) : WellFormedTree toLowercase ds' where
  nonempty := h.length_eq ▸ wf.nonempty
  items := h.length_eq ▸ wf.items
  paths := fun d hd => wf.paths d (h.mem_iff.mpr hd)
  depth := fun d hd => wf.depth d (h.mem_iff.mpr hd)
  total := (h.map (utf16Count ·.fileName)).sum_nat ▸ wf.total
  directories := fun d hd => wf.directories d (h.mem_iff.mpr hd)
  distinct := (h.map (key toLowercase)).nodup_iff.mp wf.distinct
  parents := fun d hd k hk hlt =>
    let ⟨p, hp, hdir, hkey⟩ := wf.parents d (h.mem_iff.mpr hd) k hk hlt
    ⟨p, h.mem_iff.mp hp, hdir, hkey⟩

theorem caseFoldPath_join (parts : List Text) :
    caseFoldPath toLowercase (joinComponents parts) =
      (toLowercase '\\').intercalate (parts.map (caseFoldPath toLowercase)) := by
  induction parts with
  | nil => rfl
  | cons a rest ih =>
    cases rest with
    | nil => simp [joinComponents, caseFoldPath]
    | cons b rest =>
      simp only [joinComponents, List.intercalate_cons_cons, List.map_cons] at ih ⊢
      rw [← ih]
      simp [caseFoldPath]

theorem WellFormedTree.ancestor_is_directory {ds : List VirtualFileDescriptor}
    (wf : WellFormedTree toLowercase ds) {a b : VirtualFileDescriptor} (ha : a ∈ ds) (hb : b ∈ ds)
    (h : ProperAncestor toLowercase a b) : a.isDirectory = true := by
  obtain ⟨hfront, hlt⟩ := h
  have hpos : 0 < (components a.fileName).length :=
    List.length_pos_of_ne_nil (List.splitOn_ne_nil _ _)
  obtain ⟨p, hp, hdir, hkey⟩ := wf.parents b hb _ hpos hlt
  have htake : (components a.fileName).map (caseFoldPath toLowercase) =
      ((components b.fileName).take (components a.fileName).length).map
        (caseFoldPath toLowercase) := by
    simpa [List.map_take] using List.prefix_iff_eq_take.mp hfront
  have hfold : key toLowercase a = key toLowercase p := by
    calc key toLowercase a
        = caseFoldPath toLowercase (joinComponents (components a.fileName)) := by
          simp [key, joinComponents, components]
      _ = caseFoldPath toLowercase
            (joinComponents ((components b.fileName).take (components a.fileName).length)) := by
          rw [caseFoldPath_join, caseFoldPath_join, htake]
      _ = key toLowercase p := hkey.symm
  have heq : a = p := List.inj_on_of_nodup_map wf.distinct ha hp hfold
  exact heq ▸ hdir

theorem descriptor_tree_validation_exact (toLowercase : Char → Text)
    (ds : List VirtualFileDescriptor) :
    (validateVirtualDescriptorTree toLowercase ds = .ok () ↔ WellFormedTree toLowercase ds) ∧
    (∀ ds', ds.Perm ds' → (validateVirtualDescriptorTree toLowercase ds = .ok () ↔
      validateVirtualDescriptorTree toLowercase ds' = .ok ())) ∧
    (validateVirtualDescriptorTree toLowercase ds = .ok () →
      ∀ a ∈ ds, ∀ b ∈ ds, ProperAncestor toLowercase a b → a.isDirectory = true) := by
  refine ⟨validate_eq_ok_iff ds, fun ds' h => ?_, fun hok a ha b hb hab => ?_⟩
  · rw [validate_eq_ok_iff, validate_eq_ok_iff]
    exact ⟨.of_perm h, .of_perm h.symm⟩
  · exact ((validate_eq_ok_iff ds).mp hok).ancestor_is_directory ha hb hab

end ClipFerry.VirtualTree
