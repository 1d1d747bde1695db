import Mathlib.Data.List.AList

namespace ClipFerry.Foundation

abbrev Table (κ ν : Type) : Type := AList fun _ : κ => ν

namespace Table

variable {κ ν : Type} {table : Table κ ν} {p : κ → ν → Bool}

def values (table : Table κ ν) : List ν := table.entries.map (·.2)

def len (table : Table κ ν) : Nat := table.entries.length

def retain (table : Table κ ν) (p : κ → ν → Bool) : Table κ ν where
  entries := table.entries.filter fun entry => p entry.1 entry.2
  nodupKeys := table.nodupKeys.sublist List.filter_sublist

theorem values_retain_sublist : (table.retain p).values.Sublist table.values :=
  List.filter_sublist.map _

theorem len_retain_le : (table.retain p).len ≤ table.len := List.length_filter_le _ _

section DecidableKeys

variable [DecidableEq κ]

def get (table : Table κ ν) (k : κ) : Option ν := AList.lookup k table

def insert (table : Table κ ν) (k : κ) (v : ν) : Table κ ν := AList.insert k v table

theorem get_eq_some {k : κ} {v : ν} : table.get k = some v ↔ ⟨k, v⟩ ∈ table.entries :=
  AList.mem_lookup_iff

theorem get_retain {k : κ} {v : ν} :
    (table.retain p).get k = some v ↔ table.get k = some v ∧ p k v = true := by
  rw [get_eq_some, get_eq_some, retain, List.mem_filter]

theorem get_insert {k j : κ} {v : ν} :
    (table.insert k v).get j = if j = k then some v else table.get j := by
  split
  · rename_i h
    rw [h]
    exact AList.lookup_insert table
  · rename_i h
    exact AList.lookup_insert_ne h

theorem values_insert (table : Table κ ν) (k : κ) (v : ν) :
    ∃ rest, (table.insert k v).values = v :: rest ∧ rest.Sublist table.values :=
  ⟨_, rfl, (List.kerase_sublist _ _).map _⟩

theorem len_insert {k : κ} {v : ν} (h : table.get k = none) :
    (table.insert k v).len = table.len + 1 := by
  have hmem : k ∉ table := AList.lookup_eq_none.mp h
  rw [len, insert, AList.entries_insert_of_notMem hmem]
  rfl

def insertAll (table : Table κ ν) (entries : List (κ × ν)) : Table κ ν :=
  entries.foldl (fun table entry => table.insert entry.1 entry.2) table

structure Distinct (table : Table κ ν) (entries : List (κ × ν)) : Prop where
  fresh : ∀ entry ∈ entries, table.get entry.1 = none
  nodup : (entries.map (·.1)).Nodup

theorem distinct_cons {entry : κ × ν} {entries : List (κ × ν)} :
    table.Distinct (entry :: entries) ↔
      table.get entry.1 = none ∧ (table.insert entry.1 entry.2).Distinct entries := by
  constructor
  · rintro ⟨hfresh, hnodup⟩
    obtain ⟨hhead, htail⟩ := List.nodup_cons.mp hnodup
    refine ⟨hfresh entry List.mem_cons_self, fun other hother => ?_, htail⟩
    have hne : other.1 ≠ entry.1 := fun hsame =>
      hhead (List.mem_map.mpr ⟨other, hother, hsame⟩)
    rw [get_insert, if_neg hne]
    exact hfresh other (List.mem_cons_of_mem _ hother)
  · rintro ⟨hhead, hfresh, hnodup⟩
    have hother {other : κ × ν} (hmem : other ∈ entries) :
        other.1 ≠ entry.1 ∧ table.get other.1 = none := by
      have hnone := hfresh other hmem
      rw [get_insert] at hnone
      split at hnone
      · cases hnone
      · next hne => exact ⟨hne, hnone⟩
    refine ⟨List.forall_mem_cons.mpr ⟨hhead, fun other hmem => (hother hmem).2⟩,
      List.nodup_cons.mpr ⟨fun hmem => ?_, hnodup⟩⟩
    obtain ⟨other, hmem, hsame⟩ := List.mem_map.mp hmem
    exact (hother hmem).1 hsame

theorem get_insertAll {entries : List (κ × ν)} (h : table.Distinct entries) {k : κ} {v : ν} :
    (table.insertAll entries).get k = some v ↔ (k, v) ∈ entries ∨ table.get k = some v := by
  induction entries generalizing table with
  | nil => exact (or_iff_right List.not_mem_nil).symm
  | cons entry entries ih =>
    obtain ⟨hhead, htail⟩ := distinct_cons.mp h
    have hstep : (table.insert entry.1 entry.2).get k = some v ↔
        (k, v) = entry ∨ table.get k = some v := by
      rw [get_insert]
      split
      · next hsame =>
        rw [hsame, hhead, Option.some.injEq, Prod.ext_iff]
        exact ⟨fun hv => .inl ⟨rfl, hv.symm⟩, fun hv => hv.elim (fun hv => hv.2.symm) nofun⟩
      · next hne =>
        exact ⟨.inr, fun hv => hv.elim (fun hv => absurd (congrArg Prod.fst hv) hne) id⟩
    rw [insertAll, List.foldl_cons, ← insertAll, ih htail, hstep, List.mem_cons, ← or_assoc,
      or_comm (a := _ ∈ entries)]

theorem len_insertAll {entries : List (κ × ν)} (h : table.Distinct entries) :
    (table.insertAll entries).len = table.len + entries.length := by
  induction entries generalizing table with
  | nil => rfl
  | cons entry entries ih =>
    obtain ⟨hhead, htail⟩ := distinct_cons.mp h
    rw [insertAll, List.foldl_cons, ← insertAll, ih htail, len_insert hhead, List.length_cons]
    omega

theorem len_insert_le {k : κ} {v : ν} : (table.insert k v).len ≤ table.len + 1 :=
  Nat.succ_le_succ (List.kerase_sublist _ _).length_le

end DecidableKeys

end Table

end ClipFerry.Foundation
