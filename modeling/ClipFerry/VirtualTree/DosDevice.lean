import ClipFerry.Protocol.ReceivedManifest
import Mathlib

namespace ClipFerry.VirtualTree

open Checked Protocol

/-! What Win32 takes for a device: the name up to its first dot, less the spaces at its end. -/

def devicePorts : List Text :=
  [['C', 'O', 'M'], ['L', 'P', 'T']].flatMap fun port => serialSuffixes.map fun suffix => port ++ suffix

def plainDevices : List Text :=
  [['C', 'O', 'N'], ['P', 'R', 'N'], ['A', 'U', 'X'], ['N', 'U', 'L'], ['C', 'L', 'O', 'C', 'K', '$']]

def deviceNames : List Text := plainDevices ++ devicePorts

def isDeviceName (part : Text) : Bool := deviceNames.any (eqIgnoreAsciiCase part ·)

def beforeDot (name : Text) : Text := name.takeWhile (· != '.')

def trimEndSpaces (name : Text) : Text := name.rdropWhile (· == ' ')

def denotesDevice (name : Text) : Bool := isDeviceName (trimEndSpaces (beforeDot name))

def PaddedDevice (name : Text) : Prop := ∃ device spaces rest, isDeviceName device = true ∧
  name = device ++ (List.replicate (spaces + 1) ' ' ++ '.' :: rest)

variable {name part : Text}

theorem eqIgnoreAsciiCase_iff (a b : Text) :
    eqIgnoreAsciiCase a b = true ↔ toAsciiUppercase a = toAsciiUppercase b := by
  rw [eqIgnoreAsciiCase, beq_iff_eq, toAsciiUppercase, toAsciiUppercase]
  constructor
  · intro h
    have hupper := congrArg (List.map Char.toUpper) h
    simpa [List.map_map, Function.comp_def] using hupper
  · intro h
    have hlower := congrArg (List.map Char.toLower) h
    simpa [List.map_map, Function.comp_def] using hlower

theorem any_eqIgnoreAsciiCase_iff {names : List Text} (hupper : names.map toAsciiUppercase = names) :
    names.any (eqIgnoreAsciiCase part ·) = true ↔ toAsciiUppercase part ∈ names := by
  rw [List.any_eq_true]
  constructor
  · rintro ⟨device, hdevice, heq⟩
    rw [eqIgnoreAsciiCase_iff] at heq
    rw [heq, ← hupper]
    exact List.mem_map_of_mem hdevice
  · intro h
    have hfixed : toAsciiUppercase (toAsciiUppercase part) = toAsciiUppercase part := by
      simp [toAsciiUppercase, List.map_map, Function.comp_def]
    exact ⟨_, h, (eqIgnoreAsciiCase_iff _ _).mpr hfixed.symm⟩

theorem isDeviceName_iff : isDeviceName part = true ↔ toAsciiUppercase part ∈ deviceNames :=
  any_eqIgnoreAsciiCase_iff (by decide)

theorem isPrefixOf?_eq_some {a b rest : Text} : a.isPrefixOf? b = some rest ↔ b = a ++ rest := by
  induction a generalizing b with
  | nil => simp [List.isPrefixOf?, eq_comm]
  | cons c a ih =>
    cases b with
    | nil => simp [List.isPrefixOf?]
    | cons d b =>
      rw [List.isPrefixOf?]
      by_cases hcd : c = d
      · subst hcd
        simp [ih]
      · simp [hcd, Ne.symm hcd]

theorem headD_splitOn (name : Text) : (name.splitOn '.').headD name = beforeDot name := by
  have hhead : ∀ (name other : Text),
      (name.splitOnP (· == '.')).headD other = beforeDot name := by
    intro name
    induction name with
    | nil => simp [beforeDot]
    | cons c name ih =>
      intro other
      rw [List.splitOnP_cons_eq_if_modifyHead, beforeDot, List.takeWhile_cons]
      by_cases hc : c = '.'
      · simp [hc]
      · have hrest := ih []
        cases hsplit : name.splitOnP (· == '.') with
        | nil => exact absurd hsplit (List.splitOnP_ne_nil _ _)
        | cons head tail =>
          rw [hsplit] at hrest
          simp only [List.headD_cons] at hrest
          simp [hc, hrest, beforeDot]
  exact hhead name name

theorem serialNames_subset : ∀ name ∈ serialNames, name ∈ devicePorts := by decide

theorem mem_devicePorts : part ∈ devicePorts ↔
    ∃ suffix ∈ serialSuffixes, part = ['C', 'O', 'M'] ++ suffix ∨ part = ['L', 'P', 'T'] ++ suffix := by
  simp only [devicePorts, List.mem_flatMap, List.mem_map, List.mem_cons, List.not_mem_nil, or_false,
    exists_eq_or_imp, exists_eq_left]
  constructor
  · rintro (⟨suffix, hs, rfl⟩ | ⟨suffix, hs, rfl⟩)
    · exact ⟨suffix, hs, .inl rfl⟩
    · exact ⟨suffix, hs, .inr rfl⟩
  · rintro ⟨suffix, hs, rfl | rfl⟩
    · exact .inl ⟨suffix, hs, rfl⟩
    · exact .inr ⟨suffix, hs, rfl⟩

theorem any_serialSuffix_iff : ((stripPrefix? ['C', 'O', 'M'] part).or
    (stripPrefix? ['L', 'P', 'T'] part)).any (serialSuffixes.contains ·) = true ↔
      part ∈ devicePorts := by
  rw [mem_devicePorts, Option.any_eq_true]
  simp only [Option.or_eq_some_iff, stripPrefix?, isPrefixOf?_eq_some, List.contains_iff_mem]
  constructor
  · rintro ⟨suffix, hpart, hs⟩
    exact ⟨suffix, hs, hpart.imp_right And.right⟩
  · rintro ⟨suffix, hs, rfl | rfl⟩
    · exact ⟨suffix, .inl rfl, hs⟩
    · exact ⟨suffix, .inr ⟨rfl, rfl⟩, hs⟩

theorem isReservedDosName_eq (name : Text) :
    isReservedDosName name = isDeviceName (beforeDot name) := by
  have hplain : plainDevices.any (eqIgnoreAsciiCase (beforeDot name) ·) = true ↔
      toAsciiUppercase (beforeDot name) ∈ plainDevices := any_eqIgnoreAsciiCase_iff (by decide)
  simp only [plainDevices, List.any_cons, List.any_nil, Bool.or_false, ← Bool.or_assoc] at hplain
  rw [Bool.eq_iff_iff, isDeviceName_iff, isReservedDosName, headD_splitOn, deviceNames,
    List.mem_append]
  split
  · next h =>
    exact ⟨fun _ => .inl (hplain.mp h), fun _ => rfl⟩
  · next h =>
    rw [hplain] at h
    dsimp only
    split
    · next hport =>
      exact ⟨fun _ => .inr (any_serialSuffix_iff.mp hport), fun _ => rfl⟩
    · next hport =>
      rw [any_serialSuffix_iff] at hport
      constructor
      · intro hserial
        exact .inr (serialNames_subset _ (List.contains_iff_mem.mp hserial))
      · rintro (hmem | hmem)
        · exact absurd hmem h
        · exact absurd hmem hport

theorem beforeDot_append_dropWhile (name : Text) :
    beforeDot name ++ name.dropWhile (· != '.') = name := List.takeWhile_append_dropWhile

theorem dropWhile_dot (name : Text) :
    name.dropWhile (· != '.') = [] ∨ ∃ rest, name.dropWhile (· != '.') = '.' :: rest := by
  induction name with
  | nil => exact .inl rfl
  | cons c name ih =>
    rw [List.dropWhile_cons]
    by_cases hc : c = '.'
    · subst hc
      exact .inr ⟨name, rfl⟩
    · simpa [hc] using ih

theorem eq_trimEndSpaces_append (part : Text) :
    ∃ spaces, part = trimEndSpaces part ++ List.replicate spaces ' ' := by
  refine ⟨(part.rtakeWhile (· == ' ')).length, ?_⟩
  conv_lhs => rw [← List.rdropWhile_append_rtakeWhile (p := (· == ' ')) (l := part)]
  rw [trimEndSpaces, List.append_cancel_left_eq, List.eq_replicate_iff]
  refine ⟨rfl, fun c hc => ?_⟩
  simpa using List.mem_rtakeWhile_imp hc

theorem upper_excludes : ∀ device ∈ deviceNames, '.' ∉ device ∧ ' ' ∉ device := by decide

theorem isDeviceName_excludes (h : isDeviceName part = true) : '.' ∉ part ∧ ' ' ∉ part := by
  have hexcludes := upper_excludes _ (isDeviceName_iff.mp h)
  constructor
  · intro hdot
    exact hexcludes.1 (List.mem_map_of_mem (f := Char.toUpper) hdot)
  · intro hspace
    exact hexcludes.2 (List.mem_map_of_mem (f := Char.toUpper) hspace)

theorem trimEndSpaces_append_replicate (h : ' ' ∉ part) (spaces : Nat) :
    trimEndSpaces (part ++ List.replicate spaces ' ') = part := by
  induction spaces with
  | zero =>
    rw [List.replicate_zero, List.append_nil, trimEndSpaces, List.rdropWhile_eq_self_iff]
    intro hne hlast
    rw [beq_iff_eq] at hlast
    exact h (hlast ▸ List.getLast_mem hne)
  | succ spaces ih =>
    rw [List.replicate_succ', ← List.append_assoc, trimEndSpaces,
      List.rdropWhile_concat_pos _ _ _ (by rfl)]
    exact ih

theorem PaddedDevice.denotes (h : PaddedDevice name) : denotesDevice name = true := by
  obtain ⟨device, spaces, rest, hdevice, rfl⟩ := h
  obtain ⟨hdot, hspace⟩ := isDeviceName_excludes hdevice
  have hstem : beforeDot (device ++ (List.replicate (spaces + 1) ' ' ++ '.' :: rest)) =
      device ++ List.replicate (spaces + 1) ' ' := by
    rw [beforeDot, ← List.append_assoc, List.takeWhile_append_of_pos]
    · simp
    · intro c hc
      rw [bne_iff_ne]
      rintro rfl
      simp [hdot] at hc
  rw [denotesDevice, hstem, trimEndSpaces_append_replicate hspace]
  exact hdevice

theorem validateVirtualPathComponent_reserved (h : validateVirtualPathComponent name = .ok ()) :
    isReservedDosName name = false ∧ endsWithAny name [' ', '.'] = false := by
  rw [validateVirtualPathComponent] at h
  split at h
  · cases h
  · next hrefused =>
    simp only [Bool.or_eq_true, not_or, Bool.not_eq_true] at hrefused
    exact ⟨hrefused.2, hrefused.1.1.2⟩

theorem denotesDevice_iff (h : validateVirtualPathComponent name = .ok ()) :
    denotesDevice name = true ↔ PaddedDevice name := by
  refine ⟨fun hdevice => ?_, PaddedDevice.denotes⟩
  obtain ⟨hreserved, hends⟩ := validateVirtualPathComponent_reserved h
  obtain ⟨spaces, hstem⟩ := eq_trimEndSpaces_append (beforeDot name)
  have hname := beforeDot_append_dropWhile name
  cases spaces with
  | zero =>
    rw [List.replicate_zero, List.append_nil] at hstem
    rw [isReservedDosName_eq, hstem] at hreserved
    exact absurd (hreserved.symm.trans hdevice) Bool.false_ne_true
  | succ spaces =>
    rcases dropWhile_dot name with hrest | ⟨rest, hrest⟩
    · rw [hrest, List.append_nil] at hname
      rw [← hname, hstem, List.replicate_succ', ← List.append_assoc] at hends
      simp [endsWithAny] at hends
    · refine ⟨_, spaces, rest, hdevice, ?_⟩
      rw [← List.append_assoc, ← hstem, ← hrest, hname]

theorem received_names_denote_no_device_iff (name : Text) (toLowercase : Char → Text)
    (response : List UInt8) (manifest : OfferManifest) :
    (validateVirtualPathComponent name = .ok () →
      (denotesDevice name = false ↔ ¬PaddedDevice name)) ∧
    (decodeManifestResponse toLowercase response = .ok manifest →
      ((∀ e ∈ manifest.entries, ∀ part ∈ components e.descriptor.fileName,
        denotesDevice part = false) ↔
      ∀ e ∈ manifest.entries, ∀ part ∈ components e.descriptor.fileName, ¬PaddedDevice part)) := by
  have haccepted : ∀ name, validateVirtualPathComponent name = .ok () →
      (denotesDevice name = false ↔ ¬PaddedDevice name) := by
    intro name h
    rw [← denotesDevice_iff h, Bool.not_eq_true]
  refine ⟨haccepted name, fun h => ?_⟩
  have hpaths := (decodeManifestResponse_wellFormed h).paths
  refine forall₂_congr fun e he => forall₂_congr fun part hpart => haccepted part ?_
  exact (components_ok (hpaths _ (List.mem_map_of_mem he))).2 part hpart

theorem received_names_denote_no_device_null_md :
    denotesDevice ['N', 'U', 'L', 'L', ' ', '.', 'm', 'd'] = false ↔
      ¬PaddedDevice ['N', 'U', 'L', 'L', ' ', '.', 'm', 'd'] :=
  (received_names_denote_no_device_iff ['N', 'U', 'L', 'L', ' ', '.', 'm', 'd'] asciiLowercase []
    ⟨repeatedId 9, [], fromMillis 1⟩).1 (by decide)

def paddedNul : Text := ['N', 'U', 'L', ' ', '.', 't', 'x', 't']

def paddedNulManifest : OfferManifest where
  offerId := repeatedId 9
  entries := [⟨repeatedId 1, .basic paddedNul 5⟩]
  ttl := fromMillis 1

def paddedNulResponse : List UInt8 :=
  manifestHeader paddedNulManifest ++ paddedNulManifest.entries.flatMap entryBytes

theorem paddedNulResponse_decodes :
    decodeManifestResponse asciiLowercase paddedNulResponse = .ok paddedNulManifest :=
  decodeManifestResponse_bytes paddedNulManifest ((validate_eq_ok_iff _).mp (by decide))
    (by decide) (by decide) (by decide)

theorem padded_device_accepted :
    (¬∀ name, validateVirtualPathComponent name = .ok () → denotesDevice name = false) ∧
    ¬∀ response manifest, decodeManifestResponse asciiLowercase response = .ok manifest →
      ∀ e ∈ manifest.entries, ∀ part ∈ components e.descriptor.fileName,
        denotesDevice part = false := by
  constructor
  · intro h
    exact absurd (h paddedNul (by decide)) (by decide)
  · intro h
    exact absurd (h _ _ paddedNulResponse_decodes ⟨repeatedId 1, .basic paddedNul 5⟩ (by decide)
      paddedNul (by decide)) (by decide)

end ClipFerry.VirtualTree
