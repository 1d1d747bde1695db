import ClipFerry.Device.TrustRecord
import ClipFerry.Settings.AddressText

namespace ClipFerry.Settings

open Device Foundation Protocol Server VirtualTree

def settingsHeader : Text := "ClipFerrySettingsV1".toList

def settingsLimit : Nat := 4096

def settingsKeys : List Text :=
  ["local_endpoint".toList, "active_peer".toList, "peer_endpoint".toList, "auto_receive".toList]

def field (key : String) (value : Text) : Text := key.toList ++ '=' :: value

def autoReceiveText (autoReceive : Bool) : Text := decimal autoReceive.toNat

namespace AppSettings

def validate (loadPeer : CertificateFingerprint → Except IoError TrustedPeer)
    (settings : AppSettings) : Except IoError Unit := do
  validatePrivateEndpoint settings.localEndpoint
  validatePrivateEndpoint settings.peerEndpoint
  if settings.localEndpoint.ip.isLoopback ≠ settings.peerEndpoint.ip.isLoopback then
    .error (invalidData
      "local and peer endpoints must both be loopback or both be private LAN addresses") else
  let peer ← loadPeer settings.activePeer
  if peer.fingerprint ≠ settings.activePeer then
    .error (invalidData "active peer record does not match its fingerprint")
  else .ok ()

def fieldLines (settings : AppSettings) : List Text :=
  [field "local_endpoint" settings.localEndpoint.display,
    field "active_peer" (CertificateFingerprint.display settings.activePeer),
    field "peer_endpoint" settings.peerEndpoint.display,
    field "auto_receive" (autoReceiveText settings.autoReceive)]

def encode (settings : AppSettings) : Text :=
  (settingsHeader :: settings.fieldLines).flatMap (· ++ ['\n'])

end AppSettings

def splitInclusive : Text → List Text
  | [] => []
  | c :: rest =>
    if c = '\n' then ['\n'] :: splitInclusive rest
    else
      match splitInclusive rest with
      | [] => [[c]]
      | line :: lines => (c :: line) :: lines

def stripSuffix (suffix : Char) (text : Text) : Option Text :=
  if text.getLast? = some suffix then some text.dropLast else none

def lineText (piece : Text) : Text :=
  match stripSuffix '\n' piece with
  | none => piece
  | some line => (stripSuffix '\r' line).getD line

def lines (text : Text) : List Text := (splitInclusive text).map lineText

def splitOnce (separator : Char) : Text → Option (Text × Text)
  | [] => none
  | c :: rest =>
    if c = separator then some ([], rest)
    else (splitOnce separator rest).map fun (key, value) => (c :: key, value)

def addField (fields : Table Text Text) (line : Text) : Except IoError (Table Text Text) :=
  if line = [] then .ok fields
  else
    match splitOnce '=' line with
    | none => .error (invalidData "settings line is missing '='")
    | some (key, value) =>
      if key ∉ settingsKeys then .error (invalidData "settings contain an unknown field")
      else if fields.get key ≠ none then
        .error (invalidData "settings contain a duplicate field")
      else .ok (fields.insert key value)

def required (fields : Table Text Text) (key : String) : Except IoError Text :=
  match fields.get key.toList with
  | some value => .ok value
  | none => .error (invalidData "settings are incomplete")

def parseEndpoint (value : Text) : Except IoError SocketAddr :=
  match SocketAddr.fromStr value with
  | none => .error (invalidData "settings contain an invalid socket endpoint")
  | some endpoint => do
    validatePrivateEndpoint endpoint
    .ok endpoint

def parseAutoReceive (value : Text) : Except IoError Bool :=
  if value = ['0'] then .ok false
  else if value = ['1'] then .ok true
  else .error (invalidData "auto_receive must be 0 or 1")

def decodeFields (fields : Table Text Text) : Except IoError AppSettings := do
  if fields.len ≠ 4 then .error (invalidData "settings are incomplete") else
  let localEndpoint ← required fields "local_endpoint" >>= parseEndpoint
  let activePeer ← required fields "active_peer" >>= CertificateFingerprint.fromStr
  let peerEndpoint ← required fields "peer_endpoint" >>= parseEndpoint
  let autoReceive ← required fields "auto_receive" >>= parseAutoReceive
  .ok ⟨localEndpoint, activePeer, peerEndpoint, autoReceive⟩

def decode (text : Text) : Except IoError AppSettings :=
  match lines text with
  | [] => .error (invalidData "unsupported settings header")
  | header :: rest =>
    if header ≠ settingsHeader then .error (invalidData "unsupported settings header")
    else rest.foldlM addField ∅ >>= decodeFields

variable {line key value text rest : Text} {settings : AppSettings}

theorem splitInclusive_line (h : '\n' ∉ line) :
    splitInclusive (line ++ '\n' :: rest) = (line ++ ['\n']) :: splitInclusive rest := by
  induction line with
  | nil => rw [List.nil_append, splitInclusive, if_pos rfl]; rfl
  | cons c line ih =>
    have hc : c ≠ '\n' := fun hsame => h (hsame ▸ List.mem_cons_self)
    rw [List.cons_append, splitInclusive, if_neg hc, ih fun hmem => h (List.mem_cons_of_mem _ hmem)]
    rfl

theorem lineText_line (h : '\r' ∉ line) : lineText (line ++ ['\n']) = line := by
  have hreturn : line.getLast? ≠ some '\r' := fun hlast => h (List.mem_of_getLast? hlast)
  rw [lineText, stripSuffix, List.getLast?_concat, if_pos rfl, List.dropLast_concat]
  dsimp only
  rw [stripSuffix, if_neg hreturn]
  rfl

theorem lines_line (hline : '\n' ∉ line) (hreturn : '\r' ∉ line) :
    lines (line ++ '\n' :: rest) = line :: lines rest := by
  rw [lines, splitInclusive_line hline, List.map_cons, lineText_line hreturn]
  rfl

theorem lines_append {pieces : List Text} (h : ∀ piece ∈ pieces, '\n' ∉ piece ∧ '\r' ∉ piece)
    (rest : Text) : lines (pieces.flatMap (· ++ ['\n']) ++ rest) = pieces ++ lines rest := by
  induction pieces with
  | nil => rfl
  | cons piece pieces ih =>
    obtain ⟨hline, hreturn⟩ := h piece List.mem_cons_self
    rw [List.flatMap_cons, List.append_assoc, List.append_assoc, List.singleton_append,
      lines_line hline hreturn, ih fun other hother => h other (List.mem_cons_of_mem _ hother)]
    rfl

theorem lines_flatMap {pieces : List Text}
    (h : ∀ piece ∈ pieces, '\n' ∉ piece ∧ '\r' ∉ piece) :
    lines (pieces.flatMap (· ++ ['\n'])) = pieces := by
  have hlines := lines_append h []
  have hnil : lines [] = [] := rfl
  rwa [hnil, List.append_nil, List.append_nil] at hlines

theorem lines_unended (hline : '\n' ∉ line) (hfull : line ≠ []) : lines line = [line] := by
  have hsplit : splitInclusive line = [line] := by
    induction line with
    | nil => exact absurd rfl hfull
    | cons c line ih =>
      have hc : c ≠ '\n' := fun hsame => hline (hsame ▸ List.mem_cons_self)
      rw [splitInclusive, if_neg hc]
      by_cases hempty : line = []
      · subst hempty
        rfl
      · rw [ih (fun hmem => hline (List.mem_cons_of_mem _ hmem)) hempty]
  have hlast : line.getLast? ≠ some '\n' := fun hlast => hline (List.mem_of_getLast? hlast)
  rw [lines, hsplit, List.map_singleton, lineText, stripSuffix, if_neg hlast]

theorem splitOnce_field {separator : Char} (h : separator ∉ key) :
    splitOnce separator (key ++ separator :: value) = some (key, value) := by
  induction key with
  | nil => rw [List.nil_append, splitOnce, if_pos rfl]
  | cons c key ih =>
    have hc : c ≠ separator := fun hsame => h (hsame ▸ List.mem_cons_self)
    rw [List.cons_append, splitOnce, if_neg hc, ih fun hmem => h (List.mem_cons_of_mem _ hmem)]
    rfl

theorem splitOnce_eq_some {separator : Char} : splitOnce separator line = some (key, value) ↔
    separator ∉ key ∧ line = key ++ separator :: value := by
  constructor
  · intro h
    induction line generalizing key with
    | nil => cases h
    | cons c line ih =>
      rw [splitOnce] at h
      split at h
      · next hc =>
        cases h
        exact ⟨List.not_mem_nil, by rw [hc]; rfl⟩
      · next hc =>
        obtain ⟨⟨key', value'⟩, hrest, hsame⟩ := Option.map_eq_some_iff.mp h
        cases hsame
        obtain ⟨hkey, rfl⟩ := ih hrest
        refine ⟨?_, rfl⟩
        rintro (_ | ⟨_, hmem⟩)
        · exact hc rfl
        · exact hkey hmem
  · rintro ⟨hkey, rfl⟩
    exact splitOnce_field hkey

def fieldsOf (rest : List Text) : List (Text × Text) := rest.filterMap (splitOnce '=')

structure FieldLines (table : Table Text Text) (rest : List Text) : Prop where
  split : ∀ line ∈ rest, line ≠ [] → splitOnce '=' line ≠ none
  known : ∀ entry ∈ fieldsOf rest, entry.1 ∈ settingsKeys
  distinct : table.Distinct (fieldsOf rest)

variable {table table' : Table Text Text} {pieces : List Text}

theorem addField_eq_ok : addField table line = .ok table' ↔
    (line = [] ∧ table' = table) ∨ ∃ key value, splitOnce '=' line = some (key, value) ∧
      key ∈ settingsKeys ∧ table.get key = none ∧ table' = table.insert key value := by
  rw [addField]
  split
  · next hempty =>
    subst hempty
    constructor
    · intro h
      exact .inl ⟨rfl, (Except.ok.inj h).symm⟩
    · rintro (⟨-, rfl⟩ | ⟨key, value, hsplit, -⟩)
      · rfl
      · cases hsplit
  · next hline =>
    cases hsplit : splitOnce '=' line with
    | none =>
      constructor
      · intro h
        cases h
      · rintro (⟨hempty, -⟩ | ⟨key, value, hsome, -⟩)
        · exact absurd hempty hline
        · cases hsome
    | some entry =>
      obtain ⟨key, value⟩ := entry
      dsimp only
      rw [Checked.guard_eq_ok, Checked.guard_eq_ok, not_not, not_not, Except.ok.injEq]
      constructor
      · rintro ⟨hknown, hfresh, rfl⟩
        exact .inr ⟨key, value, rfl, hknown, hfresh, rfl⟩
      · rintro (⟨hempty, -⟩ | ⟨key, value, hsome, hknown, hfresh, rfl⟩)
        · exact absurd hempty hline
        · cases hsome
          exact ⟨hknown, hfresh, rfl⟩

theorem foldlM_addField : pieces.foldlM addField table = .ok table' ↔
    FieldLines table pieces ∧ table' = table.insertAll (fieldsOf pieces) := by
  induction pieces generalizing table with
  | nil =>
    constructor
    · intro h
      cases h
      exact ⟨⟨nofun, nofun, nofun, .nil⟩, rfl⟩
    · rintro ⟨-, rfl⟩
      rfl
  | cons line pieces ih =>
    rw [Checked.foldlM_cons_eq_ok]
    constructor
    · rintro ⟨middle, hline, hpieces⟩
      obtain ⟨⟨hsplit, hknown, hdistinct⟩, rfl⟩ := ih.mp hpieces
      rcases addField_eq_ok.mp hline with ⟨rfl, rfl⟩ | ⟨key, value, hentry, hkey, hfresh, rfl⟩
      · exact ⟨⟨List.forall_mem_cons.mpr ⟨fun h => absurd rfl h, hsplit⟩, hknown, hdistinct⟩, rfl⟩
      · have hfields : fieldsOf (line :: pieces) = (key, value) :: fieldsOf pieces :=
          List.filterMap_cons_some hentry
        refine ⟨⟨List.forall_mem_cons.mpr ⟨fun _ => by rw [hentry]; nofun, hsplit⟩, ?_, ?_⟩, ?_⟩
        · rw [hfields]
          exact List.forall_mem_cons.mpr ⟨hkey, hknown⟩
        · rw [hfields]
          exact Table.distinct_cons.mpr ⟨hfresh, hdistinct⟩
        · rw [hfields]
          rfl
    · rintro ⟨⟨hsplit, hknown, hdistinct⟩, hsame⟩
      obtain ⟨hline, hpieces⟩ := List.forall_mem_cons.mp hsplit
      by_cases hempty : line = []
      · subst hempty
        exact ⟨table, rfl, ih.mpr ⟨⟨hpieces, hknown, hdistinct⟩, hsame⟩⟩
      · obtain ⟨⟨key, value⟩, hentry⟩ := Option.ne_none_iff_exists'.mp (hline hempty)
        have hfields : fieldsOf (line :: pieces) = (key, value) :: fieldsOf pieces :=
          List.filterMap_cons_some hentry
        rw [hfields] at hknown hdistinct hsame
        obtain ⟨hkey, hknown⟩ := List.forall_mem_cons.mp hknown
        obtain ⟨hfresh, hdistinct⟩ := Table.distinct_cons.mp hdistinct
        exact ⟨table.insert key value,
          addField_eq_ok.mpr (.inr ⟨key, value, hentry, hkey, hfresh, rfl⟩),
          ih.mpr ⟨⟨hpieces, hknown, hdistinct⟩, hsame⟩⟩

theorem required_eq_ok {key : String} :
    required table key = .ok value ↔ table.get key.toList = some value := by
  rw [required]
  cases table.get key.toList with
  | none => exact ⟨nofun, nofun⟩
  | some found => simp

theorem splitOnce_lines (h : ∀ line ∈ pieces, line ≠ [] → splitOnce '=' line ≠ none) :
    pieces.filter (· ≠ []) = (fieldsOf pieces).map fun entry => entry.1 ++ '=' :: entry.2 := by
  induction pieces with
  | nil => rfl
  | cons line pieces ih =>
    obtain ⟨hline, hpieces⟩ := List.forall_mem_cons.mp h
    by_cases hempty : line = []
    · subst hempty
      exact ih hpieces
    · obtain ⟨⟨key, value⟩, hentry⟩ := Option.ne_none_iff_exists'.mp (hline hempty)
      have hfields : fieldsOf (line :: pieces) = (key, value) :: fieldsOf pieces :=
        List.filterMap_cons_some hentry
      rw [hfields, List.filter_cons_of_pos (by simpa using hempty), ih hpieces, List.map_cons,
        (splitOnce_eq_some.mp hentry).2]

theorem fieldsOf_filter (pieces : List Text) :
    fieldsOf (pieces.filter (· ≠ [])) = fieldsOf pieces := by
  rw [fieldsOf, List.filterMap_filter]
  apply List.filterMap_congr
  intro line _
  by_cases hempty : line = []
  · subst hempty
    rfl
  · rw [if_pos (decide_eq_true hempty)]

def fourLines (localText activeText peerText autoText : Text) : List Text :=
  [field "local_endpoint" localText, field "active_peer" activeText,
    field "peer_endpoint" peerText, field "auto_receive" autoText]

def fourFields (localText activeText peerText autoText : Text) : List (Text × Text) :=
  [("local_endpoint".toList, localText), ("active_peer".toList, activeText),
    ("peer_endpoint".toList, peerText), ("auto_receive".toList, autoText)]

variable {localText activeText peerText autoText : Text}

theorem fieldsOf_fourLines : fieldsOf (fourLines localText activeText peerText autoText) =
    fourFields localText activeText peerText autoText := by
  simp only [fieldsOf, fourLines, field, fourFields, List.filterMap_cons, List.filterMap_nil]
  rw [splitOnce_field (by decide), splitOnce_field (by decide), splitOnce_field (by decide),
    splitOnce_field (by decide)]

theorem splitOnce_fourLines :
    ∀ line ∈ fourLines localText activeText peerText autoText, splitOnce '=' line ≠ none := by
  have hfield {name : String} (hname : '=' ∉ name.toList) (value : Text) :
      splitOnce '=' (field name value) ≠ none := by
    rw [field, splitOnce_field hname]
    nofun
  simp only [fourLines, List.forall_mem_cons]
  exact ⟨hfield (by decide) _, hfield (by decide) _, hfield (by decide) _, hfield (by decide) _,
    nofun⟩

theorem fieldLines_iff : FieldLines ∅ pieces ∧ (fieldsOf pieces).length = 4 ∧
      (Table.insertAll ∅ (fieldsOf pieces)).get "local_endpoint".toList = some localText ∧
      (Table.insertAll ∅ (fieldsOf pieces)).get "active_peer".toList = some activeText ∧
      (Table.insertAll ∅ (fieldsOf pieces)).get "peer_endpoint".toList = some peerText ∧
      (Table.insertAll ∅ (fieldsOf pieces)).get "auto_receive".toList = some autoText ↔
    (pieces.filter (· ≠ [])).Perm (fourLines localText activeText peerText autoText) := by
  have hget (h : FieldLines ∅ pieces) (key value : Text) :
      (Table.insertAll ∅ (fieldsOf pieces)).get key = some value ↔
        (key, value) ∈ fieldsOf pieces :=
    (Table.get_insertAll h.distinct).trans (or_iff_left nofun)
  constructor
  · rintro ⟨hlines, hlength, hlocal, hactive, hpeer, hauto⟩
    rw [hget hlines] at hlocal hactive hpeer hauto
    have hsubset : fourFields localText activeText peerText autoText ⊆ fieldsOf pieces := by
      simp only [fourFields, List.cons_subset]
      exact ⟨hlocal, hactive, hpeer, hauto, List.nil_subset _⟩
    have hnodup : (fourFields localText activeText peerText autoText).Nodup :=
      .of_map Prod.fst (by decide : settingsKeys.Nodup)
    have hperm : (fourFields localText activeText peerText autoText).Perm (fieldsOf pieces) :=
      (List.subperm_of_subset hnodup hsubset).perm_of_length_le hlength.le
    rw [splitOnce_lines hlines.split]
    exact (hperm.map _).symm
  · intro hperm
    have hfields : (fieldsOf pieces).Perm (fourFields localText activeText peerText autoText) := by
      rw [← fieldsOf_filter, ← fieldsOf_fourLines]
      exact hperm.filterMap _
    have hlines : FieldLines ∅ pieces := by
      refine ⟨fun line hline hempty => ?_, fun entry hentry => ?_, fun _ _ => rfl, ?_⟩
      · have hmem : line ∈ fourLines localText activeText peerText autoText :=
          hperm.subset (List.mem_filter.mpr ⟨hline, decide_eq_true hempty⟩)
        exact splitOnce_fourLines line hmem
      · have hmem := List.mem_map_of_mem (f := Prod.fst) (hfields.subset hentry)
        exact hmem
      · exact (hfields.map Prod.fst).nodup_iff.mpr (by decide : settingsKeys.Nodup)
    simp only [hget hlines, hfields.mem_iff, hfields.length_eq]
    exact ⟨hlines, rfl, by simp [fourFields], by simp [fourFields], by simp [fourFields], by simp [fourFields]⟩

structure Accepted (text : Text) (settings : AppSettings)
    (localText activeText peerText autoText : Text) : Prop where
  lines : ∃ rest, lines text = settingsHeader :: rest ∧
    (rest.filter (· ≠ [])).Perm (fourLines localText activeText peerText autoText)
  localEndpoint : parseEndpoint localText = .ok settings.localEndpoint
  activePeer : CertificateFingerprint.fromStr activeText = .ok settings.activePeer
  peerEndpoint : parseEndpoint peerText = .ok settings.peerEndpoint
  autoReceive : parseAutoReceive autoText = .ok settings.autoReceive

theorem decodeFields_eq_ok : decodeFields table = .ok settings ↔ table.len = 4 ∧
    ∃ localText activeText peerText autoText,
      table.get "local_endpoint".toList = some localText ∧
      table.get "active_peer".toList = some activeText ∧
      table.get "peer_endpoint".toList = some peerText ∧
      table.get "auto_receive".toList = some autoText ∧
      parseEndpoint localText = .ok settings.localEndpoint ∧
      CertificateFingerprint.fromStr activeText = .ok settings.activePeer ∧
      parseEndpoint peerText = .ok settings.peerEndpoint ∧
      parseAutoReceive autoText = .ok settings.autoReceive := by
  rw [decodeFields, Checked.guard_eq_ok, not_not]
  refine and_congr_right fun _ => ?_
  simp only [Checked.bind_eq_ok, required_eq_ok]
  constructor
  · rintro ⟨_, ⟨localText, hlocal, hl⟩, _, ⟨activeText, hactive, ha⟩, _, ⟨peerText, hpeer, hp⟩,
      _, ⟨autoText, hauto, hr⟩, hsame⟩
    cases hsame
    exact ⟨localText, activeText, peerText, autoText, hlocal, hactive, hpeer, hauto, hl, ha, hp, hr⟩
  · rintro ⟨localText, activeText, peerText, autoText, hlocal, hactive, hpeer, hauto, hl, ha, hp, hr⟩
    exact ⟨_, ⟨localText, hlocal, hl⟩, _, ⟨activeText, hactive, ha⟩, _, ⟨peerText, hpeer, hp⟩,
      _, ⟨autoText, hauto, hr⟩, rfl⟩

theorem decode_eq_ok : decode text = .ok settings ↔
    ∃ localText activeText peerText autoText,
      Accepted text settings localText activeText peerText autoText := by
  have hlen {pieces : List Text} (h : FieldLines ∅ pieces) :
      (Table.insertAll ∅ (fieldsOf pieces)).len = (fieldsOf pieces).length :=
    (Table.len_insertAll h.distinct).trans (Nat.zero_add _)
  rw [decode]
  cases hlines : lines text with
  | nil =>
    constructor
    · nofun
    · rintro ⟨_, _, _, _, ⟨⟨rest, hrest, -⟩, -⟩⟩
      rw [hlines] at hrest
      cases hrest
  | cons header rest =>
    dsimp only
    rw [Checked.guard_eq_ok, not_not, Checked.bind_eq_ok]
    constructor
    · rintro ⟨rfl, table, hfold, hdecode⟩
      obtain ⟨hfields, rfl⟩ := foldlM_addField.mp hfold
      obtain ⟨hfour, _, _, _, _, hlocal, hactive, hpeer, hauto, hl, ha, hp, hr⟩ :=
        decodeFields_eq_ok.mp hdecode
      rw [hlen hfields] at hfour
      exact ⟨_, _, _, _, ⟨rest, hlines,
        fieldLines_iff.mp ⟨hfields, hfour, hlocal, hactive, hpeer, hauto⟩⟩, hl, ha, hp, hr⟩
    · rintro ⟨_, _, _, _, ⟨rest', hrest, hperm⟩, hl, ha, hp, hr⟩
      rw [hlines] at hrest
      cases hrest
      obtain ⟨hfields, hfour, hlocal, hactive, hpeer, hauto⟩ := fieldLines_iff.mpr hperm
      refine ⟨rfl, _, foldlM_addField.mpr ⟨hfields, rfl⟩, decodeFields_eq_ok.mpr ⟨?_, ?_⟩⟩
      · rw [hlen hfields, hfour]
      · exact ⟨_, _, _, _, hlocal, hactive, hpeer, hauto, hl, ha, hp, hr⟩

theorem parseEndpoint_display {endpoint : SocketAddr}
    (h : validatePrivateEndpoint endpoint = .ok ()) :
    parseEndpoint endpoint.display = .ok endpoint := by
  rw [parseEndpoint, SocketAddr.fromStr_display]
  dsimp only
  rw [h]
  rfl

theorem parseAutoReceive_text (autoReceive : Bool) :
    parseAutoReceive (autoReceiveText autoReceive) = .ok autoReceive := by
  cases autoReceive <;> rfl

theorem plain_char {c : Char} (h : PlainChar c) : c ≠ '\n' ∧ c ≠ '\r' := by
  constructor
  · rintro rfl
    exact absurd h (by decide)
  · rintro rfl
    exact absurd h (by decide)

def PlainField (line : Text) : Prop := ∃ key ∈ settingsKeys, ∃ value : Text,
  line = key ++ '=' :: value ∧ ∀ c ∈ value, PlainChar c

theorem PlainField.unbroken (h : PlainField line) : '\n' ∉ line ∧ '\r' ∉ line := by
  obtain ⟨key, hkey, value, rfl, hvalue⟩ := h
  have hkeys : ∀ key ∈ settingsKeys, '\n' ∉ key ++ ['='] ∧ '\r' ∉ key ++ ['='] := by decide
  obtain ⟨hline, hreturn⟩ := hkeys key hkey
  rw [List.append_cons]
  constructor
  · intro hmem
    rcases List.mem_append.mp hmem with hmem | hmem
    · exact hline hmem
    · exact (plain_char (hvalue _ hmem)).1 rfl
  · intro hmem
    rcases List.mem_append.mp hmem with hmem | hmem
    · exact hreturn hmem
    · exact (plain_char (hvalue _ hmem)).2 rfl

namespace AppSettings

theorem fieldLines_plain (settings : AppSettings) : ∀ line ∈ settings.fieldLines, PlainField line := by
  have hfingerprint : ∀ c ∈ CertificateFingerprint.display settings.activePeer, PlainChar c := by
    intro c hc
    rcases CertificateFingerprint.mem_display hc with rfl | hhex
    · exact .inl (by decide)
    · exact .inr hhex
  have hautoReceive : ∀ c ∈ autoReceiveText settings.autoReceive, PlainChar c := fun _ hc =>
    .inr (mem_decimal hc)
  simp only [fieldLines, List.forall_mem_cons]
  refine ⟨?_, ?_, ?_, ?_, nofun⟩
  · exact ⟨_, by decide, _, rfl, settings.localEndpoint.display_chars⟩
  · exact ⟨_, by decide, _, rfl, hfingerprint⟩
  · exact ⟨_, by decide, _, rfl, settings.peerEndpoint.display_chars⟩
  · exact ⟨_, by decide, _, rfl, hautoReceive⟩

theorem lines_unbroken (settings : AppSettings) :
    ∀ line ∈ settingsHeader :: settings.fieldLines, '\n' ∉ line ∧ '\r' ∉ line :=
  List.forall_mem_cons.mpr ⟨by decide, fun line hline => (settings.fieldLines_plain line hline).unbroken⟩

theorem decode_encode (hlocal : validatePrivateEndpoint settings.localEndpoint = .ok ())
    (hpeer : validatePrivateEndpoint settings.peerEndpoint = .ok ()) :
    decode settings.encode = .ok settings := by
  refine decode_eq_ok.mpr ⟨_, _, _, _, ⟨settings.fieldLines,
    lines_flatMap settings.lines_unbroken, ?_⟩, parseEndpoint_display hlocal,
    CertificateFingerprint.fromStr_display settings.activePeer, parseEndpoint_display hpeer,
    parseAutoReceive_text settings.autoReceive⟩
  rw [List.filter_eq_self.mpr]
  · exact .refl _
  · intro line hline
    refine decide_eq_true fun hempty => ?_
    subst hempty
    exact splitOnce_fourLines [] hline rfl

end AppSettings

end ClipFerry.Settings
