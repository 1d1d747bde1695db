import ClipFerry.Settings.SettingsText

namespace ClipFerry.Settings

open Device Foundation Protocol Server VirtualTree

variable {text text' value : Text} {rest rest' : List Text} {table : Table Text Text}
  {settings : AppSettings} {endpoint : SocketAddr} {fingerprint : CertificateFingerprint}

theorem foldlM_filter (rest : List Text) (table : Table Text Text) :
    (rest.filter (· ≠ [])).foldlM addField table = rest.foldlM addField table := by
  induction rest generalizing table with
  | nil => rfl
  | cons line rest ih =>
    by_cases hempty : line = []
    · subst hempty
      exact ih table
    · rw [List.filter_cons_of_pos (by simpa using hempty), List.foldlM_cons, List.foldlM_cons]
      exact congrArg (addField table line >>= ·) (funext ih)

theorem decode_empty_lines {header : Text} (h : lines text = header :: rest)
    (h' : lines text' = header :: rest')
    (hsame : rest.filter (· ≠ []) = rest'.filter (· ≠ [])) : decode text = decode text' := by
  rw [decode, decode, h, h']
  dsimp only
  rw [← foldlM_filter rest, ← foldlM_filter rest', hsame]

theorem decode_perm {header : Text} (h : lines text = header :: rest)
    (h' : lines text' = header :: rest')
    (hperm : (rest.filter (· ≠ [])).Perm (rest'.filter (· ≠ [])))
    (hdecode : decode text = .ok settings) : decode text' = .ok settings := by
  obtain ⟨_, _, _, _, ⟨found, hfound, hlines⟩, hlocal, hactive, hpeer, hauto⟩ :=
    decode_eq_ok.mp hdecode
  rw [h] at hfound
  cases hfound
  exact decode_eq_ok.mpr ⟨_, _, _, _, ⟨rest', h', hperm.symm.trans hlines⟩, hlocal, hactive,
    hpeer, hauto⟩

def Refuses {α : Type} (result : Except IoError α) : Prop :=
  ∀ error, result = .error error → error.kind = .invalidData

theorem refuses_ok {α : Type} (a : α) : Refuses (.ok a) := nofun

theorem refuses_invalidData {α : Type} (message : String) :
    Refuses (.error (invalidData message) : Except IoError α) := by
  rintro error ⟨⟩
  rfl

theorem Refuses.bind {α β : Type} {result : Except IoError α} {next : α → Except IoError β}
    (h : Refuses result) (hnext : ∀ a, Refuses (next a)) : Refuses (result >>= next) := by
  cases result with
  | ok a => exact hnext a
  | error error =>
    rintro other ⟨⟩
    exact h error rfl

theorem addField_refuses (table : Table Text Text) (line : Text) :
    Refuses (addField table line) := by
  rw [addField]
  split
  · exact refuses_ok _
  split
  · exact refuses_invalidData _
  split
  · exact refuses_invalidData _
  split
  · exact refuses_invalidData _
  · exact refuses_ok _

theorem foldlM_refuses (rest : List Text) (table : Table Text Text) :
    Refuses (rest.foldlM addField table) := by
  induction rest generalizing table with
  | nil => exact refuses_ok _
  | cons line rest ih =>
    rw [List.foldlM_cons]
    exact (addField_refuses table line).bind ih

theorem required_refuses (table : Table Text Text) (key : String) :
    Refuses (required table key) := by
  rw [required]
  split
  · exact refuses_ok _
  · exact refuses_invalidData _

theorem validatePrivateEndpoint_refuses (endpoint : SocketAddr) :
    Refuses (validatePrivateEndpoint endpoint) := by
  rw [validatePrivateEndpoint]
  split
  · exact refuses_invalidData _
  split
  · exact refuses_invalidData _
  · exact refuses_ok _

theorem parseEndpoint_refuses (value : Text) : Refuses (parseEndpoint value) := by
  rw [parseEndpoint]
  split
  · exact refuses_invalidData _
  · exact (validatePrivateEndpoint_refuses _).bind fun _ => refuses_ok _

theorem fromStr_refuses (value : Text) : Refuses (CertificateFingerprint.fromStr value) := by
  rw [CertificateFingerprint.fromStr, CertificateFingerprint.fromCompact]
  split
  · exact refuses_invalidData _
  split
  · split
    · exact refuses_ok _
    · exact refuses_invalidData _
  · exact refuses_invalidData _

theorem parseAutoReceive_refuses (value : Text) : Refuses (parseAutoReceive value) := by
  rw [parseAutoReceive]
  split
  · exact refuses_ok _
  split
  · exact refuses_ok _
  · exact refuses_invalidData _

theorem decode_refuses (text : Text) : Refuses (decode text) := by
  rw [decode]
  split
  · exact refuses_invalidData _
  split
  · exact refuses_invalidData _
  refine (foldlM_refuses _ _).bind fun table => ?_
  rw [decodeFields]
  split
  · exact refuses_invalidData _
  refine ((required_refuses _ _).bind parseEndpoint_refuses).bind fun _ => ?_
  refine ((required_refuses _ _).bind fromStr_refuses).bind fun _ => ?_
  refine ((required_refuses _ _).bind parseEndpoint_refuses).bind fun _ => ?_
  exact ((required_refuses _ _).bind parseAutoReceive_refuses).bind fun _ => refuses_ok _

theorem validatePrivateEndpoint_eq_ok : validatePrivateEndpoint endpoint = .ok () ↔
    endpoint.port ≠ 0 ∧ endpointAllowed endpoint.ip = true := by
  rw [validatePrivateEndpoint, Checked.guard_eq_ok, Checked.guard_eq_ok, Bool.not_eq_false]
  exact and_congr_right fun _ => and_iff_left rfl

theorem parseEndpoint_eq_ok : parseEndpoint value = .ok endpoint ↔
    SocketAddr.fromStr value = some endpoint ∧ endpoint.port ≠ 0 ∧
      endpointAllowed endpoint.ip = true := by
  rw [parseEndpoint, ← validatePrivateEndpoint_eq_ok]
  cases SocketAddr.fromStr value with
  | none =>
    constructor
    · intro h
      cases h
    · rintro ⟨h, -⟩
      cases h
  | some found =>
    simp only [Checked.bind_eq_ok, Except.ok.injEq, Option.some.injEq]
    constructor
    · rintro ⟨_, hvalid, rfl⟩
      exact ⟨rfl, hvalid⟩
    · rintro ⟨rfl, hvalid⟩
      exact ⟨(), hvalid, rfl⟩

theorem hexBytes_digits {compact : Text} {bytes : List UInt8} (h : hexBytes compact = some bytes) :
    compact.length = 2 * bytes.length ∧ ∀ c ∈ compact, hexDigit c ≠ none := by
  induction compact using hexBytes.induct generalizing bytes with
  | case1 =>
    cases h
    exact ⟨rfl, List.forall_mem_nil _⟩
  | case2 high low rest ih =>
    rw [hexBytes] at h
    obtain ⟨byte, hbyte, h⟩ := Option.bind_eq_some_iff.mp h
    obtain ⟨tail, htail, h⟩ := Option.bind_eq_some_iff.mp h
    cases h
    obtain ⟨hlength, hdigits⟩ := ih htail
    rw [fromStrRadix] at hbyte
    obtain ⟨_, hhigh, hbyte⟩ := Option.bind_eq_some_iff.mp hbyte
    obtain ⟨_, hlow, _⟩ := Option.bind_eq_some_iff.mp hbyte
    refine ⟨by rw [List.length_cons, List.length_cons, hlength, List.length_cons]; omega, ?_⟩
    rw [List.forall_mem_cons, List.forall_mem_cons, hhigh, hlow]
    exact ⟨Option.some_ne_none _, Option.some_ne_none _, hdigits⟩
  | case3 => cases h

theorem fromStr_eq_ok (h : CertificateFingerprint.fromStr value = .ok fingerprint) :
    hexBytes (value.filter (· ≠ ':')) = some fingerprint.bytes.val ∧
      (value.filter (· ≠ ':')).length = 64 ∧ ∀ c ∈ value, c = ':' ∨ hexDigit c ≠ none := by
  rw [CertificateFingerprint.fromStr, CertificateFingerprint.fromCompact, Checked.guard_eq_ok] at h
  obtain ⟨-, h⟩ := h
  split at h
  · next bytes hbytes =>
    split at h
    · cases h
      obtain ⟨hlength, hdigits⟩ := hexBytes_digits hbytes
      refine ⟨hbytes, ?_, fun c hc => ?_⟩
      · rw [hlength]
        simp_all
      · by_cases hcolon : c = ':'
        · exact .inl hcolon
        · exact .inr (hdigits c (List.mem_filter.mpr ⟨hc, decide_eq_true hcolon⟩))
    · cases h
  · cases h

theorem parseAutoReceive_eq_ok {autoReceive : Bool}
    (h : parseAutoReceive value = .ok autoReceive) :
    (value = ['0'] ∧ autoReceive = false) ∨ (value = ['1'] ∧ autoReceive = true) := by
  rw [parseAutoReceive] at h
  split at h
  · next hzero =>
    cases h
    exact .inl ⟨hzero, rfl⟩
  split at h
  · next hone =>
    cases h
    exact .inr ⟨hone, rfl⟩
  · cases h

structure WellFormed (text : Text) (settings : AppSettings) : Prop where
  lines : ∃ rest localText activeText peerText autoText,
    lines text = settingsHeader :: rest ∧
    (rest.filter (· ≠ [])).Perm [field "local_endpoint" localText, field "active_peer" activeText,
      field "peer_endpoint" peerText, field "auto_receive" autoText] ∧
    SocketAddr.fromStr localText = some settings.localEndpoint ∧
    SocketAddr.fromStr peerText = some settings.peerEndpoint ∧
    (hexBytes (activeText.filter (· ≠ ':')) = some settings.activePeer.bytes.val ∧
      (activeText.filter (· ≠ ':')).length = 64 ∧
      ∀ c ∈ activeText, c = ':' ∨ hexDigit c ≠ none) ∧
    ((autoText = ['0'] ∧ settings.autoReceive = false) ∨
      (autoText = ['1'] ∧ settings.autoReceive = true))
  localEndpoint : settings.localEndpoint.port ≠ 0 ∧ endpointAllowed settings.localEndpoint.ip = true
  peerEndpoint : settings.peerEndpoint.port ≠ 0 ∧ endpointAllowed settings.peerEndpoint.ip = true

theorem decode_wellFormed (h : decode text = .ok settings) : WellFormed text settings := by
  obtain ⟨localText, activeText, peerText, autoText, ⟨rest, hrest, hperm⟩, hlocal, hactive, hpeer,
    hauto⟩ := decode_eq_ok.mp h
  obtain ⟨hlocal, hlocalValid⟩ := parseEndpoint_eq_ok.mp hlocal
  obtain ⟨hpeer, hpeerValid⟩ := parseEndpoint_eq_ok.mp hpeer
  exact ⟨⟨rest, localText, activeText, peerText, autoText, hrest, hperm, hlocal, hpeer,
    fromStr_eq_ok hactive, parseAutoReceive_eq_ok hauto⟩, hlocalValid, hpeerValid⟩

theorem settings_text_format :
    (∀ settings : AppSettings, validatePrivateEndpoint settings.localEndpoint = .ok () →
      validatePrivateEndpoint settings.peerEndpoint = .ok () →
      decode settings.encode = .ok settings) ∧
    (∀ text text' header rest rest', lines text = header :: rest → lines text' = header :: rest' →
      rest.filter (· ≠ []) = rest'.filter (· ≠ []) → decode text = decode text') ∧
    (∀ text text' header rest rest', lines text = header :: rest → lines text' = header :: rest' →
      (rest.filter (· ≠ [])).Perm (rest'.filter (· ≠ [])) →
      ∀ settings, decode text = .ok settings ↔ decode text' = .ok settings) ∧
    (∀ text error, decode text = .error error → error.kind = .invalidData) ∧
    (∀ text settings, decode text = .ok settings → WellFormed text settings) ∧
    ∀ fingerprint, CertificateFingerprint.fromStr (CertificateFingerprint.display fingerprint) =
      .ok fingerprint := by
  refine ⟨fun _ => AppSettings.decode_encode, fun _ _ _ _ _ => decode_empty_lines, ?_,
    decode_refuses, fun _ _ => decode_wellFormed, CertificateFingerprint.fromStr_display⟩
  intro text text' header rest rest' h h' hperm settings
  exact ⟨decode_perm h h' hperm, decode_perm h' h hperm.symm⟩

def lanHost (host : UInt8) : List.Vector UInt8 4 := ⟨[192, 168, 1, host], rfl⟩

def lanSettings (autoReceive : Bool) : AppSettings where
  localEndpoint := .v4 (lanHost 10) 45233
  activePeer := ⟨repeatedSecret 7⟩
  peerEndpoint := .v4 (lanHost 11) 45233
  autoReceive := autoReceive

theorem settings_text_format_lan :
    decode (lanSettings true).encode = .ok (lanSettings true) ∧
      WellFormed (lanSettings true).encode (lanSettings true) :=
  have hdecode := settings_text_format.1 (lanSettings true) rfl rfl
  ⟨hdecode, settings_text_format.2.2.2.2.1 _ _ hdecode⟩

def unknownFirst : Text := "ClipFerrySettingsV1\nmode=1\nauto_receive\n".toList

def unknownLast : Text := "ClipFerrySettingsV1\nauto_receive\nmode=1\n".toList

theorem refusal_depends_on_order : ∃ rest rest', lines unknownFirst = settingsHeader :: rest ∧
    lines unknownLast = settingsHeader :: rest' ∧ rest.Perm rest' ∧
    decode unknownFirst ≠ decode unknownLast := by
  have hfirst : decode unknownFirst = .error (invalidData "settings contain an unknown field") :=
    rfl
  have hlast : decode unknownLast = .error (invalidData "settings line is missing '='") := rfl
  refine ⟨["mode=1".toList, "auto_receive".toList], ["auto_receive".toList, "mode=1".toList],
    by decide, by decide, .swap .., ?_⟩
  rw [hfirst, hlast]
  intro hsame
  exact absurd (congrArg IoError.message (Except.error.inj hsame)) (by decide)

end ClipFerry.Settings
