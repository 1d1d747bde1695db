import ClipFerry.Device.ReadBounded
import ClipFerry.Foundation.Transition
import ClipFerry.Settings.SettingsFormat

namespace ClipFerry.Settings

open Device Foundation Protocol Server Transition VirtualTree

/-! `settings.v1`, absent or with its bytes. -/

abbrev Stored : Type := Option (List UInt8)

abbrev LoadPeer : Type := CertificateFingerprint → Except IoError TrustedPeer

def readToString (bytes : List UInt8) : Except IoError Text :=
  match fromUtf8 bytes with
  | .ok text => .ok text
  | .error _ => .error (invalidData "stream did not contain valid UTF-8")

namespace AppSettings

def bytes (settings : AppSettings) : List UInt8 := asBytes settings.encode

def finishLoad (loadPeer : LoadPeer) (contents : List UInt8) : Except IoError AppSettings := do
  let text ← readToString contents
  let settings ← decode text
  settings.validate loadPeer
  .ok settings

def lengthRefused (contents : List UInt8) : Bool :=
  contents.length = 0 || settingsLimit < contents.length

def outsideBounds : IoError := invalidData "settings file length is outside the allowed bounds"

def load (loadPeer : LoadPeer) : Stored → Except IoError AppSettings
  | none => .error notFound
  | some contents =>
    if lengthRefused contents then .error outsideBounds
    else finishLoad loadPeer (contents.take (settingsLimit + 1))

end AppSettings

inductive LoadPhase where
  | opening
  | statting
  | reading (bytes : List UInt8)
  | finished (result : Except IoError AppSettings)

inductive LoadStep (loadPeer : LoadPeer) (stored : Stored) : LoadPhase → LoadPhase → Prop
  | failed {phase : LoadPhase} (error : IoError) (hactive : ∀ result, phase ≠ .finished result) :
      LoadStep loadPeer stored phase (.finished (.error error))
  | opened {contents : List UInt8} (hstored : stored = some contents) :
      LoadStep loadPeer stored .opening .statting
  | refused {contents : List UInt8} (hstored : stored = some contents)
      (hlength : AppSettings.lengthRefused contents = true) :
      LoadStep loadPeer stored .statting (.finished (.error AppSettings.outsideBounds))
  | statted {contents : List UInt8} (hstored : stored = some contents)
      (hlength : AppSettings.lengthRefused contents = false) :
      LoadStep loadPeer stored .statting (.reading [])
  | got {contents bytes : List UInt8} (count : Nat) (hstored : stored = some contents)
      (hcount : 0 < count)
      (hfits : bytes.length + count ≤ min contents.length (settingsLimit + 1)) :
      LoadStep loadPeer stored (.reading bytes)
        (.reading (bytes ++ (contents.drop bytes.length).take count))
  | ended {contents bytes : List UInt8} (hstored : stored = some contents)
      (hend : contents.length ≤ bytes.length ∨ bytes.length = settingsLimit + 1) :
      LoadStep loadPeer stored (.reading bytes)
        (.finished (AppSettings.finishLoad loadPeer bytes))

inductive SavePhase where
  | validating
  | opening
  | writing (written : Nat)
  | syncing
  | finished (result : Except IoError Unit)
deriving DecidableEq

inductive SaveEvent where
  | refused
  | validated
  | notOpened
  | opened
  | wrote (count : Nat)
  | notWritten
  | synced
  | notSynced
deriving DecidableEq

inductive SaveStep (loadPeer : LoadPeer) (settings : AppSettings) :
    Stored × SavePhase → SaveEvent → Stored × SavePhase → Prop
  | refused {stored : Stored} {error : IoError}
      (hvalid : settings.validate loadPeer = .error error) :
      SaveStep loadPeer settings (stored, .validating) .refused (stored, .finished (.error error))
  | validated {stored : Stored} (hvalid : settings.validate loadPeer = .ok ()) :
      SaveStep loadPeer settings (stored, .validating) .validated (stored, .opening)
  | notOpened {stored : Stored} (error : IoError) :
      SaveStep loadPeer settings (stored, .opening) .notOpened (stored, .finished (.error error))
  | opened {stored : Stored} :
      SaveStep loadPeer settings (stored, .opening) .opened (some [], .writing 0)
  | wrote {contents : List UInt8} {written : Nat} (count : Nat) (hcount : 0 < count)
      (hmore : written + count < settings.bytes.length) :
      SaveStep loadPeer settings (some contents, .writing written) (.wrote count)
        (some (overlay 0 contents written ((settings.bytes.drop written).take count)),
          .writing (written + count))
  | wroteAll {contents : List UInt8} {written : Nat} (count : Nat) (hcount : 0 < count)
      (hall : written + count = settings.bytes.length) :
      SaveStep loadPeer settings (some contents, .writing written) (.wrote count)
        (some (overlay 0 contents written ((settings.bytes.drop written).take count)), .syncing)
  | notWritten {stored : Stored} {written : Nat} (error : IoError) :
      SaveStep loadPeer settings (stored, .writing written) .notWritten
        (stored, .finished (.error error))
  | synced {stored : Stored} :
      SaveStep loadPeer settings (stored, .syncing) .synced (stored, .finished (.ok ()))
  | notSynced {stored : Stored} (error : IoError) :
      SaveStep loadPeer settings (stored, .syncing) .notSynced (stored, .finished (.error error))

variable {text line : Text} {settings : AppSettings} {loadPeer : LoadPeer} {stored : Stored}
  {contents : List UInt8} {n : Nat}

def Ascii (text : Text) : Prop := ∀ c ∈ text, c.toNat < 128

theorem utf8EncodeChar_ascii {c : Char} (h : c.toNat < 128) :
    String.utf8EncodeChar c = [c.val.toUInt8] := by
  have hle : c.val.toNat ≤ 127 := Nat.le_of_lt_succ h
  rw [String.utf8EncodeChar, if_pos hle]
  rfl

theorem asBytes_ascii (h : Ascii text) : asBytes text = text.map fun c => c.val.toUInt8 := by
  rw [asBytes, ← List.flatMap_pure_eq_map]
  exact List.flatMap_congr fun c hc => utf8EncodeChar_ascii (h c hc)

theorem asBytes_take (h : Ascii text) (k : Nat) : (asBytes text).take k = asBytes (text.take k) := by
  rw [asBytes_ascii h, asBytes_ascii fun c hc => h c (List.mem_of_mem_take hc), List.map_take]

theorem hexDigit_ascii {c : Char} (h : hexDigit c ≠ none) : c.toNat < 128 := by
  rw [hexDigit] at h
  split at h
  · next hc =>
    have hle : c.toNat ≤ 57 := hc.2
    omega
  split at h
  · next hc =>
    have hle : c.toNat ≤ 102 := hc.2
    omega
  split at h
  · next hc =>
    have hle : c.toNat ≤ 70 := hc.2
    omega
  · exact absurd rfl h

theorem plainChar_ascii {c : Char} (h : PlainChar c) : c.toNat < 128 := by
  have hmarks : ∀ c ∈ ['.', ':', '%', '[', ']'], c.toNat < 128 := forall_of_all (by decide)
  exact h.elim (hmarks c) hexDigit_ascii

theorem encode_ascii (settings : AppSettings) : Ascii settings.encode := by
  have hline : ∀ line ∈ settingsHeader :: settings.fieldLines, Ascii line := by
    refine List.forall_mem_cons.mpr ⟨forall_of_all (by decide), fun line hline c hc => ?_⟩
    obtain ⟨key, hkey, value, rfl, hvalue⟩ := settings.fieldLines_plain line hline
    have hkeys : ∀ key ∈ settingsKeys,
        (key ++ ['=']).all (fun c => decide (c.toNat < 128)) = true := by decide
    rw [List.append_cons] at hc
    rcases List.mem_append.mp hc with hmem | hmem
    · exact forall_of_all (hkeys key hkey) c hmem
    · exact plainChar_ascii (hvalue c hmem)
  intro c hc
  obtain ⟨line, hmem, hc⟩ := List.mem_flatMap.mp hc
  rcases List.mem_append.mp hc with hc | hc
  · exact hline line hmem c hc
  · rw [List.mem_singleton.mp hc]
    decide

theorem length_decimal {k : Nat} (hk : 0 < k) (h : n < 10 ^ k) : (decimal n).length ≤ k :=
  (Nat.length_toDigits_le_iff (by decide) hk).mpr h

theorem length_flatMap_le {α : Type} {most : Nat} {f : α → Text} {items : List α}
    (h : ∀ item ∈ items, (f item).length ≤ most) : (items.flatMap f).length ≤ items.length * most := by
  induction items with
  | nil => exact Nat.zero_le _
  | cons item items ih =>
    obtain ⟨hitem, hitems⟩ := List.forall_mem_cons.mp h
    rw [List.flatMap_cons, List.length_append, List.length_cons, Nat.succ_mul, Nat.add_comm]
    exact Nat.add_le_add (ih hitems) hitem

theorem length_displayIpv4 (octets : List UInt8) :
    (displayIpv4 octets).length ≤ octets.length * 4 := by
  have hoctet (octet : UInt8) : (decimal octet.toNat).length ≤ 3 := by
    have hlt := octet.toNat_lt
    exact length_decimal (by decide) (by omega)
  cases octets with
  | nil => exact Nat.zero_le _
  | cons first octets =>
    have hrest : (octets.flatMap fun octet => '.' :: decimal octet.toNat).length ≤
        octets.length * 4 := length_flatMap_le fun octet _ => Nat.succ_le_succ (hoctet octet)
    have hfirst := hoctet first
    rw [displayIpv4, List.length_append, List.length_cons]
    omega

theorem length_fmtSubslice {segments : List Nat} (h : ∀ segment ∈ segments, segment < 65536) :
    (fmtSubslice segments).length ≤ segments.length * 5 := by
  have hsegment {segment : Nat} (hsmall : segment < 65536) : (hex segment).length ≤ 4 :=
    (Nat.length_toDigits_le_iff (by decide) (by decide)).mpr hsmall
  cases segments with
  | nil => exact Nat.zero_le _
  | cons first segments =>
    have hrest : (segments.flatMap fun segment => ':' :: hex segment).length ≤
        segments.length * 5 := length_flatMap_le fun segment hmem =>
      Nat.succ_le_succ (hsegment (h segment (List.mem_cons_of_mem _ hmem)))
    have hfirst := hsegment (h first List.mem_cons_self)
    rw [fmtSubslice, List.length_append, List.length_cons]
    omega

theorem length_displayIpv6 (ip : List.Vector UInt8 16) : (displayIpv6 ip.val).length ≤ 82 := by
  obtain ⟨hlength, -, hsmall⟩ := length_segmentsOf (k := 8) ip.property
  rw [displayIpv6]
  split
  · have hipv4 := length_displayIpv4 (ip.val.drop 12)
    have hfront : "::ffff:".toList.length = 7 := by decide
    rw [List.length_drop, ip.property] at hipv4
    rw [List.length_append, hfront]
    omega
  · dsimp only
    split
    · have htake (k : Nat) : (fmtSubslice ((segmentsOf ip.val).take k)).length ≤ 40 := by
        refine (length_fmtSubslice fun segment hmem =>
          hsmall segment (List.mem_of_mem_take hmem)).trans ?_
        rw [List.length_take]
        omega
      have hdrop (k : Nat) : (fmtSubslice ((segmentsOf ip.val).drop k)).length ≤ 40 := by
        refine (length_fmtSubslice fun segment hmem =>
          hsmall segment (List.mem_of_mem_drop hmem)).trans ?_
        rw [List.length_drop]
        omega
      have hcolons : "::".toList.length = 2 := by decide
      rw [List.length_append, List.length_append, hcolons]
      exact Nat.add_le_add (Nat.add_le_add (htake _) le_rfl) (hdrop _)
    · exact (length_fmtSubslice hsmall).trans (by omega)

theorem length_display (endpoint : SocketAddr) : endpoint.display.length ≤ 101 := by
  have hport (port : UInt16) : (decimal port.toNat).length ≤ 5 := by
    have hlt := port.toNat_lt
    exact length_decimal (by decide) (by omega)
  cases endpoint with
  | v4 ip port =>
    have hip := length_displayIpv4 ip.val
    have hdigits := hport port
    rw [ip.property] at hip
    rw [SocketAddr.display, List.length_append, List.length_cons]
    omega
  | v6 ip port scopeId =>
    have hip := length_displayIpv6 ip
    have hdigits := hport port
    have hscope : (if scopeId = 0 then [] else '%' :: decimal scopeId.toNat : Text).length ≤ 11 := by
      have hlt := scopeId.toNat_lt
      split
      · exact Nat.zero_le _
      · exact Nat.succ_le_succ (length_decimal (by decide) (by omega))
    simp only [SocketAddr.display, List.length_append, List.length_cons]
    omega

theorem length_intersperse_le {most : Nat} {texts : List Text}
    (h : ∀ text ∈ texts, text.length ≤ most) :
    (texts.intersperse [':']).flatten.length ≤ texts.length * (most + 1) := by
  induction texts with
  | nil => exact Nat.zero_le _
  | cons text texts ih =>
    obtain ⟨htext, htexts⟩ := List.forall_mem_cons.mp h
    cases texts with
    | nil => simpa using Nat.le_succ_of_le htext
    | cons next texts =>
      rw [List.intersperse_cons_cons, List.flatten_cons, List.flatten_cons, List.length_append,
        List.length_append, List.length_cons (a := text), Nat.succ_mul]
      have hrest := ih htexts
      have hcolon : ([':'] : Text).length = 1 := rfl
      omega

theorem length_displayFingerprint (fingerprint : CertificateFingerprint) :
    (CertificateFingerprint.display fingerprint).length ≤ 96 := by
  have hlength : fingerprint.bytes.val.length = 32 := fingerprint.bytes.property
  have htwo : ∀ text ∈ fingerprint.bytes.val.map fun byte => upperHex 2 byte.toNat,
      text.length ≤ 2 := by
    intro text htext
    obtain ⟨byte, -, rfl⟩ := List.mem_map.mp htext
    rw [upperHex_two]
    exact le_rfl
  have hle := length_intersperse_le htwo
  rw [List.length_map, hlength] at hle
  exact hle

theorem length_encode (settings : AppSettings) : settings.encode.length ≤ 400 := by
  have hlocal := length_display settings.localEndpoint
  have hactive := length_displayFingerprint settings.activePeer
  have hpeer := length_display settings.peerEndpoint
  have hauto : (autoReceiveText settings.autoReceive).length = 1 := by
    cases settings.autoReceive <;> rfl
  have hnames : settingsHeader.length = 19 ∧ "local_endpoint".toList.length = 14 ∧
      "active_peer".toList.length = 11 ∧ "peer_endpoint".toList.length = 13 ∧
      "auto_receive".toList.length = 12 := by decide
  obtain ⟨hheader, hone, htwo, hthree, hfour⟩ := hnames
  simp only [AppSettings.encode, AppSettings.fieldLines, field, List.flatMap_cons, List.flatMap_nil,
    List.length_append, List.length_cons, List.length_nil, hheader, hone, htwo, hthree, hfour, hauto]
  omega

theorem validate_eq_ok : settings.validate loadPeer = .ok () ↔
    validatePrivateEndpoint settings.localEndpoint = .ok () ∧
    validatePrivateEndpoint settings.peerEndpoint = .ok () ∧
    settings.localEndpoint.ip.isLoopback = settings.peerEndpoint.ip.isLoopback ∧
    ∃ peer, loadPeer settings.activePeer = .ok peer ∧ peer.fingerprint = settings.activePeer := by
  rw [AppSettings.validate]
  simp only [Checked.bind_eq_ok, Checked.guard_eq_ok, not_not]
  constructor
  · rintro ⟨_, hlocal, _, hpeer, hscope, peer, hload, hsame, -⟩
    exact ⟨hlocal, hpeer, hscope, peer, hload, hsame⟩
  · rintro ⟨hlocal, hpeer, hscope, peer, hload, hsame⟩
    exact ⟨(), hlocal, (), hpeer, hscope, peer, hload, hsame, trivial⟩

theorem readToString_asBytes (text : Text) : readToString (asBytes text) = .ok text := by
  rw [readToString, fromUtf8_asBytes]

theorem finishLoad_asBytes (loadPeer : LoadPeer) (text : Text) :
    AppSettings.finishLoad loadPeer (asBytes text) =
      decode text >>= fun settings => settings.validate loadPeer >>= fun _ => .ok settings := by
  rw [AppSettings.finishLoad, readToString_asBytes]
  rfl

theorem length_bytes (settings : AppSettings) : settings.bytes.length = settings.encode.length := by
  rw [AppSettings.bytes, asBytes_ascii (encode_ascii settings), List.length_map]

theorem lengthRefused_bytes (settings : AppSettings) :
    AppSettings.lengthRefused settings.bytes = false := by
  have hle := length_encode settings
  have hpos : settings.encode.length ≠ 0 := by
    rw [AppSettings.encode, List.flatMap_cons, List.length_append, List.length_append]
    simp
  rw [AppSettings.lengthRefused, length_bytes, Bool.or_eq_false_iff, decide_eq_false_iff_not,
    decide_eq_false_iff_not, settingsLimit]
  exact ⟨hpos, by omega⟩

theorem load_bytes (h : settings.validate loadPeer = .ok ()) :
    AppSettings.load loadPeer (some settings.bytes) = .ok settings := by
  obtain ⟨hlocal, hpeer, -⟩ := validate_eq_ok.mp h
  have hle := length_encode settings
  have htake : settings.bytes.take (settingsLimit + 1) = asBytes settings.encode := by
    rw [List.take_of_length_le (by rw [length_bytes, settingsLimit]; omega)]
    rfl
  rw [AppSettings.load, lengthRefused_bytes, if_neg Bool.false_ne_true, htake, finishLoad_asBytes,
    AppSettings.decode_encode hlocal hpeer, Checked.ok_bind, h, Checked.ok_bind]

def LoadedOf (loadPeer : LoadPeer) (stored : Stored) : LoadPhase → Prop
  | .opening => True
  | .statting => ∃ contents, stored = some contents
  | .reading bytes => ∃ contents, stored = some contents ∧
      AppSettings.lengthRefused contents = false ∧ bytes <+: contents
  | .finished result => ∀ settings, result = .ok settings →
      AppSettings.load loadPeer stored = .ok settings

theorem LoadStep.loadedOf {phase phase' : LoadPhase} (h : LoadStep loadPeer stored phase phase')
    (hphase : LoadedOf loadPeer stored phase) : LoadedOf loadPeer stored phase' := by
  cases h with
  | failed => exact nofun
  | opened hstored => exact ⟨_, hstored⟩
  | refused => exact nofun
  | statted hstored hlength =>
    exact ⟨_, hstored, hlength, List.nil_prefix⟩
  | @got contents bytes count hstored hcount hfits =>
    obtain ⟨_, hsame, hlength, rest, hrest⟩ := hphase
    obtain rfl := Option.some.inj (hstored.symm.trans hsame)
    have hsplit : bytes ++ (contents.drop bytes.length).take count = bytes ++ rest.take count := by
      rw [← hrest, List.drop_left]
    refine ⟨contents, hstored, hlength, rest.drop count, ?_⟩
    rw [hsplit, List.append_assoc, List.take_append_drop, hrest]
  | @ended contents bytes hstored hend =>
    obtain ⟨_, hsame, hlength, hfront⟩ := hphase
    obtain rfl := Option.some.inj (hstored.symm.trans hsame)
    have hshort : contents.length ≤ settingsLimit :=
      Nat.not_lt.mp (of_decide_eq_false (Bool.or_eq_false_iff.mp hlength).2)
    have hwhole : bytes = contents := by
      refine hfront.eq_of_length_le (hend.resolve_right fun hfull => ?_)
      have hle := hfront.length_le
      omega
    intro settings hresult
    rw [hstored, AppSettings.load, hlength, if_neg Bool.false_ne_true,
      List.take_of_length_le (by omega), ← hwhole]
    exact hresult

theorem load_alone {labels : List Unit} {result : Except IoError AppSettings}
    (h : Run (fun phase _ phase' => LoadStep loadPeer stored phase phase') .opening labels
      (.finished result)) (hresult : result = .ok settings) :
    AppSettings.load loadPeer stored = .ok settings :=
  h.invariant (I := LoadedOf loadPeer stored) (fun hphase hstep => hstep.loadedOf hphase) trivial
    settings hresult

end ClipFerry.Settings
