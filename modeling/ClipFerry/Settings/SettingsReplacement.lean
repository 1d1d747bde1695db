import ClipFerry.Settings.SettingsFile

namespace ClipFerry.Settings

open Device Foundation Protocol Server Transition VirtualTree

variable {text line : Text} {pieces : List Text} {settings previous : AppSettings}
  {loadPeer : LoadPeer} {stored : Stored} {k : Nat}

theorem lines_prefix (h : ∀ piece ∈ pieces, '\n' ∉ piece ∧ '\r' ∉ piece)
    (htext : text <+: pieces.flatMap (· ++ ['\n'])) :
    ∀ line ∈ lines text, ∃ piece ∈ pieces, line <+: piece := by
  induction pieces generalizing text with
  | nil =>
    rw [List.prefix_nil.mp htext]
    exact nofun
  | cons piece pieces ih =>
    obtain ⟨⟨hline, hreturn⟩, hpieces⟩ := List.forall_mem_cons.mp h
    rw [List.flatMap_cons] at htext
    rcases Nat.lt_or_ge piece.length text.length with hlong | hshort
    · obtain ⟨tail, rfl⟩ : piece ++ ['\n'] <+: text :=
        List.prefix_of_prefix_length_le (List.prefix_append _ _) htext (by rw [List.length_append]; exact hlong)
      have htail : tail <+: pieces.flatMap (· ++ ['\n']) :=
        (List.prefix_append_right_inj _).mp htext
      rw [List.append_assoc, List.singleton_append, lines_line hline hreturn]
      refine List.forall_mem_cons.mpr ⟨⟨piece, List.mem_cons_self, List.prefix_rfl⟩, ?_⟩
      intro line hmem
      obtain ⟨other, hother, hfront⟩ := ih hpieces htail line hmem
      exact ⟨other, List.mem_cons_of_mem _ hother, hfront⟩
    · have hfront : text <+: piece :=
        List.prefix_of_prefix_length_le htext
          ((List.prefix_append _ _).trans (List.prefix_append _ _)) hshort
      intro line hmem
      by_cases hempty : text = []
      · subst hempty
        cases hmem
      · rw [lines_unended (fun hbreak => hline (hfront.subset hbreak)) hempty,
          List.mem_singleton] at hmem
        exact ⟨piece, List.mem_cons_self, hmem ▸ hfront⟩

namespace AppSettings

def autoReceiveLine (settings : AppSettings) : Text :=
  field "auto_receive" (autoReceiveText settings.autoReceive)

def earlierLines (settings : AppSettings) : List Text :=
  settingsHeader :: settings.fieldLines.take 3

theorem encode_eq (settings : AppSettings) : settings.encode =
    settings.earlierLines.flatMap (· ++ ['\n']) ++ (settings.autoReceiveLine ++ ['\n']) := by
  simp [encode, earlierLines, fieldLines, autoReceiveLine]

theorem earlierLines_unbroken (settings : AppSettings) :
    ∀ piece ∈ settings.earlierLines, '\n' ∉ piece ∧ '\r' ∉ piece := fun piece hpiece =>
  settings.lines_unbroken piece
    (List.cons_subset_cons _ (List.take_subset 3 _) hpiece)

theorem autoReceiveLine_unbroken (settings : AppSettings) : '\n' ∉ settings.autoReceiveLine := by
  have hmem : settings.autoReceiveLine ∈ settingsHeader :: settings.fieldLines := by
    simp [autoReceiveLine, fieldLines]
  exact (settings.lines_unbroken _ hmem).1

theorem length_autoReceiveLine (settings : AppSettings) : settings.autoReceiveLine.length = 14 := by
  rw [autoReceiveLine]
  cases settings.autoReceive <;> decide

theorem not_prefix_earlier (settings : AppSettings) (value : Text) :
    ∀ piece ∈ settings.earlierLines, ¬field "auto_receive" value <+: piece := by
  have htwo (piece : Text) (h : field "auto_receive" value <+: piece) :
      piece.take 2 = ['a', 'u'] := by
    obtain ⟨rest, rfl⟩ := h
    rfl
  intro piece hpiece hfront
  have htake := htwo piece hfront
  simp only [earlierLines, fieldLines, List.take_succ_cons, List.take_zero, List.mem_cons,
    List.not_mem_nil, or_false] at hpiece
  rcases hpiece with rfl | rfl | rfl | rfl
  · exact absurd htake (by decide)
  · exact absurd (List.cons.inj htake).1 (by decide)
  · exact absurd (List.cons.inj (List.cons.inj htake).2).1 (by decide)
  · exact absurd (List.cons.inj htake).1 (by decide)

theorem length_encode_eq (settings : AppSettings) : settings.encode.length =
    (settings.earlierLines.flatMap (· ++ ['\n'])).length + 15 := by
  rw [encode_eq, List.length_append, List.length_append, length_autoReceiveLine]
  rfl

theorem decode_short (h : k + 1 < settings.encode.length) (other : AppSettings) :
    decode (settings.encode.take k) ≠ .ok other := by
  intro hdecode
  obtain ⟨_, _, _, autoText, ⟨rest, hrest, hperm⟩, -, -, -, hauto⟩ := decode_eq_ok.mp hdecode
  have hline : field "auto_receive" autoText ∈ lines (settings.encode.take k) := by
    rw [hrest]
    refine List.mem_cons_of_mem _ (List.mem_of_mem_filter (hperm.symm.subset ?_))
    simp [fourLines]
  have hlength : (field "auto_receive" autoText).length = 14 := by
    rcases parseAutoReceive_eq_ok hauto with ⟨rfl, -⟩ | ⟨rfl, -⟩ <;> decide
  rw [length_encode_eq] at h
  rw [encode_eq] at hline
  rcases Nat.lt_or_ge k (settings.earlierLines.flatMap (· ++ ['\n'])).length with hcut | hkept
  · rw [List.take_append_of_le_length hcut.le] at hline
    obtain ⟨piece, hpiece, hfront⟩ :=
      lines_prefix settings.earlierLines_unbroken (List.take_prefix _ _) _ hline
    exact settings.not_prefix_earlier autoText piece hpiece hfront
  · have hshort : k - (settings.earlierLines.flatMap (· ++ ['\n'])).length ≤ 13 := by omega
    rw [List.take_append, List.take_of_length_le hkept, lines_append settings.earlierLines_unbroken,
      List.take_append_of_le_length (by rw [length_autoReceiveLine]; omega)] at hline
    rcases List.mem_append.mp hline with hearlier | hlast
    · exact settings.not_prefix_earlier autoText _ hearlier List.prefix_rfl
    · have hunbroken : '\n' ∉ settings.autoReceiveLine.take
          (k - (settings.earlierLines.flatMap (· ++ ['\n'])).length) := fun hmem =>
        settings.autoReceiveLine_unbroken (List.mem_of_mem_take hmem)
      by_cases hempty : settings.autoReceiveLine.take
          (k - (settings.earlierLines.flatMap (· ++ ['\n'])).length) = []
      · rw [hempty] at hlast
        cases hlast
      · rw [lines_unended hunbroken hempty, List.mem_singleton] at hlast
        rw [hlast, List.length_take, length_autoReceiveLine] at hlength
        omega

theorem decode_long (h : settings.encode.length ≤ k + 1) :
    decode (settings.encode.take k) = decode settings.encode := by
  rcases Nat.lt_or_ge k settings.encode.length with hlast | hall
  · have hcut : settings.encode.take k =
        settings.earlierLines.flatMap (· ++ ['\n']) ++ settings.autoReceiveLine := by
      have hk : k = (settings.earlierLines.flatMap (· ++ ['\n']) ++
          settings.autoReceiveLine).length := by
        rw [length_encode_eq] at h hlast
        rw [List.length_append, length_autoReceiveLine]
        omega
      rw [encode_eq, ← List.append_assoc, List.take_left' hk.symm]
    have hfull : settings.autoReceiveLine ≠ [] := by
      intro hempty
      have hlength := settings.length_autoReceiveLine
      rw [hempty] at hlength
      cases hlength
    have hlines : lines (settings.encode.take k) = lines settings.encode := by
      rw [hcut, lines_append settings.earlierLines_unbroken,
        lines_unended settings.autoReceiveLine_unbroken hfull, encode,
        lines_flatMap settings.lines_unbroken]
      rfl
    rw [decode, decode, hlines]
  · rw [List.take_of_length_le hall]

end AppSettings

theorem load_short (h : k + 1 < settings.bytes.length) (other : AppSettings) :
    AppSettings.load loadPeer (some (settings.bytes.take k)) ≠ .ok other := by
  intro hload
  rw [AppSettings.load, Checked.guard_eq_ok, List.take_take, AppSettings.bytes,
    asBytes_take (encode_ascii settings), asBytes_take (encode_ascii settings), finishLoad_asBytes,
    Checked.bind_eq_ok] at hload
  obtain ⟨-, decoded, hdecode, -⟩ := hload
  rw [length_bytes] at h
  exact AppSettings.decode_short (by omega) decoded hdecode

theorem load_long (hlong : settings.bytes.length ≤ k + 1) (h : settings.validate loadPeer = .ok ()) :
    AppSettings.load loadPeer (some (settings.bytes.take k)) = .ok settings := by
  obtain ⟨hlocal, hpeer, -⟩ := validate_eq_ok.mp h
  have hle := length_encode settings
  have hpos := settings.length_encode_eq
  rw [length_bytes] at hlong
  have hlength : (settings.encode.take k).length = min k settings.encode.length := List.length_take
  have hbytes : settings.bytes.take k = asBytes (settings.encode.take k) :=
    asBytes_take (encode_ascii settings) k
  have hascii : (asBytes (settings.encode.take k)).length = (settings.encode.take k).length := by
    rw [asBytes_ascii fun c hc => encode_ascii settings c (List.mem_of_mem_take hc),
      List.length_map]
  have hrefused : ¬AppSettings.lengthRefused (asBytes (settings.encode.take k)) = true := by
    rw [AppSettings.lengthRefused, hascii, hlength, settingsLimit, Bool.or_eq_true,
      decide_eq_true_eq, decide_eq_true_eq]
    omega
  rw [AppSettings.load, hbytes, if_neg hrefused,
    List.take_of_length_le (by rw [hascii, hlength, settingsLimit]; omega), finishLoad_asBytes,
    AppSettings.decode_long hlong, AppSettings.decode_encode hlocal hpeer, Checked.ok_bind, h,
    Checked.ok_bind]

def SaveEvent.count : SaveEvent → Nat
  | wrote count => count
  | _ => 0

def writtenBy (events : List SaveEvent) : Nat := (events.map (·.count)).sum

theorem writtenBy_concat (events : List SaveEvent) (event : SaveEvent) :
    writtenBy (events ++ [event]) = writtenBy events + event.count := by
  simp [writtenBy]

structure Untouched (previous : AppSettings) (events : List SaveEvent) (stored : Stored) : Prop where
  opened : SaveEvent.opened ∉ events
  written : writtenBy events = 0
  stored : stored = some previous.bytes

structure Rewritten (loadPeer : LoadPeer) (settings : AppSettings) (events : List SaveEvent)
    (stored : Stored) : Prop where
  opened : SaveEvent.opened ∈ events
  valid : settings.validate loadPeer = .ok ()
  stored : stored = some (settings.bytes.take (writtenBy events))

def SaveTrace (loadPeer : LoadPeer) (previous settings : AppSettings) (events : List SaveEvent) :
    Stored × SavePhase → Prop
  | (stored, .validating) => Untouched previous events stored
  | (stored, .opening) =>
    Untouched previous events stored ∧ settings.validate loadPeer = .ok ()
  | (stored, .writing written) => Rewritten loadPeer settings events stored ∧
    written = writtenBy events ∧ written ≤ settings.bytes.length
  | (stored, .syncing) => Rewritten loadPeer settings events stored
  | (stored, .finished _) =>
    Untouched previous events stored ∨ Rewritten loadPeer settings events stored

variable {events : List SaveEvent} {event : SaveEvent} {state state' : Stored × SavePhase}

theorem Untouched.concat (h : Untouched previous events stored) (hopened : event ≠ .opened)
    (hcount : event.count = 0) : Untouched previous (events ++ [event]) stored where
  opened := by
    intro hmem
    rcases List.mem_append.mp hmem with hmem | hmem
    · exact h.opened hmem
    · exact hopened (List.mem_singleton.mp hmem).symm
  written := by rw [writtenBy_concat, h.written, hcount]
  stored := h.stored

theorem Rewritten.concat (h : Rewritten loadPeer settings events stored) (hcount : event.count = 0) :
    Rewritten loadPeer settings (events ++ [event]) stored where
  opened := List.mem_append_left _ h.opened
  valid := h.valid
  stored := by rw [writtenBy_concat, hcount, Nat.add_zero, h.stored]

theorem Untouched.truncated (h : Untouched previous events stored)
    (hvalid : settings.validate loadPeer = .ok ()) :
    Rewritten loadPeer settings (events ++ [.opened]) (some []) where
  opened := List.mem_append_right _ List.mem_cons_self
  valid := hvalid
  stored := by rw [writtenBy_concat, h.written]; rfl

theorem overlay_take {bytes : List UInt8} {written count : Nat} (h : written ≤ bytes.length) :
    overlay 0 (bytes.take written) written ((bytes.drop written).take count) =
      bytes.take (written + count) := by
  have hlength : (bytes.take written).length = written := by
    rw [List.length_take, Nat.min_eq_left h]
  have hoverlay := overlay_length 0 (bytes.take written) ((bytes.drop written).take count)
  rw [hlength] at hoverlay
  rw [hoverlay, List.take_add]

theorem Rewritten.wrote {contents : List UInt8} {written count : Nat}
    (h : Rewritten loadPeer settings events (some contents)) (hwritten : written = writtenBy events)
    (hfits : written ≤ settings.bytes.length) :
    Rewritten loadPeer settings (events ++ [.wrote count])
      (some (overlay 0 contents written ((settings.bytes.drop written).take count))) where
  opened := List.mem_append_left _ h.opened
  valid := h.valid
  stored := by
    have hcontents : contents = settings.bytes.take written := by
      rw [hwritten]
      exact Option.some.inj h.stored
    rw [hcontents, overlay_take hfits, writtenBy_concat, hwritten]
    rfl

theorem SaveStep.trace (h : SaveStep loadPeer settings state event state')
    (htrace : SaveTrace loadPeer previous settings events state) :
    SaveTrace loadPeer previous settings (events ++ [event]) state' := by
  cases h with
  | refused hvalid => exact .inl (Untouched.concat htrace nofun rfl)
  | validated hvalid => exact ⟨Untouched.concat htrace nofun rfl, hvalid⟩
  | notOpened error => exact .inl (htrace.1.concat nofun rfl)
  | opened =>
    refine ⟨htrace.1.truncated htrace.2, ?_, Nat.zero_le _⟩
    rw [writtenBy_concat, htrace.1.written]
    rfl
  | wrote count hcount hmore =>
    obtain ⟨hrewritten, hwritten, hfits⟩ := htrace
    refine ⟨hrewritten.wrote hwritten hfits, ?_, hmore.le⟩
    rw [writtenBy_concat, hwritten]
    rfl
  | wroteAll count hcount hall =>
    obtain ⟨hrewritten, hwritten, hfits⟩ := htrace
    exact hrewritten.wrote hwritten hfits
  | notWritten error => exact .inr (htrace.1.concat rfl)
  | synced => exact .inr (Rewritten.concat htrace rfl)
  | notSynced error => exact .inr (Rewritten.concat htrace rfl)

theorem SaveTrace.cases (h : SaveTrace loadPeer previous settings events state) :
    Untouched previous events state.1 ∨ Rewritten loadPeer settings events state.1 := by
  obtain ⟨stored, phase⟩ := state
  cases phase with
  | validating => exact .inl h
  | opening => exact .inl h.1
  | writing written => exact .inr h.1
  | syncing => exact .inr h
  | finished result => exact h

theorem settings_replacement_iff (hprevious : previous.validate loadPeer = .ok ())
    (h : Run (SaveStep loadPeer settings) (some previous.bytes, .validating) events state) :
    (AppSettings.load loadPeer state.1 = .ok previous ∨
      AppSettings.load loadPeer state.1 = .ok settings) ↔
    (SaveEvent.opened ∉ events ∨ settings.bytes.length ≤ writtenBy events + 1) := by
  have huntouched : Untouched previous [] (some previous.bytes) := ⟨List.not_mem_nil, rfl, rfl⟩
  have hstart : SaveTrace loadPeer previous settings [] (some previous.bytes, .validating) :=
    huntouched
  have htrace : SaveTrace loadPeer previous settings events state :=
    h.traced (I := SaveTrace loadPeer previous settings) hstart
      fun _ hbefore hstep => hstep.trace hbefore
  rcases htrace.cases with huntouched | hrewritten
  · rw [huntouched.stored, load_bytes hprevious]
    exact ⟨fun _ => .inl huntouched.opened, fun _ => .inl rfl⟩
  · rw [hrewritten.stored]
    constructor
    · intro hload
      refine .inr (Nat.not_lt.mp fun hshort => ?_)
      exact hload.elim (load_short hshort previous) (load_short hshort settings)
    · rintro (hopened | hlong)
      · exact absurd hrewritten.opened hopened
      · exact .inr (load_long hlong hrewritten.valid)

def trustAll : LoadPeer := fun fingerprint => .ok ⟨fingerprint, [], []⟩

theorem lanSettings_valid (autoReceive : Bool) :
    (lanSettings autoReceive).validate trustAll = .ok () := by
  cases autoReceive <;> rfl

theorem settings_replacement_iff_refused :
    AppSettings.load trustAll (some (lanSettings true).bytes) = .ok (lanSettings true) ∨
      AppSettings.load trustAll (some (lanSettings true).bytes) = .ok (lanSettings false) :=
  (settings_replacement_iff (lanSettings_valid true)
    (.snoc (.snoc .nil (.validated (lanSettings_valid false))) (.notOpened notFound))).mpr
      (.inl (by decide))

theorem settings_lost_after_truncation : ∃ events state,
    Run (SaveStep trustAll (lanSettings false)) (some (lanSettings true).bytes, .validating)
      events state ∧
    AppSettings.load trustAll state.1 ≠ .ok (lanSettings true) ∧
    AppSettings.load trustAll state.1 ≠ .ok (lanSettings false) :=
  ⟨_, (some [], .writing 0), .snoc (.snoc .nil (.validated (lanSettings_valid false))) .opened,
    nofun, nofun⟩

end ClipFerry.Settings
