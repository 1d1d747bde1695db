import ClipFerry.Capture.ClipboardFiles
import ClipFerry.Capture.TreeWalk
import Mathlib.Data.List.Forall2

namespace ClipFerry.Capture

open VirtualTree Local Product Checked DataObject

variable {clipboard : Clipboard} {formats : CaptureFormats} {paths : List (List UInt16)}
  {path : List UInt16} {drop : HDrop} {index : Nat} {effect sequence : UInt32}

theorem mapM_eq_ok {α β ε : Type} {f : α → Except ε β} {l : List α} {r : List β} :
    l.mapM f = .ok r ↔ List.Forall₂ (fun a b => f a = .ok b) l r := by
  induction l generalizing r with
  | nil =>
    rw [List.mapM_nil, List.forall₂_nil_left_iff]
    exact ⟨fun h => (Except.ok.inj h).symm, fun h => h ▸ rfl⟩
  | cons a l ih =>
    rw [List.mapM_cons, bind_eq_ok, List.forall₂_cons_left_iff]
    constructor
    · rintro ⟨b, hb, h⟩
      obtain ⟨rest, hrest, h⟩ := bind_eq_ok.mp h
      exact ⟨b, rest, hb, ih.mp hrest, (Except.ok.inj h).symm⟩
    · rintro ⟨b, rest, hb, hrest, rfl⟩
      exact ⟨b, hb, bind_eq_ok.mpr ⟨rest, ih.mpr hrest, rfl⟩⟩

namespace Clipboard

def MarkedPrivate (clipboard : Clipboard) (formats : CaptureFormats) : Prop :=
  clipboard.isFormatAvailable formats.privateOrigin = true ∧
    ∃ block offerId, clipboard.getData formats.privateOrigin = .ok block ∧ block.lock = .ok () ∧
      block.bytes = privateOriginPrefix ++ offerId ∧ offerId.length = 16

structure NamesPath (clipboard : Clipboard) (drop : HDrop) (index : Nat) (path : List UInt16) :
    Prop where
  nonempty : path ≠ []
  units : path.length ≤ maxCapturePathU16
  length : (drop.length index).toNat = path.length
  copied : (drop.copy index ((drop.length index).toNat + 1)).1.toNat = path.length
  buffer : (drop.copy index ((drop.length index).toNat + 1)).2.val = path ++ [0]
  absolute : clipboard.isAbsolute path = true

structure CopiedFiles (clipboard : Clipboard) (formats : CaptureFormats)
    (paths : List (List UInt16)) : Prop where
  opened : clipboard.guardOpen = .ok ()
  foreign : ¬clipboard.MarkedPrivate formats
  files : clipboard.isFormatAvailable cfHdrop = true
  marked : clipboard.isFormatAvailable formats.preferredEffect = true
  effect : ∃ effect, clipboard.readDropEffect formats.preferredEffect = .ok effect ∧
    effect &&& dropEffectCopy ≠ 0 ∧ effect &&& dropEffectMove = 0
  drop : ∃ drop, clipboard.getDrop = .ok drop ∧ drop.count.toNat = paths.length ∧
    ∀ index path, paths[index]? = some path → clipboard.NamesPath drop index path
  nonempty : paths ≠ []
  roots : paths.length ≤ maxCaptureRoots

theorem isPrivateOriginPayload_iff {payload : List UInt8} :
    isPrivateOriginPayload payload = true ↔
      ∃ offerId, payload = privateOriginPrefix ++ offerId ∧ offerId.length = 16 := by
  rw [isPrivateOriginPayload, Bool.and_eq_true, decide_eq_true_iff, List.isPrefixOf_iff_prefix]
  constructor
  · rintro ⟨hlength, offerId, rfl⟩
    rw [List.length_append] at hlength
    exact ⟨offerId, rfl, by omega⟩
  · rintro ⟨offerId, rfl, hlength⟩
    exact ⟨by rw [List.length_append, hlength], List.prefix_append _ _⟩

theorem readPrivateOrigin_iff {format : UInt32} : clipboard.readPrivateOrigin format = true ↔
    ∃ block offerId, clipboard.getData format = .ok block ∧ block.lock = .ok () ∧
      block.bytes = privateOriginPrefix ++ offerId ∧ offerId.length = 16 := by
  rw [readPrivateOrigin]
  cases hblock : clipboard.getData format with
  | error error => simp
  | ok block =>
    dsimp only
    constructor
    · intro h
      split at h
      · cases h
      · split at h
        · cases h
        · next hlock =>
          obtain ⟨offerId, hbytes, hlength⟩ := isPrivateOriginPayload_iff.mp h
          exact ⟨block, offerId, rfl, hlock, hbytes, hlength⟩
    · rintro ⟨found, offerId, hfound, hlock, hbytes, hlength⟩
      obtain rfl := Except.ok.inj hfound
      have hsize : ¬block.bytes.length ≠ privateOriginPrefix.length + 16 := by
        rw [hbytes, List.length_append, hlength]
        simp
      rw [if_neg hsize, hlock]
      exact isPrivateOriginPayload_iff.mpr ⟨offerId, hbytes, hlength⟩

theorem terminated_iff {length : Nat} (buffer : List.Vector UInt16 (length + 1)) :
    buffer.val.getD length 0 = 0 ↔ buffer.val = buffer.val.take length ++ [0] := by
  have hlast : length < buffer.val.length := by
    rw [buffer.property]
    exact Nat.lt_succ_self length
  have hsplit : buffer.val = buffer.val.take length ++ [buffer.val[length]] := by
    rw [List.take_append_getElem, List.take_of_length_le (Nat.le_of_eq buffer.property)]
  rw [List.getD_eq_getElem?_getD, List.getElem?_eq_getElem hlast, Option.getD_some]
  constructor
  · intro hzero
    rw [hzero] at hsplit
    exact hsplit
  · intro h
    exact List.singleton_inj.mp (List.append_cancel_left (hsplit.symm.trans h))

theorem readPath_iff : clipboard.readPath drop index = .ok path ↔
    clipboard.NamesPath drop index path := by
  rw [readPath]
  dsimp only
  rw [guard_eq_ok, guard_eq_ok, guard_eq_ok]
  have hsize := (drop.copy index ((drop.length index).toNat + 1)).2.property
  have hterminated := terminated_iff (drop.copy index ((drop.length index).toNat + 1)).2
  constructor
  · rintro ⟨hunits, hcopied, habsolute, h⟩
    obtain ⟨hcopied, hzero⟩ := not_or.mp hcopied
    obtain ⟨hpositive, hunits⟩ := not_or.mp hunits
    have hpath := Except.ok.inj h
    have hlength : path.length = (drop.length index).toNat := by
      rw [← hpath, List.length_take, hsize]
      omega
    rw [hpath] at habsolute hterminated
    refine ⟨?_, by omega, hlength.symm, (not_not.mp hcopied).trans hlength.symm,
      hterminated.mp (not_not.mp hzero), Bool.not_eq_false _ ▸ habsolute⟩
    rintro rfl
    exact hpositive hlength.symm
  · intro h
    have htake : (drop.copy index ((drop.length index).toNat + 1)).2.val.take
        (drop.length index).toNat = path := by
      rw [h.buffer, h.length, List.take_left]
    have hpositive : path.length ≠ 0 := fun hzero => h.nonempty (List.eq_nil_of_length_eq_zero hzero)
    have hunits := h.units
    have hlength := h.length
    refine ⟨by omega, not_or.mpr ⟨?_, ?_⟩, ?_, by rw [htake]⟩
    · rw [h.copied, h.length]
      simp
    · rw [htake] at hterminated
      exact not_not.mpr (hterminated.mpr h.buffer)
    · rw [htake, h.absolute]
      simp

theorem forall₂_range {α : Type} {R : Nat → α → Prop} {count : Nat} {l : List α} :
    List.Forall₂ R (List.range count) l ↔
      count = l.length ∧ ∀ index a, l[index]? = some a → R index a := by
  have hrange : (List.range count).length = count := List.length_range
  rw [List.forall₂_iff_get]
  constructor
  · rintro ⟨hlength, h⟩
    refine ⟨hrange.symm.trans hlength, fun index a ha => ?_⟩
    obtain ⟨hindex, rfl⟩ := List.getElem?_eq_some_iff.mp ha
    simpa using h index (by omega) hindex
  · rintro ⟨hlength, h⟩
    refine ⟨hrange.trans hlength, fun index _ hindex => ?_⟩
    simpa using h index l[index] (List.getElem?_eq_getElem hindex)

theorem readPaths_iff : clipboard.readPaths drop = .ok paths ↔
    (paths ≠ [] ∧ paths.length ≤ maxCaptureRoots) ∧ drop.count.toNat = paths.length ∧
      ∀ index path, paths[index]? = some path → clipboard.NamesPath drop index path := by
  have hnames : List.Forall₂ (fun index path => clipboard.readPath drop index = .ok path)
      (List.range drop.count.toNat) paths ↔ drop.count.toNat = paths.length ∧
        ∀ index path, paths[index]? = some path → clipboard.NamesPath drop index path := by
    rw [forall₂_range]
    simp only [readPath_iff]
  rw [readPaths, guard_eq_ok, mapM_eq_ok, hnames]
  refine and_congr_left fun hpaths => ?_
  rw [hpaths.1, not_or, List.length_eq_zero_iff, Nat.not_lt]

theorem validateDropEffect_iff : validateDropEffect effect = .ok () ↔
    effect &&& dropEffectCopy ≠ 0 ∧ effect &&& dropEffectMove = 0 := by
  rw [validateDropEffect, guard_eq_ok, guard_eq_ok]
  constructor
  · rintro ⟨hmove, hcopy, -⟩
    exact ⟨hcopy, not_not.mp hmove⟩
  · rintro ⟨hcopy, hmove⟩
    exact ⟨not_not.mpr hmove, hcopy, rfl⟩

theorem marked_iff : clipboard.MarkedPrivate formats ↔
    clipboard.isFormatAvailable formats.privateOrigin = true ∧
      clipboard.readPrivateOrigin formats.privateOrigin = true := by
  rw [readPrivateOrigin_iff]
  rfl

theorem captureFiles_marked (hopened : clipboard.guardOpen = .ok ())
    (hmarked : clipboard.MarkedPrivate formats) :
    clipboard.captureFiles formats = .ok .privateOffer := by
  rw [captureFiles, windows_eq_ok.mpr hopened, ok_bind, if_pos (marked_iff.mp hmarked)]

theorem captureFiles_copied (h : clipboard.CopiedFiles formats paths) :
    clipboard.captureFiles formats = .ok (.candidates paths clipboard.sequence) := by
  obtain ⟨effect, heffect, hcopy⟩ := h.effect
  obtain ⟨drop, hdrop, hnames⟩ := h.drop
  have hpaths := readPaths_iff.mpr ⟨⟨h.nonempty, h.roots⟩, hnames⟩
  have hforeign := mt marked_iff.mpr h.foreign
  rw [captureFiles, windows_eq_ok.mpr h.opened, ok_bind, if_neg hforeign,
    if_neg (by rw [h.files]; simp), if_neg (by rw [h.marked]; simp),
    windows_eq_ok.mpr heffect, ok_bind, validateDropEffect_iff.mpr hcopy]
  dsimp only
  rw [windows_eq_ok.mpr hdrop, ok_bind, hpaths]
  rfl

theorem captureFiles_cases {contents : ClipboardContents}
    (h : clipboard.captureFiles formats = .ok contents) :
    clipboard.guardOpen = .ok () ∧
      ((clipboard.MarkedPrivate formats ∧ contents = .privateOffer) ∨
        (¬clipboard.MarkedPrivate formats ∧ (contents = .notFileClipboard ∨
          (∃ reason, contents = .rejected reason) ∨ ∃ paths, clipboard.CopiedFiles formats paths ∧
            contents = .candidates paths clipboard.sequence))) := by
  obtain ⟨⟨⟩, hopened, h⟩ := bind_eq_ok.mp h
  have hopened := windows_eq_ok.mp hopened
  refine ⟨hopened, ?_⟩
  split at h
  · next hmarked => exact .inl ⟨marked_iff.mpr hmarked, (Except.ok.inj h).symm⟩
  · next hforeign =>
    have hforeign := mt marked_iff.mp hforeign
    refine .inr ⟨hforeign, ?_⟩
    split at h
    · exact .inl (Except.ok.inj h).symm
    · next hfiles =>
      split at h
      · exact .inr (.inl ⟨_, (Except.ok.inj h).symm⟩)
      · next hmarked =>
        obtain ⟨effect, heffect, h⟩ := bind_eq_ok.mp h
        split at h
        · exact .inr (.inl ⟨_, (Except.ok.inj h).symm⟩)
        · next hvalid =>
          obtain ⟨drop, hdrop, h⟩ := bind_eq_ok.mp h
          have h := (Except.ok.inj h).symm
          cases hpaths : clipboard.readPaths drop with
          | error reason =>
            rw [hpaths] at h
            exact .inr (.inl ⟨reason, h⟩)
          | ok paths =>
            rw [hpaths] at h
            obtain ⟨⟨hnonempty, hroots⟩, hnames⟩ := readPaths_iff.mp hpaths
            exact .inr (.inr ⟨paths, ⟨hopened, hforeign, by simpa using hfiles,
              by simpa using hmarked, ⟨effect, windows_eq_ok.mp heffect,
                validateDropEffect_iff.mp hvalid⟩, ⟨drop, windows_eq_ok.mp hdrop, hnames⟩,
              hnonempty, hroots⟩, h⟩)

theorem captureFiles_candidates_iff :
    clipboard.captureFiles formats = .ok (.candidates paths sequence) ↔
      clipboard.CopiedFiles formats paths ∧ sequence = clipboard.sequence := by
  constructor
  · intro h
    obtain ⟨-, ⟨-, hprivate⟩ | ⟨-, hother | ⟨reason, hrejected⟩ | ⟨copied, hcopied, hsame⟩⟩⟩ :=
      captureFiles_cases h
    · cases hprivate
    · cases hother
    · cases hrejected
    · cases hsame
      exact ⟨hcopied, rfl⟩
  · rintro ⟨hcopied, rfl⟩
    exact captureFiles_copied hcopied

end Clipboard

end ClipFerry.Capture
