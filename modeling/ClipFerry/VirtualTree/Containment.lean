import ClipFerry.Foundation.LexicalPath
import ClipFerry.VirtualTree.Validator

namespace ClipFerry.VirtualTree

open Checked LexicalPath

structure SafeComponent (part : Text) : Prop where
  nonempty : part ≠ []
  notDot : part ≠ ['.'] ∧ part ≠ ['.', '.']
  chars : ∀ c ∈ part, c ∉ forbiddenInComponent ∧ isControl c = false
  ending : ∀ c, part.getLast? = some c → c ≠ ' ' ∧ c ≠ '.'

theorem safeComponent_of_ok {part : Text} (h : validateVirtualPathComponent part = .ok ()) :
    SafeComponent part := by
  obtain ⟨hguard, -⟩ := guard_eq_ok.mp h
  simp only [Bool.or_eq_true, not_or, Bool.not_eq_true] at hguard
  obtain ⟨⟨⟨⟨⟨⟨hempty, hdot⟩, hdots⟩, hforbidden⟩, hends⟩, hcontrol⟩, -⟩ := hguard
  refine ⟨by simpa using hempty, ⟨by simpa using hdot, by simpa using hdots⟩, ?_, ?_⟩
  · intro c hc
    have hf := List.any_eq_false.mp hforbidden c hc
    have hk := List.any_eq_false.mp hcontrol c hc
    exact ⟨by simpa using hf, by simpa using hk⟩
  · intro c hc
    simp only [endsWithAny, hc] at hends
    simpa using hends

theorem components_ok {name : Text} (h : validateVirtualPath name = .ok ()) :
    '/' ∉ name ∧ ∀ part ∈ components name, validateVirtualPathComponent part = .ok () := by
  obtain ⟨hguard, hparts⟩ := guard_eq_ok.mp h
  simp only [Bool.or_eq_true, not_or] at hguard
  exact ⟨by simpa using hguard.1.2, forM_eq_ok.mp hparts⟩

theorem SafeComponent.plain {part : Text} (h : SafeComponent part) : Plain part where
  nonempty := h.nonempty
  noSeparator := fun c hc => by
    have hf := (h.chars c hc).1
    simp only [forbiddenInComponent, List.mem_cons, not_or] at hf
    simp [isSeparator, hf.2.2.2.2.1, hf.2.2.2.2.2.1]
  noColon := fun hc => (h.chars ':' hc).1 (by decide)
  ending := h.ending

theorem splitOnP_congr {p q : Char → Bool} {name : Text} (h : ∀ c ∈ name, p c = q c) :
    name.splitOnP p = name.splitOnP q := by
  induction name with
  | nil => rfl
  | cons c name ih =>
    rw [List.splitOnP_cons_eq_if_modifyHead, List.splitOnP_cons_eq_if_modifyHead,
      h c (by simp), ih fun c hc => h c (List.mem_cons_of_mem _ hc)]

theorem splitOnP_eq_components {name : Text} (h : '/' ∉ name) :
    name.splitOnP isSeparator = components name := by
  refine splitOnP_congr fun c hc => ?_
  have hne : c ≠ '/' := fun he => h (he ▸ hc)
  simp [isSeparator, hne]

theorem splitOnP_plain {name : Text} (h : validateVirtualPath name = .ok ()) :
    ∀ part ∈ name.splitOnP isSeparator, Plain part := by
  obtain ⟨hslash, hparts⟩ := components_ok h
  rw [splitOnP_eq_components hslash]
  exact fun part hpart => (safeComponent_of_ok (hparts part hpart)).plain

theorem locate_push_of_ok {name : Text} (h : validateVirtualPath name = .ok ()) (dir : Text) :
    locate (push dir name) = ⟨(locate dir).root, (locate dir).parts ++ components name⟩ := by
  rw [locate_push (splitOnP_plain h), splitOnP_eq_components (components_ok h).1]

end ClipFerry.VirtualTree
