import Mathlib.Data.Set.Prod

namespace ClipFerry.Foundation

variable {α β κ : Type} {s : Set α} {t : Set κ}

structure PrefixFree (s : Set α) (code : α → List β) : Prop where
  split : ∀ {a a' : α} {rest rest' : List β}, a ∈ s → a' ∈ s → code a ++ rest = code a' ++ rest' →
    a = a' ∧ rest = rest'

namespace PrefixFree

variable {code : α → List β} {field : κ → List β}

theorem injOn (h : PrefixFree s code) : Set.InjOn code s := by
  intro a ha a' ha' hsame
  exact (h.split ha ha' (congrArg (· ++ []) hsame)).1

theorem of_length {n : Nat} (hlength : ∀ a ∈ s, (code a).length = n) (hinj : Set.InjOn code s) :
    PrefixFree s code := by
  refine ⟨fun {a a' rest rest'} ha ha' hsame => ?_⟩
  obtain ⟨hcode, hrest⟩ := List.append_inj hsame ((hlength a ha).trans (hlength a' ha').symm)
  exact ⟨hinj ha ha' hcode, hrest⟩

theorem after (front : List β) (h : PrefixFree s code) : PrefixFree s fun a => front ++ code a := by
  refine ⟨fun {a a' rest rest'} ha ha' hsame => ?_⟩
  simp only [List.append_assoc] at hsame
  exact h.split ha ha' (List.append_cancel_left hsame)

theorem append (h : PrefixFree s code) (h' : PrefixFree t field) :
    PrefixFree (s ×ˢ t) fun p => code p.1 ++ field p.2 := by
  constructor
  rintro ⟨a, k⟩ ⟨a', k'⟩ rest rest' ⟨ha, hk⟩ ⟨ha', hk'⟩ hsame
  simp only [List.append_assoc] at hsame
  obtain ⟨rfl, htail⟩ := h.split ha ha' hsame
  obtain ⟨rfl, hrest⟩ := h'.split hk hk' htail
  exact ⟨rfl, hrest⟩

theorem counted {key : α → κ} {body : α → List β} (h : PrefixFree t field)
    (hkey : Set.MapsTo key s t)
    (hsize : ∀ {a a'}, key a = key a' → (body a).length = (body a').length)
    (hwhole : Set.InjOn (fun a => (key a, body a)) s) :
    PrefixFree s fun a => field (key a) ++ body a := by
  refine ⟨fun {a a' rest rest'} ha ha' hsame => ?_⟩
  simp only [List.append_assoc] at hsame
  obtain ⟨hsamekey, htail⟩ := h.split (hkey ha) (hkey ha') hsame
  obtain ⟨hbody, hrest⟩ := List.append_inj htail (hsize hsamekey)
  exact ⟨hwhole ha ha' (Prod.ext hsamekey hbody), hrest⟩

end PrefixFree

end ClipFerry.Foundation
