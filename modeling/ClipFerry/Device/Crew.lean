import ClipFerry.Device.WriteNewAtomic
import ClipFerry.Foundation.Transition

namespace ClipFerry.Device

open Foundation Protocol Transition VirtualTree

/-! Calls of `write_new_atomic` in one directory; `view` is what each writes and where it stands. -/

structure Crew (directory : Directory) (view : Nat → List UInt8 × PublishPhase) : Prop where
  owned : ∀ k, Owned directory (view k).1 (view k).2
  apart : ∀ {j k i}, (view j).2.file = some i → (view k).2.file = some i → j = k
  published : ∀ {k name i}, ¬Temporary name → directory.find name = some i →
    (view k).2.writes ≠ some i

namespace Crew

variable {directory directory' : Directory} {view : Nat → List UInt8 × PublishPhase}
  {filename name : Text} {bytes : List UInt8} {phase phase' : PublishPhase} {i k : Nat}

theorem idle (directory : Directory) (tries : Nat) :
    Crew directory fun _ => ([], .drawing tries) where
  owned := fun _ => trivial
  apart := fun h => nomatch h
  published := fun _ _ => nofun

theorem file_kept (h : Crew directory view) (hview : view k = (bytes, phase))
    (hstep : PublishStep filename bytes directory phase directory' phase')
    (hname : ¬Temporary name) (hfind : directory.find name = some i) :
    directory'.find name = some i ∧ directory'.content i = directory.content i := by
  have howned := h.owned k
  have hwrites := h.published (k := k) hname hfind
  rw [hview] at howned hwrites
  exact ⟨hstep.find_kept (fun htemporary => hname (howned.of_temporary htemporary).1) hfind,
    hstep.content_kept howned hwrites⟩

theorem file_new (h : Crew directory view) (hview : view k = (bytes, phase))
    (hstep : PublishStep filename bytes directory phase directory' phase')
    (hname : ∀ processId random, name ≠ temporaryName filename processId random)
    (hfind : directory'.find name = some i) : directory.find name = some i ∨
      (name = filename ∧ directory.find filename = none ∧ directory'.content i = bytes ∧
        ∃ temporary, phase = .linking temporary i ∧ phase' = .removing temporary i (.ok ())) := by
  have howned := h.owned k
  rw [hview] at howned
  rcases hstep.find_new howned hfind hname with hold | ⟨hsame, hfree, hcontent, temporary, rfl, rfl⟩
  · exact .inl hold
  · refine .inr ⟨hsame, hfree, ?_, temporary, rfl, rfl⟩
    rw [hstep.content_kept howned nofun, hcontent]

theorem owned_kept (h : Crew directory view) (hview : view k = (bytes, phase))
    (hstep : PublishStep filename bytes directory phase directory' phase') {j : Nat} (hj : j ≠ k) :
    Owned directory' (view j).1 (view j).2 := by
  have howned := h.owned k
  rw [hview] at howned
  refine (h.owned j).frame (fun {name i} htemporary hfind => ?_) fun {i} hfile => ?_
  · refine hstep.find_kept (fun hmine => hj ?_) hfind
    obtain ⟨-, mine, hmine, hfound⟩ := howned.of_temporary hmine
    obtain ⟨-, theirs, htheirs, hfound'⟩ := (h.owned j).of_temporary htemporary
    obtain rfl := Option.some.inj (hfound.symm.trans hfound')
    exact h.apart htheirs (by rw [hview]; exact hmine)
  · refine hstep.content_kept howned fun hwrites => hj ?_
    exact h.apart hfile (by rw [hview]; exact PublishPhase.file_of_writes hwrites)

theorem step (h : Crew directory view) (hview : view k = (bytes, phase))
    (hfilename : ¬Temporary filename)
    (hstep : PublishStep filename bytes directory phase directory' phase') :
    Crew directory' (Function.update view k (bytes, phase')) where
  owned := by
    intro j
    rw [Function.update_apply]
    split
    · have howned := h.owned k
      rw [hview] at howned
      exact hstep.owned howned hfilename
    · next hj => exact h.owned_kept hview hstep hj
  apart := by
    intro l j i
    refine exclusive_update (fun call : List UInt8 × PublishPhase => (call.2.file = some ·)) h.apart
      fun {j i} hk hj => ?_
    rcases hstep.file_cases hk with hold | rfl
    · exact h.apart hj (by rw [hview]; exact hold)
    · exact absurd ((h.owned j).file_lt hj) (Nat.lt_irrefl _)
  published := by
    intro j name i hname hfind
    rw [Function.update_apply]
    rcases h.file_new hview hstep (ne_temporaryName hname) hfind with hold | ⟨rfl, -, -, temporary, rfl, rfl⟩
    · split
      · intro hwrites
        rcases hstep.writes_cases hwrites with hmine | rfl
        · exact h.published hname hold (by rw [hview]; exact hmine)
        · exact absurd (Volume.find_lt hold) (Nat.lt_irrefl _)
      · exact h.published hname hold
    · split
      · nofun
      · next hj =>
        intro hwrites
        exact hj (h.apart (PublishPhase.file_of_writes hwrites) (by rw [hview]; rfl))

theorem leave (h : Crew directory view) (bytes : List UInt8) (hphase : phase.file = none) :
    Crew directory (Function.update view k (bytes, phase)) where
  owned := by
    intro j
    rw [Function.update_apply]
    split
    · cases phase with
      | drawing | finished => trivial
      | writing | linking | removing => cases hphase
    · exact h.owned j
  apart := by
    intro j l i hj hl
    rw [Function.update_apply] at hj hl
    split at hj
    · rw [hphase] at hj
      cases hj
    · split at hl
      · rw [hphase] at hl
        cases hl
      · exact h.apart hj hl
  published := by
    intro j name i hname hfind hwrites
    rw [Function.update_apply] at hwrites
    split at hwrites
    · have hfile := PublishPhase.file_of_writes hwrites
      rw [hphase] at hfile
      cases hfile
    · exact h.published hname hfind hwrites

theorem remove (h : Crew directory view) (hname : ¬Temporary name) :
    Crew (directory.remove name) view where
  owned := fun k => (h.owned k).frame (fun {other i} htemporary hfind => by
    have hne : other ≠ name := fun hsame =>
      hname (hsame ▸ ((h.owned k).of_temporary htemporary).1)
    rw [Volume.find_remove, if_neg hne, hfind]) fun _ => rfl
  apart := h.apart
  published := fun hother hfind => by
    rw [Volume.find_remove] at hfind
    split at hfind
    · cases hfind
    · exact h.published hother hfind

end Crew

end ClipFerry.Device
