import ClipFerry.Product.OfferLaw

namespace ClipFerry.Product

open Foundation Protocol Server Settings Transition VirtualTree

def backoff : Nat → Nat
  | 0 => firstAnnouncementDelay
  | k + 1 => min (backoff k * 2) maxAnnouncementDelay

def slept : Nat → Nat
  | 0 => 0
  | k + 1 => slept k + backoff k

theorem slept_mono {j k : Nat} (h : j ≤ k) : slept j ≤ slept k := by
  induction h with
  | refl => exact Nat.le_refl _
  | step _ ih => exact ih.trans (Nat.le_add_right _ _)

def maxAnnouncementTries : Nat := 35

theorem window_le_slept : announcementWindow ≤ slept 34 := by decide

theorem few_naps {k : Nat} (h : slept k < announcementWindow) : k + 2 ≤ maxAnnouncementTries := by
  by_contra hmany
  rw [maxAnnouncementTries] at hmany
  have hlong := window_le_slept.trans (slept_mono (show 34 ≤ k by omega))
  omega

def AnnouncerPc.busy : AnnouncerPc → Bool
  | .connected _ | .awaiting _ | .failed _ => true
  | _ => false

namespace Announcer

def Rested (a : Announcer) (naps now : Nat) : Prop :=
  a.deadline ≤ now ∨ a.deadline + slept naps ≤ now + announcementWindow

structure Tried (a : Announcer) (now : Nat) : Prop where
  some : 1 ≤ a.tries
  few : a.tries ≤ maxAnnouncementTries
  delay : a.delay = backoff (a.tries - 1)
  rested : a.Rested (a.tries - 1) now

def Timely (a : Announcer) (now : Nat) : Prop :=
  match a.pc with
  | .trying => a.tries < maxAnnouncementTries ∧ a.delay = backoff a.tries ∧ a.Rested a.tries now
  | .connected _ | .awaiting _ | .failed _ => a.Tried now
  | .retrying => a.Tried now ∧ a.tries < maxAnnouncementTries
  | .sleeping wakeAt => a.tries < maxAnnouncementTries ∧ 1 ≤ a.tries ∧
      a.delay = backoff (a.tries - 1) ∧ a.Rested a.tries wakeAt
  | .returned (.ok _) => a.tries ≤ maxAnnouncementTries
  | .returned (.error error) => a.tries ≤ maxAnnouncementTries ∧
      (isRecoverableAnnouncementError error = false ∨ a.deadline ≤ now)

end Announcer

variable {a : Announcer} {now later : Nat}

theorem Announcer.Rested.mono {naps : Nat} (h : a.Rested naps now) (hle : now ≤ later) :
    a.Rested naps later := by
  rcases h with hover | hrested
  · exact .inl (hover.trans hle)
  · exact .inr (hrested.trans (Nat.add_le_add_right hle _))

theorem Announcer.Tried.mono (h : a.Tried now) (hle : now ≤ later) : a.Tried later :=
  ⟨h.some, h.few, h.delay, h.rested.mono hle⟩

theorem Announcer.Timely.mono (h : a.Timely now) (hle : now ≤ later) : a.Timely later := by
  rw [Timely] at h ⊢
  cases hpc : a.pc with
  | trying =>
    rw [hpc] at h
    exact ⟨h.1, h.2.1, h.2.2.mono hle⟩
  | connected l =>
    rw [hpc] at h
    exact h.mono hle
  | awaiting l =>
    rw [hpc] at h
    exact h.mono hle
  | failed error =>
    rw [hpc] at h
    exact h.mono hle
  | retrying =>
    rw [hpc] at h
    exact ⟨h.1.mono hle, h.2⟩
  | sleeping wakeAt =>
    rw [hpc] at h
    exact h
  | returned result =>
    rw [hpc] at h
    cases result with
    | ok done => exact h
    | error error => exact ⟨h.1, h.2.imp_right fun hover => hover.trans hle⟩

theorem Announcer.Timely.tried (h : a.Timely now) (hpc : a.pc = .trying) (pc : AnnouncerPc) :
    ({ a with pc := pc, tries := a.tries + 1 } : Announcer).Tried now := by
  rw [Timely, hpc] at h
  exact ⟨Nat.succ_pos _, h.1, h.2.1, h.2.2⟩

theorem Announcer.Timely.few (h : a.Timely now) : a.tries ≤ maxAnnouncementTries := by
  rw [Timely] at h
  split at h
  · exact h.1.le
  · exact h.few
  · exact h.few
  · exact h.few
  · exact h.2.le
  · exact h.1.le
  · exact h
  · exact h.1

theorem Announcer.Timely.busy (h : a.Timely now) (hpc : a.pc.busy = true) : a.Tried now := by
  rw [Timely] at h
  cases hat : a.pc with
  | connected l =>
    rw [hat] at h
    exact h
  | awaiting l =>
    rw [hat] at h
    exact h
  | failed error =>
    rw [hat] at h
    exact h
  | trying | retrying | sleeping wakeAt | returned result =>
    rw [hat] at hpc
    cases hpc

theorem Announcer.Tried.move (h : a.Tried now) (pc : AnnouncerPc) :
    ({ a with pc := pc } : Announcer).Tried now :=
  ⟨h.some, h.few, h.delay, h.rested⟩

theorem Announcer.Tried.sleep (h : a.Tried now) (hfew : a.tries < maxAnnouncementTries) :
    ({ a with pc := .sleeping (now + min a.delay (a.deadline - now)) } : Announcer).Timely now := by
  refine ⟨hfew, h.some, h.delay, ?_⟩
  obtain ⟨k, hk⟩ := Nat.exists_eq_add_of_le' h.some
  have hdelay := h.delay
  have hrested := h.rested
  rw [Rested, hk, Nat.add_sub_cancel] at *
  dsimp only
  rw [slept]
  omega

variable {settings : AppSettings} {system system' : OfferSystem} {i : Nat} {b : Announcer}

def OfferSystem.Timely (system : OfferSystem) : Prop :=
  ∀ a ∈ system.announcers, a.Timely system.now

theorem OfferSystem.Timely.setAnnouncer (h : system.Timely) (ha : b.Timely system.now) :
    (system.setAnnouncer i b).Timely := by
  intro found hfound
  rcases List.mem_or_eq_of_mem_set hfound with hmem | rfl
  · exact h found hmem
  · exact ha

theorem AnnouncerStep.timely (h : system.Timely)
    (hstep : AnnouncerStep settings system system') : system'.Timely := by
  have hat : ∀ {i : Nat} {a : Announcer}, system.announcers[i]? = some a → a.Timely system.now :=
    fun ha => h _ (List.mem_of_getElem? ha)
  cases hstep with
  | announce endpoint =>
    intro found hfound
    rcases List.mem_append.mp hfound with hmem | hlast
    · exact h found hmem
    · obtain rfl := List.mem_singleton.mp hlast
      exact ⟨Nat.succ_pos 34, rfl, .inr (Nat.le_refl _)⟩
  | unconnected ha hpc error => exact h.setAnnouncer ((hat ha).tried hpc (.failed error))
  | connect ha hpc =>
    exact h.setAnnouncer ((hat ha).tried hpc (.connected system.links.length))
  | @unencodable i l a ha hpc error hencode =>
    have htried := (hat ha).busy (by rw [hpc]; rfl)
    exact h.setAnnouncer (htried.move (.failed error))
  | @unwritten i l a link ha hpc hlink frame hencode n error =>
    have htried := (hat ha).busy (by rw [hpc]; rfl)
    exact h.setAnnouncer (htried.move (.failed error))
  | @write i l a link ha hpc hlink frame hencode =>
    have htried := (hat ha).busy (by rw [hpc]; rfl)
    exact h.setAnnouncer (htried.move (.awaiting l))
  | @answered i l a link ha hpc hlink reader hreader failure hread =>
    have htried := (hat ha).busy (by rw [hpc]; rfl)
    exact h.setAnnouncer (b := { a with pc := .returned (.ok ()) }) htried.few
  | @unanswered i l a link ha hpc hlink reader hreader failure error hread =>
    have htried := (hat ha).busy (by rw [hpc]; rfl)
    exact h.setAnnouncer (htried.move (.failed error))
  | @retry i a ha error hpc herror hnow =>
    have htried := (hat ha).busy (by rw [hpc]; rfl)
    refine h.setAnnouncer (b := { a with pc := .retrying }) ⟨htried.move .retrying, ?_⟩
    -- before the deadline the naps cannot have taken the whole window
    have hshort : slept (a.tries - 1) < announcementWindow := by
      rcases htried.rested with hover | hrested
      · omega
      · omega
    have hfew := few_naps hshort
    have hsome := htried.some
    dsimp only
    omega
  | @giveUp i a ha error hpc hlast =>
    have htried := (hat ha).busy (by rw [hpc]; rfl)
    exact h.setAnnouncer (b := { a with pc := .returned (.error error) }) ⟨htried.few, hlast⟩
  | sleep ha hpc =>
    have htried := hat ha
    rw [Announcer.Timely, hpc] at htried
    exact h.setAnnouncer (htried.1.sleep htried.2)
  | @wake i a ha wakeAt hpc hnow =>
    have hslept := hat ha
    rw [Announcer.Timely, hpc] at hslept
    obtain ⟨hfew, hsome, hdelay, hrested⟩ := hslept
    refine h.setAnnouncer
      (b := { a with pc := .trying, delay := min (a.delay * 2) maxAnnouncementDelay })
      ⟨hfew, ?_, Announcer.Rested.mono hrested hnow⟩
    obtain ⟨k, hk⟩ := Nat.exists_eq_add_of_le' hsome
    dsimp only
    rw [hdelay, hk]
    rfl

section Run

variable {κ : Type} {toLowercase : Char → Text} {windowsText : HResult → String}
  {op : Option (SessionOp κ)} {ops : List (Option (SessionOp κ))} {session : ProductSession}

theorem OfferStep.timely (h : system.Timely)
    (hstep : OfferStep toLowercase windowsText settings system op system') : system'.Timely := by
  cases hstep with
  | tick elapsed => exact fun a ha => (h a ha).mono (Nat.le_add_right _ elapsed)
  | announcer hstep => exact hstep.timely h
  | stranger hstep =>
    cases hstep with
    | connect hclient => exact h
    | write hlink hstranger bytes => exact h
  | inbox hstep => cases hstep <;> exact h
  | poster hstep =>
    cases hstep with
    | report result => exact h
    | ask command => exact h
    | post hposter => exact h
    | @unposted message hposter => cases message <;> exact h
    | clipboard => exact h
  | worker hstep => cases hstep <;> exact h

theorem announcement_tries_bounded
    (h : OfferRun κ toLowercase windowsText settings (.start session) ops system) :
    (∀ a ∈ system.announcers, a.tries ≤ maxAnnouncementTries ∧
      ∀ error, a.pc = .returned (.error error) →
        isRecoverableAnnouncementError error = false ∨ a.deadline ≤ system.now) ∧
    system.offers ≤ maxAnnouncementTries * system.announcers.length := by
  have htimely : system.Timely := h.invariant (I := OfferSystem.Timely)
    (fun hs hstep => hstep.timely hs) fun a ha => by cases ha
  refine ⟨fun a ha => ⟨(htimely a ha).few, fun error hpc => ?_⟩, ?_⟩
  · have hreturned := htimely a ha
    rw [Announcer.Timely, hpc] at hreturned
    exact hreturned.2
  · have hmono : system.tries ≤ crowdWeight (fun _ => maxAnnouncementTries) system.announcers :=
      crowdWeight_mono fun a ha => (htimely a ha).few
    have hconst : crowdWeight (fun _ => maxAnnouncementTries) system.announcers =
        maxAnnouncementTries * system.announcers.length := by
      rw [crowdWeight, List.map_const', List.sum_replicate_nat, Nat.mul_comm]
    rw [← hconst]
    exact (offers_le_tries h).trans hmono

end Run

def retriedAnnouncer : Announcer where
  endpoint := .v4 ⟨[10, 0, 0, 7], rfl⟩ 9
  deadline := announcementWindow
  delay := fromMillis 200
  pc := .returned (.error (invalidData "bad certificate"))
  tries := 2

theorem announcement_tries_bounded_retried : ∃ ops system,
    OfferRun Nat (fun c => [c]) soloText (soloSettings false)
      (.start (.start (soloSettings false) [] 0)) ops system ∧
    system.announcers = [retriedAnnouncer] ∧ retriedAnnouncer.tries ≤ maxAnnouncementTries ∧
    (isRecoverableAnnouncementError (invalidData "bad certificate") = false ∨
      retriedAnnouncer.deadline ≤ system.now) ∧
    system.offers ≤ maxAnnouncementTries * 1 := by
  have hrefused := ((@Run.nil _ _ (OfferStep (κ := Nat) (fun c => [c]) soloText
      (soloSettings false)) (.start (.start (soloSettings false) [] 0))).snoc
    (.announcer (.announce retriedAnnouncer.endpoint))).snoc (.announcer
      (.unconnected (i := 0) rfl rfl ⟨.connectionRefused, "refused", some 10061⟩))
  have hasleep := (hrefused.snoc (.announcer (.retry (i := 0) rfl rfl rfl (by decide)))).snoc
    (.announcer (.sleep (i := 0) rfl rfl))
  have hawake := (hasleep.snoc (.tick firstAnnouncementDelay)).snoc
    (.announcer (.wake (i := 0) rfl rfl (by decide)))
  have hfailed := (hawake.snoc (.announcer (.unconnected (i := 0) rfl rfl
    (invalidData "bad certificate")))).snoc (.announcer (.giveUp (i := 0) rfl rfl (.inl rfl)))
  obtain ⟨htries, hoffers⟩ := announcement_tries_bounded hfailed
  obtain ⟨hfew, hended⟩ := htries retriedAnnouncer List.mem_cons_self
  exact ⟨_, _, hfailed, rfl, hfew, hended _ rfl, hoffers⟩

end ClipFerry.Product
