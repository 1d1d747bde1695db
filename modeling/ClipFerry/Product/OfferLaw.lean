import Mathlib.Algebra.Ring.Nat
import ClipFerry.Foundation.Crowd
import ClipFerry.Foundation.Position
import ClipFerry.Product.OfferSystem

namespace ClipFerry.Product

open Foundation Pairing Protocol Server Settings Transition VirtualTree

def AnnouncerPc.link : AnnouncerPc → Option Nat
  | .connected l | .awaiting l => some l
  | _ => none

namespace OfferSystem

def endpointOf (system : OfferSystem) (i : Nat) : Option SocketAddr :=
  (system.announcers[i]?).map (·.endpoint)

def Offered (settings : AppSettings) (system : OfferSystem) (endpoint : SocketAddr) : Prop :=
  .remoteOffer ⟨received endpoint, settings.activePeer⟩ ∈ system.sentEvents

structure Honest (settings : AppSettings) (system : OfferSystem) : Prop where
  links : ∀ (l : Nat) (link : OfferLink) (i : Nat), system.links[l]? = some link → link.announcer = some i →
    ∃ endpoint, system.endpointOf i = some endpoint ∧
      link.toServer <+: announcementFrame endpoint unusedOctets ∧
      (link.toClient ≠ [] → system.Offered settings endpoint)
  strangers : ∀ (l : Nat) (link : OfferLink), system.links[l]? = some link → link.announcer = none →
    link.client ≠ settings.activePeer
  connected : ∀ (i : Nat) (a : Announcer) (l : Nat), system.announcers[i]? = some a → a.pc.link = some l →
    ∃ link : OfferLink, system.links[l]? = some link ∧ link.announcer = some i
  acknowledging : ∀ l, system.inbox = .acknowledging l →
    ∃ link : OfferLink, system.links[l]? = some link ∧
    ∀ i endpoint, link.announcer = some i → system.endpointOf i = some endpoint →
      system.Offered settings endpoint
  returned : ∀ (i : Nat) (a : Announcer), system.announcers[i]? = some a → a.pc = .returned (.ok ()) →
    system.Offered settings a.endpoint
  genuine : ∀ announcement, .remoteOffer announcement ∈ system.sentEvents →
    announcement.peer = settings.activePeer ∧
      validatePrivateEndpoint announcement.endpoint = .ok () ∧
      ∃ i endpoint, system.endpointOf i = some endpoint ∧
        announcement.endpoint = received endpoint

end OfferSystem

variable {settings : AppSettings} {system system' : OfferSystem} {i l : Nat} {a b : Announcer}
  {link c : OfferLink}

theorem endpointOf_setAnnouncer (ha : system.announcers[i]? = some a)
    (hendpoint : b.endpoint = a.endpoint) :
    (system.setAnnouncer i b).endpointOf = system.endpointOf := by
  funext j
  by_cases hji : i = j
  · subst hji
    have hlt := (List.getElem?_eq_some_iff.mp ha).1
    rw [OfferSystem.endpointOf, OfferSystem.endpointOf, ha, OfferSystem.setAnnouncer,
      List.getElem?_set_self hlt, Option.map_some, Option.map_some, hendpoint]
  · rw [OfferSystem.endpointOf, OfferSystem.endpointOf, OfferSystem.setAnnouncer,
      List.getElem?_set_ne hji]

namespace OfferSystem.Honest

theorem same (h : system.Honest settings) (hannouncers : system'.announcers = system.announcers)
    (hlinks : system'.links = system.links) (hevents : system'.sentEvents = system.sentEvents)
    (hinbox : ∀ l, system'.inbox = .acknowledging l → system.inbox = .acknowledging l) :
    system'.Honest settings where
  links := by
    rw [hlinks]
    simp only [endpointOf, Offered, hannouncers, hevents]
    exact h.links
  strangers := by
    rw [hlinks]
    exact h.strangers
  connected := by
    rw [hannouncers, hlinks]
    exact h.connected
  acknowledging := by
    rw [hlinks]
    simp only [endpointOf, Offered, hannouncers, hevents]
    exact fun l hacknowledging => h.acknowledging l (hinbox l hacknowledging)
  returned := by
    rw [hannouncers]
    simp only [Offered, hevents]
    exact h.returned
  genuine := by
    rw [hevents]
    simp only [endpointOf, hannouncers]
    exact h.genuine

theorem setAnnouncer (h : system.Honest settings) (ha : system.announcers[i]? = some a)
    (hendpoint : b.endpoint = a.endpoint)
    (hlink : ∀ l, b.pc.link = some l →
      ∃ link : OfferLink, system.links[l]? = some link ∧ link.announcer = some i)
    (hreturned : b.pc = .returned (.ok ()) → system.Offered settings a.endpoint) :
    (system.setAnnouncer i b).Honest settings where
  links := by
    rw [endpointOf_setAnnouncer ha hendpoint]
    exact h.links
  strangers := h.strangers
  connected j found l hfound hl := by
    rcases Position.set_cases hfound with ⟨rfl, rfl⟩ | ⟨-, hfound⟩
    · exact hlink l hl
    · exact h.connected j found l hfound hl
  acknowledging := by
    rw [endpointOf_setAnnouncer ha hendpoint]
    exact h.acknowledging
  returned j found hfound hpc := by
    rcases Position.set_cases hfound with ⟨rfl, rfl⟩ | ⟨-, hfound⟩
    · rw [hendpoint]
      exact hreturned hpc
    · exact h.returned j found hfound hpc
  genuine := by
    rw [endpointOf_setAnnouncer ha hendpoint]
    exact h.genuine

-- an announcer that stays at its link, or leaves it for anything but success
theorem moveAnnouncer (h : system.Honest settings) (ha : system.announcers[i]? = some a)
    (hendpoint : b.endpoint = a.endpoint) (hlink : ∀ l, b.pc.link = some l → a.pc.link = some l)
    (hreturned : b.pc ≠ .returned (.ok ())) : (system.setAnnouncer i b).Honest settings :=
  h.setAnnouncer ha hendpoint (fun l hl => h.connected i a l ha (hlink l hl))
    fun hpc => absurd hpc hreturned

theorem setLink (h : system.Honest settings) (hlink : system.links[l]? = some link)
    (hclient : c.client = link.client) (hannouncer : c.announcer = link.announcer)
    (hsent : ∀ i endpoint, link.announcer = some i → system.endpointOf i = some endpoint →
      c.toServer <+: announcementFrame endpoint unusedOctets ∧
        (c.toClient ≠ [] → system.Offered settings endpoint)) :
    (system.setLink l c).Honest settings where
  links j found i hfound hi := by
    rcases Position.set_cases hfound with ⟨rfl, rfl⟩ | ⟨-, hfound⟩
    · rw [hannouncer] at hi
      obtain ⟨endpoint, hendpoint, -, -⟩ := h.links _ link i hlink hi
      exact ⟨endpoint, hendpoint, hsent i endpoint hi hendpoint⟩
    · exact h.links j found i hfound hi
  strangers j found hfound hnone := by
    rcases Position.set_cases hfound with ⟨rfl, rfl⟩ | ⟨-, hfound⟩
    · rw [hclient]
      exact h.strangers _ link hlink (hannouncer ▸ hnone)
    · exact h.strangers j found hfound hnone
  connected i a j ha hj := by
    obtain ⟨found, hfound, hi⟩ := h.connected i a j ha hj
    by_cases hjl : l = j
    · subst hjl
      obtain rfl := Option.some.inj (hlink.symm.trans hfound)
      exact ⟨c, List.getElem?_set_self (List.getElem?_eq_some_iff.mp hlink).1,
        hannouncer.trans hi⟩
    · exact ⟨found, (List.getElem?_set_ne hjl).trans hfound, hi⟩
  acknowledging j hacknowledging := by
    obtain ⟨found, hfound, hoffered⟩ := h.acknowledging j hacknowledging
    by_cases hjl : l = j
    · subst hjl
      obtain rfl := Option.some.inj (hlink.symm.trans hfound)
      refine ⟨c, List.getElem?_set_self (List.getElem?_eq_some_iff.mp hlink).1, ?_⟩
      rw [hannouncer]
      exact hoffered
    · exact ⟨found, (List.getElem?_set_ne hjl).trans hfound, hoffered⟩
  returned := h.returned
  genuine := h.genuine

theorem write (h : system.Honest settings) (ha : system.announcers[i]? = some a)
    (hat : a.pc.link = some l) (hlink : system.links[l]? = some link) {bytes : List UInt8}
    (hfront : bytes <+: announcementFrame a.endpoint unusedOctets)
    (hendpoint : b.endpoint = a.endpoint) (hstays : ∀ l, b.pc.link = some l → a.pc.link = some l)
    (hreturned : b.pc ≠ .returned (.ok ())) :
    ((system.setAnnouncer i b).setLink l { link with toServer := bytes }).Honest settings := by
  refine (h.moveAnnouncer ha hendpoint hstays hreturned).setLink hlink rfl rfl
    fun j endpoint hj hother => ?_
  obtain ⟨found, hfound, hi⟩ := h.connected i a l ha hat
  obtain rfl := Option.some.inj (hlink.symm.trans hfound)
  obtain rfl := Option.some.inj (hi.symm.trans hj)
  rw [endpointOf_setAnnouncer ha hendpoint] at hother
  obtain ⟨sent, hsent, -, hanswered⟩ := h.links l link i hlink hi
  obtain rfl := Option.some.inj (hsent.symm.trans hother)
  rw [endpointOf, ha] at hsent
  obtain rfl := Option.some.inj hsent
  exact ⟨hfront, hanswered⟩

theorem addLink (h : system.Honest settings) (hempty : link.toServer = [] ∧ link.toClient = [])
    (hannouncer : ∀ i, link.announcer = some i → ∃ endpoint, system.endpointOf i = some endpoint)
    (hstranger : link.announcer = none → link.client ≠ settings.activePeer) :
    ({ system with links := system.links ++ [link] } : OfferSystem).Honest settings where
  links j found i hfound hi := by
    rcases Position.concat_cases hfound with hfound | ⟨-, rfl⟩
    · exact h.links j found i hfound hi
    · obtain ⟨endpoint, hendpoint⟩ := hannouncer i hi
      refine ⟨endpoint, hendpoint, ?_, fun hne => absurd hempty.2 hne⟩
      rw [hempty.1]
      exact List.nil_prefix
  strangers j found hfound hnone := by
    rcases Position.concat_cases hfound with hfound | ⟨-, rfl⟩
    · exact h.strangers j found hfound hnone
    · exact hstranger hnone
  connected i a j ha hj := by
    obtain ⟨found, hfound, hi⟩ := h.connected i a j ha hj
    have hlt := (List.getElem?_eq_some_iff.mp hfound).1
    exact ⟨found, (List.getElem?_append_left hlt).trans hfound, hi⟩
  acknowledging j hacknowledging := by
    obtain ⟨found, hfound, hoffered⟩ := h.acknowledging j hacknowledging
    have hlt := (List.getElem?_eq_some_iff.mp hfound).1
    exact ⟨found, (List.getElem?_append_left hlt).trans hfound, hoffered⟩
  returned := h.returned
  genuine := h.genuine

theorem addAnnouncer (h : system.Honest settings) (hlink : a.pc.link = none)
    (hpc : a.pc ≠ .returned (.ok ())) :
    ({ system with announcers := system.announcers ++ [a] } : OfferSystem).Honest settings := by
  have hkept : ∀ {i endpoint}, system.endpointOf i = some endpoint →
      ({ system with announcers := system.announcers ++ [a] } : OfferSystem).endpointOf i =
        some endpoint := by
    intro i endpoint hendpoint
    obtain ⟨found, hfound, rfl⟩ := Option.map_eq_some_iff.mp hendpoint
    have hlt := (List.getElem?_eq_some_iff.mp hfound).1
    exact Option.map_eq_some_iff.mpr
      ⟨found, (List.getElem?_append_left hlt).trans hfound, rfl⟩
  constructor
  · intro l link i hfound hi
    obtain ⟨endpoint, hendpoint, hsent⟩ := h.links l link i hfound hi
    exact ⟨endpoint, hkept hendpoint, hsent⟩
  · exact h.strangers
  · intro i found l hfound hl
    rcases Position.concat_cases hfound with hfound | ⟨-, rfl⟩
    · exact h.connected i found l hfound hl
    · rw [hlink] at hl
      cases hl
  · intro l hacknowledging
    obtain ⟨link, hfound, hoffered⟩ := h.acknowledging l hacknowledging
    refine ⟨link, hfound, fun i endpoint hi hendpoint => ?_⟩
    obtain ⟨before, hbefore, -⟩ := h.links l link i hfound hi
    obtain rfl := Option.some.inj ((hkept hbefore).symm.trans hendpoint)
    exact hoffered i before hi hbefore
  · intro i found hfound hreturned
    rcases Position.concat_cases hfound with hfound | ⟨-, rfl⟩
    · exact h.returned i found hfound hreturned
    · exact absurd hreturned hpc
  · intro announcement hsent
    obtain ⟨hpeer, hvalid, i, endpoint, hendpoint, hreceived⟩ := h.genuine announcement hsent
    exact ⟨hpeer, hvalid, i, endpoint, hkept hendpoint, hreceived⟩

theorem sendEvent (h : system.Honest settings) {event : WorkerEvent}
    (hgenuine : ∀ announcement, event = .remoteOffer announcement →
      announcement.peer = settings.activePeer ∧
        validatePrivateEndpoint announcement.endpoint = .ok () ∧
        ∃ i endpoint, system.endpointOf i = some endpoint ∧
          announcement.endpoint = received endpoint) :
    (system.sendEvent event).Honest settings := by
  have hkept : ∀ {endpoint}, system.Offered settings endpoint →
      (system.sendEvent event).Offered settings endpoint :=
    fun hoffered => List.mem_append_left _ hoffered
  constructor
  · intro l link i hfound hi
    obtain ⟨endpoint, hendpoint, hfront, hanswered⟩ := h.links l link i hfound hi
    exact ⟨endpoint, hendpoint, hfront, fun hne => hkept (hanswered hne)⟩
  · exact h.strangers
  · exact h.connected
  · intro l hacknowledging
    obtain ⟨link, hfound, hoffered⟩ := h.acknowledging l hacknowledging
    exact ⟨link, hfound, fun i endpoint hi hendpoint => hkept (hoffered i endpoint hi hendpoint)⟩
  · exact fun i found hfound hreturned => hkept (h.returned i found hfound hreturned)
  · intro announcement hsent
    rcases List.mem_append.mp hsent with hearlier | hlast
    · exact h.genuine announcement hearlier
    · exact hgenuine announcement (List.mem_singleton.mp hlast).symm

end OfferSystem.Honest

theorem acknowledgement_read {failure : IoError} {reader : ChunkReader UInt8}
    (h : readAcknowledgement failure reader = .ok ()) : reader.bytes ≠ [] := by
  rw [readAcknowledgement] at h
  split at h
  · cases h
  · next bytes later hread =>
    obtain ⟨hlength, hbytes⟩ := readExactFrom_split hread
    intro hempty
    rw [hempty] at hbytes
    have hnil := congrArg List.length hbytes
    have hack : offerAck.length = 8 := rfl
    rw [List.length_append, hlength, hack, List.length_nil] at hnil
    omega

theorem AnnouncerStep.honest (h : system.Honest settings)
    (hstep : AnnouncerStep settings system system') : system'.Honest settings := by
  cases hstep with
  | announce endpoint => exact h.addAnnouncer rfl (by simp)
  | unconnected ha hpc error => exact h.moveAnnouncer ha rfl (fun l hl => by cases hl) (by simp)
  | @connect i a ha hpc =>
    have hadded := @OfferSystem.Honest.addLink settings system ⟨settings.activePeer, some i, [], [], false⟩ h ⟨rfl, rfl⟩
      (fun j hj => by
        obtain rfl := Option.some.inj hj
        exact ⟨a.endpoint, Option.map_eq_some_iff.mpr ⟨a, ha, rfl⟩⟩)
      (fun hnone => by cases hnone)
    refine hadded.setAnnouncer ha rfl (fun l hl => ?_) (by simp)
    obtain rfl := Option.some.inj hl
    exact ⟨_, List.getElem?_concat_length, rfl⟩
  | unencodable ha hpc hencode =>
    exact h.moveAnnouncer ha rfl (fun l hl => by cases hl) (by simp)
  | unwritten ha hpc hlink hencode n error =>
    obtain ⟨-, rfl⟩ := encodeAnnouncement_eq_ok.mp hencode
    exact h.write ha (by rw [hpc]; rfl) hlink (List.take_prefix n _) rfl
      (fun m hm => by cases hm) (by simp)
  | write ha hpc hlink hencode =>
    obtain ⟨-, rfl⟩ := encodeAnnouncement_eq_ok.mp hencode
    exact h.write ha (by rw [hpc]; rfl) hlink (List.prefix_refl _) rfl
      (fun m hm => by rw [hpc]; exact hm) (by simp)
  | @answered i l a link ha hpc hlink reader hreader failure hread =>
    refine h.setAnnouncer ha rfl (fun m hm => by cases hm) fun _ => ?_
    obtain ⟨found, hfound, hi⟩ := h.connected i a l ha (by rw [hpc]; rfl)
    obtain rfl := Option.some.inj (hlink.symm.trans hfound)
    obtain ⟨sent, hsent, -, hanswered⟩ := h.links l link i hlink hi
    rw [OfferSystem.endpointOf, ha] at hsent
    obtain rfl := Option.some.inj hsent
    apply hanswered
    rintro hnone
    rw [hnone] at hreader
    exact acknowledgement_read hread (List.prefix_nil.mp hreader)
  | unanswered ha hpc hlink hreader hread =>
    exact h.moveAnnouncer ha rfl (fun l hl => by cases hl) (by simp)
  | retry ha hpc herror hnow => exact h.moveAnnouncer ha rfl (fun l hl => by cases hl) (by simp)
  | giveUp ha hpc hlast => exact h.moveAnnouncer ha rfl (fun l hl => by cases hl) (by simp)
  | sleep ha hpc => exact h.moveAnnouncer ha rfl (fun l hl => by cases hl) (by simp)
  | wake ha hpc hnow => exact h.moveAnnouncer ha rfl (fun l hl => by cases hl) (by simp)

theorem StrangerStep.honest (h : system.Honest settings)
    (hstep : StrangerStep settings system system') : system'.Honest settings := by
  cases hstep with
  | connect hclient =>
    exact h.addLink ⟨rfl, rfl⟩ (fun i hi => by cases hi) fun _ => hclient
  | write hlink hstranger bytes =>
    refine h.setLink hlink rfl rfl fun i endpoint hi => ?_
    rw [hstranger] at hi
    cases hi

theorem InboxStep.honest (h : system.Honest settings)
    (hstep : InboxStep settings system system') : system'.Honest settings := by
  have hmove : ∀ {pc : InboxPc}, (∀ l, pc ≠ .acknowledging l) →
      ({ system with inbox := pc } : OfferSystem).Honest settings :=
    fun hpc => h.same rfl rfl rfl fun l hl => absurd hl (hpc l)
  cases hstep with
  | askStop => exact h.same rfl rfl rfl fun l hl => hl
  | enter hpc hstop => exact hmove (by simp)
  | exit hpc hstop => exact hmove (by simp)
  | unaccepted hpc => exact hmove (by simp)
  | @accept hpc l link hlink hfresh =>
    have hset := h.setLink (c := { link with accepted := true }) hlink rfl rfl
      fun i endpoint hi hendpoint => by
        obtain ⟨sent, hsent, hkept⟩ := h.links l link i hlink hi
        obtain rfl := Option.some.inj (hsent.symm.trans hendpoint)
        exact hkept
    exact hset.same rfl rfl rfl fun m hm => by cases hm
  | acceptOther hpc => exact hmove (by simp)
  | proceed hpc hstop => exact hmove (by simp)
  | breakOff hpc hstop => exact hmove (by simp)
  | untrusted hpc => exact hmove (by simp)
  | authenticate hpc => exact hmove (by simp)
  | refuse hpc hlink hclient => exact hmove (by simp)
  | unread hpc hlink hclient hreader hread => exact hmove (by simp)
  | unsent hpc hworker => exact hmove (by simp)
  | @receive l hpc link hlink hclient reader later hreader endpoint hread =>
    -- only a thread of the peer proves its certificate, and it has written nothing but its frame
    obtain ⟨hvalid, hreceived, unused, hbytes⟩ := readAnnouncement_split hread
    have hannouncer : ∃ i, link.announcer = some i := by
      cases hi : link.announcer with
      | none => exact absurd hclient (h.strangers l link hlink hi)
      | some i => exact ⟨i, rfl⟩
    obtain ⟨i, hi⟩ := hannouncer
    obtain ⟨sent, hsent, hfront, -⟩ := h.links l link i hlink hi
    have hwhole : received sent = endpoint := by
      have hframe : announcementFrame endpoint unused <+: announcementFrame sent unusedOctets :=
        (hbytes ▸ List.prefix_append _ _ : _ <+: reader.bytes).trans (hreader.trans hfront)
      have hequal := hframe.eq_of_length
        ((length_announcementFrame _ _).trans (length_announcementFrame _ _).symm)
      have hdecode := decode_frame sent unusedOctets
      rw [← hequal, decode_frame, hvalid] at hdecode
      cases hvalidated : validatePrivateEndpoint sent with
      | error error =>
        rw [hvalidated] at hdecode
        cases hdecode
      | ok valid =>
        rw [hvalidated] at hdecode
        exact (Except.ok.inj hdecode).symm.trans hreceived
    have hsend := @OfferSystem.Honest.sendEvent settings system h (.remoteOffer ⟨endpoint, link.client⟩)
      fun announcement hevent => by
        cases hevent
        exact ⟨hclient, hvalid, i, sent, hsent, hwhole.symm⟩
    refine ⟨hsend.links, hsend.strangers, hsend.connected, fun m hm => ?_, hsend.returned,
      hsend.genuine⟩
    obtain rfl := InboxPc.acknowledging.inj hm
    refine ⟨link, hlink, fun j other hj hother => ?_⟩
    obtain rfl := Option.some.inj (hi.symm.trans hj)
    obtain rfl := Option.some.inj (hsent.symm.trans hother)
    rw [OfferSystem.Offered, hwhole, ← hclient]
    exact List.mem_append_right _ (List.mem_singleton_self _)
  | @acknowledge l hpc link hlink =>
    have hset := h.setLink (c := { link with toClient := offerAck }) hlink rfl rfl
      fun i endpoint hi hendpoint => by
        obtain ⟨sent, hsent, hfront, -⟩ := h.links l link i hlink hi
        obtain rfl := Option.some.inj (hsent.symm.trans hendpoint)
        obtain ⟨found, hfound, hoffered⟩ := h.acknowledging l hpc
        obtain rfl := Option.some.inj (hlink.symm.trans hfound)
        exact ⟨hfront, fun _ => hoffered i sent hi hsent⟩
    exact hset.same rfl rfl rfl fun m hm => by cases hm
  | @unacknowledged l hpc link hlink n =>
    have hset := h.setLink (c := { link with toClient := offerAck.take n }) hlink rfl rfl
      fun i endpoint hi hendpoint => by
        obtain ⟨sent, hsent, hfront, -⟩ := h.links l link i hlink hi
        obtain rfl := Option.some.inj (hsent.symm.trans hendpoint)
        obtain ⟨found, hfound, hoffered⟩ := h.acknowledging l hpc
        obtain rfl := Option.some.inj (hlink.symm.trans hfound)
        exact ⟨hfront, fun _ => hoffered i sent hi hsent⟩
    exact hset.same rfl rfl rfl fun m hm => by cases hm
  | post hpc => exact h.same rfl rfl rfl fun m hm => by cases hm
  | unposted hpc => exact h.same rfl rfl rfl fun m hm => by cases hm

theorem PosterStep.honest (h : system.Honest settings) (hstep : PosterStep system system') :
    system'.Honest settings := by
  cases hstep with
  | report result =>
    have hsend := @OfferSystem.Honest.sendEvent settings system h (.announcementResult result)
      fun _ hevent => by cases hevent
    exact hsend.same rfl rfl rfl fun l hl => hl
  | ask command => exact h.same rfl rfl rfl fun l hl => hl
  | post hposter => exact h.same rfl rfl rfl fun l hl => hl
  | @unposted message hposter =>
    cases message with
    | clipboardUpdate => exact h.same rfl rfl rfl fun l hl => hl
    | event => exact h.same rfl rfl rfl fun l hl => hl
    | command => exact h.same rfl rfl rfl fun l hl => hl
  | clipboard => exact h.same rfl rfl rfl fun l hl => hl

section Run

variable {κ : Type} {toLowercase : Char → Text} {windowsText : HResult → String}
  {op : Option (SessionOp κ)} {ops : List (Option (SessionOp κ))}

theorem WorkerStep.honest (h : system.Honest settings)
    (hstep : WorkerStep toLowercase windowsText system op system') : system'.Honest settings := by
  cases hstep with
  | events hpc hmessage => exact h.same rfl rfl rfl fun l hl => hl
  | commands hpc hmessage => exact h.same rfl rfl rfl fun l hl => hl
  | clipboard hpc hmessage => exact h.same rfl rfl rfl fun l hl => hl
  | timer hpc => exact h.same rfl rfl rfl fun l hl => hl
  | event hpc hevent => exact h.same rfl rfl rfl fun l hl => hl
  | eventsEnd hpc hempty => exact h.same rfl rfl rfl fun l hl => hl
  | command hpc hcommand => exact h.same rfl rfl rfl fun l hl => hl
  | commandsEnd hpc hempty => exact h.same rfl rfl rfl fun l hl => hl
  | stop hpc hcommand => exact h.same rfl rfl rfl fun l hl => hl
  | leave hpc => exact h.same rfl rfl rfl fun l hl => hl
  | quit hpc => exact h.same rfl rfl rfl fun l hl => hl

theorem OfferStep.honest (h : system.Honest settings)
    (hstep : OfferStep toLowercase windowsText settings system op system') :
    system'.Honest settings := by
  cases hstep with
  | tick elapsed => exact h.same rfl rfl rfl fun l hl => hl
  | announcer hstep => exact hstep.honest h
  | stranger hstep => exact hstep.honest h
  | inbox hstep => exact hstep.honest h
  | poster hstep => exact hstep.honest h
  | worker hstep => exact hstep.honest h

theorem start_honest (settings : AppSettings) (session : ProductSession) :
    (OfferSystem.start session).Honest settings where
  links l link i h := by cases h
  strangers l link h := by cases h
  connected i a l h := by cases h
  acknowledging l h := by cases h
  returned i a h := by cases h
  genuine announcement h := by cases h

abbrev OfferRun (κ : Type) (toLowercase : Char → Text) (windowsText : HResult → String)
    (settings : AppSettings) : OfferSystem → List (Option (SessionOp κ)) → OfferSystem → Prop :=
  Run (OfferStep toLowercase windowsText settings)

theorem run_honest {session : ProductSession}
    (h : OfferRun κ toLowercase windowsText settings (.start session) ops system) :
    system.Honest settings :=
  h.invariant (I := OfferSystem.Honest settings) (fun hs hstep => hstep.honest hs)
    (start_honest settings session)

end Run

def isOffer : WorkerEvent → Bool
  | .remoteOffer _ => true
  | .announcementResult _ => false

def OfferLink.announced (link : OfferLink) : Nat := if link.announcer.isSome = true then 1 else 0

def OfferLink.used (link : OfferLink) : Nat := if link.accepted = true then link.announced else 0

def InboxPc.pending : InboxPc → Option Nat
  | .accepted l | .handshaking l => l
  | .authenticated l => some l
  | _ => none

namespace OfferSystem

def offers (system : OfferSystem) : Nat := system.sentEvents.countP isOffer

def pendingOffer (system : OfferSystem) : Nat :=
  ((system.inbox.pending.bind fun l => system.links[l]?).map OfferLink.announced).getD 0

def tries (system : OfferSystem) : Nat := crowdWeight Announcer.tries system.announcers

structure Counted (system : OfferSystem) : Prop where
  pending : ∀ l, system.inbox.pending = some l → l < system.links.length
  offers : system.offers + system.pendingOffer ≤ crowdWeight OfferLink.used system.links
  made : crowdWeight OfferLink.announced system.links ≤ system.tries

namespace Counted

theorem same (h : system.Counted) (hlinks : system'.links = system.links)
    (hoffers : system'.offers = system.offers) (htries : system.tries ≤ system'.tries)
    (hinbox : system'.inbox.pending = none ∨ system'.inbox.pending = system.inbox.pending) :
    system'.Counted := by
  refine ⟨?_, ?_, ?_⟩
  · intro l hl
    rcases hinbox with hnone | hsame
    · rw [hnone] at hl
      cases hl
    · rw [hlinks]
      exact h.pending l (hsame ▸ hl)
  · have hpending : system'.pendingOffer ≤ system.pendingOffer := by
      rcases hinbox with hnone | hsame
      · rw [pendingOffer, hnone]
        exact Nat.zero_le _
      · rw [pendingOffer, pendingOffer, hsame, hlinks]
    have hbefore := h.offers
    rw [hlinks, hoffers]
    omega
  · rw [hlinks]
    exact h.made.trans htries

theorem setAnnouncer (h : system.Counted) (ha : system.announcers[i]? = some a)
    (htries : a.tries ≤ b.tries) : (system.setAnnouncer i b).Counted := by
  refine h.same rfl rfl ?_ (.inr rfl)
  obtain ⟨more, hmore⟩ := Nat.exists_eq_add_of_le htries
  have hgain := @crowdWeight_gain _ Announcer.tries _ i a b more ha hmore
  exact (Nat.le_add_right _ more).trans hgain.ge

theorem setLink (h : system.Counted) (hlink : system.links[l]? = some link)
    (hannouncer : c.announcer = link.announcer) (haccepted : c.accepted = link.accepted) :
    (system.setLink l c).Counted := by
  have hannounced : c.announced = link.announced := by
    rw [OfferLink.announced, OfferLink.announced, hannouncer]
  have hused : c.used = link.used := by
    rw [OfferLink.used, OfferLink.used, haccepted, hannounced]
  refine ⟨?_, ?_, ?_⟩
  · intro m hm
    exact List.length_set.symm ▸ h.pending m hm
  · have hpending : (system.setLink l c).pendingOffer = system.pendingOffer := by
      rw [pendingOffer, pendingOffer]
      cases hm : system.inbox.pending with
      | none =>
        rw [show (system.setLink l c).inbox.pending = none from hm]
        rfl
      | some m =>
        rw [show (system.setLink l c).inbox.pending = some m from hm]
        by_cases hml : l = m
        · subst hml
          rw [Option.bind_some, Option.bind_some, hlink, OfferSystem.setLink,
            List.getElem?_set_self (List.getElem?_eq_some_iff.mp hlink).1, Option.map_some,
            Option.map_some, hannounced]
        · rw [Option.bind_some, Option.bind_some, OfferSystem.setLink, List.getElem?_set_ne hml]
    rw [hpending, OfferSystem.setLink, crowdWeight_same hlink hused]
    exact h.offers
  · rw [OfferSystem.setLink, crowdWeight_same hlink hannounced]
    exact h.made

theorem addLink (h : system.Counted) (hfresh : link.accepted = false)
    (htries : crowdWeight OfferLink.announced system.links + link.announced ≤ system.tries) :
    ({ system with links := system.links ++ [link] } : OfferSystem).Counted := by
  refine ⟨?_, ?_, ?_⟩
  · intro l hl
    rw [List.length_append]
    exact Nat.lt_add_right _ (h.pending l hl)
  · have hused : link.used = 0 := by
      rw [OfferLink.used, hfresh]
      rfl
    have hpending :
        ({ system with links := system.links ++ [link] } : OfferSystem).pendingOffer =
          system.pendingOffer := by
      rw [pendingOffer, pendingOffer]
      cases hl : system.inbox.pending with
      | none => rfl
      | some l =>
        rw [Option.bind_some, Option.bind_some, List.getElem?_append_left (h.pending l hl)]
    rw [hpending]
    dsimp only
    rw [crowdWeight_concat, hused]
    exact h.offers
  · dsimp only
    rw [crowdWeight_concat]
    exact htries

end Counted

end OfferSystem

theorem AnnouncerStep.counted (h : system.Counted)
    (hstep : AnnouncerStep settings system system') : system'.Counted := by
  cases hstep with
  | announce endpoint =>
    refine h.same rfl rfl ?_ (.inr rfl)
    rw [OfferSystem.tries, OfferSystem.tries, crowdWeight_concat]
    exact Nat.le_add_right _ _
  | unconnected ha hpc error => exact h.setAnnouncer ha (Nat.le_succ _)
  | @connect i a ha hpc =>
    have hmoved := h.setAnnouncer
      (b := { a with pc := .connected system.links.length, tries := a.tries + 1 }) ha (Nat.le_succ _)
    refine hmoved.addLink rfl ?_
    have hgain := @crowdWeight_gain _ Announcer.tries _ i a
      { a with pc := .connected system.links.length, tries := a.tries + 1 } 1 ha rfl
    exact (Nat.add_le_add_right h.made 1).trans hgain.ge
  | unencodable ha hpc hencode => exact h.setAnnouncer ha (Nat.le_refl _)
  | @unwritten i l a link ha hpc hlink frame hencode n error =>
    have hmoved := h.setAnnouncer (b := { a with pc := .failed error }) ha (Nat.le_refl _)
    exact hmoved.setLink (c := { link with toServer := frame.take n }) hlink rfl rfl
  | @write i l a link ha hpc hlink frame hencode =>
    have hmoved := h.setAnnouncer (b := { a with pc := .awaiting l }) ha (Nat.le_refl _)
    exact hmoved.setLink (c := { link with toServer := frame }) hlink rfl rfl
  | answered ha hpc hlink hreader hread => exact h.setAnnouncer ha (Nat.le_refl _)
  | unanswered ha hpc hlink hreader hread => exact h.setAnnouncer ha (Nat.le_refl _)
  | retry ha hpc herror hnow => exact h.setAnnouncer ha (Nat.le_refl _)
  | giveUp ha hpc hlast => exact h.setAnnouncer ha (Nat.le_refl _)
  | sleep ha hpc => exact h.setAnnouncer ha (Nat.le_refl _)
  | wake ha hpc hnow => exact h.setAnnouncer ha (Nat.le_refl _)

theorem StrangerStep.counted (h : system.Counted)
    (hstep : StrangerStep settings system system') : system'.Counted := by
  cases hstep with
  | connect hclient => exact h.addLink rfl h.made
  | write hlink hstranger bytes => exact h.setLink hlink rfl rfl

theorem accept_counted (h : system.Counted) (hpc : system.inbox = .accepting)
    (hlink : system.links[l]? = some link) (hfresh : link.accepted = false) :
    ({ system.setLink l { link with accepted := true } with
      inbox := .accepted (some l) } : OfferSystem).Counted := by
  have hlt := (List.getElem?_eq_some_iff.mp hlink).1
  have hgain := @crowdWeight_gain _ OfferLink.used _ l link { link with accepted := true }
    link.announced hlink (by
      rw [OfferLink.used, OfferLink.used, hfresh]
      exact (Nat.zero_add _).symm)
  refine ⟨?_, ?_, ?_⟩
  · intro m hm
    obtain rfl := Option.some.inj hm
    exact List.length_set.symm ▸ hlt
  · have hpending :
        ({ system.setLink l { link with accepted := true } with
          inbox := .accepted (some l) } : OfferSystem).pendingOffer = link.announced := by
      rw [OfferSystem.pendingOffer, InboxPc.pending, Option.bind_some]
      dsimp only [OfferSystem.setLink]
      rw [List.getElem?_set_self hlt]
      rfl
    have hbefore := h.offers
    have hnone : system.pendingOffer = 0 := by
      rw [OfferSystem.pendingOffer, hpc]
      rfl
    rw [hnone, Nat.add_zero] at hbefore
    rw [hpending]
    exact (Nat.add_le_add_right hbefore _).trans hgain.ge
  · exact (@crowdWeight_same _ OfferLink.announced _ l link { link with accepted := true } hlink rfl).le.trans h.made

theorem receive_counted (h : system.Counted) (hpc : system.inbox = .authenticated l)
    (hlink : system.links[l]? = some link) (hannouncer : link.announcer.isSome = true)
    (announcement : OfferAnnouncement) :
    ({ system.sendEvent (.remoteOffer announcement) with
      inbox := .acknowledging l } : OfferSystem).Counted := by
  refine ⟨?_, ?_, h.made⟩
  · intro m hm
    cases hm
  · have hpending : system.pendingOffer = 1 := by
      rw [OfferSystem.pendingOffer, hpc, InboxPc.pending, Option.bind_some, hlink, Option.map_some,
        Option.getD_some, OfferLink.announced, if_pos hannouncer]
    have hoffers : (system.sendEvent (.remoteOffer announcement)).offers = system.offers + 1 :=
      List.countP_append
    have hbefore := h.offers
    rw [hpending, ← hoffers] at hbefore
    exact hbefore

theorem InboxStep.counted (hhonest : system.Honest settings) (h : system.Counted)
    (hstep : InboxStep settings system system') : system'.Counted := by
  cases hstep with
  | askStop => exact h.same rfl rfl (Nat.le_refl _) (.inr rfl)
  | enter hpc hstop => exact h.same rfl rfl (Nat.le_refl _) (.inl rfl)
  | exit hpc hstop => exact h.same rfl rfl (Nat.le_refl _) (.inl rfl)
  | unaccepted hpc => exact h.same rfl rfl (Nat.le_refl _) (.inl rfl)
  | accept hpc hlink hfresh => exact accept_counted h hpc hlink hfresh
  | acceptOther hpc => exact h.same rfl rfl (Nat.le_refl _) (.inl rfl)
  | proceed hpc hstop => exact h.same rfl rfl (Nat.le_refl _) (.inr (by rw [hpc]; rfl))
  | breakOff hpc hstop => exact h.same rfl rfl (Nat.le_refl _) (.inl rfl)
  | untrusted hpc => exact h.same rfl rfl (Nat.le_refl _) (.inl rfl)
  | authenticate hpc => exact h.same rfl rfl (Nat.le_refl _) (.inr (by rw [hpc]; rfl))
  | refuse hpc hlink hclient => exact h.same rfl rfl (Nat.le_refl _) (.inl rfl)
  | unread hpc hlink hclient hreader hread => exact h.same rfl rfl (Nat.le_refl _) (.inl rfl)
  | unsent hpc hworker => exact h.same rfl rfl (Nat.le_refl _) (.inl rfl)
  | @receive l hpc link hlink hclient reader later hreader endpoint hread =>
    refine receive_counted h hpc hlink ?_ _
    cases hi : link.announcer with
    | none => exact absurd hclient (hhonest.strangers l link hlink hi)
    | some i => rfl
  | @acknowledge l hpc link hlink =>
    have hset := h.setLink (c := { link with toClient := offerAck }) hlink rfl rfl
    exact hset.same rfl rfl (Nat.le_refl _) (.inl rfl)
  | @unacknowledged l hpc link hlink n =>
    have hset := h.setLink (c := { link with toClient := offerAck.take n }) hlink rfl rfl
    exact hset.same rfl rfl (Nat.le_refl _) (.inl rfl)
  | post hpc => exact h.same rfl rfl (Nat.le_refl _) (.inl rfl)
  | unposted hpc => exact h.same rfl rfl (Nat.le_refl _) (.inl rfl)

theorem PosterStep.counted (h : system.Counted) (hstep : PosterStep system system') :
    system'.Counted := by
  cases hstep with
  | report result => exact h.same rfl List.countP_append (Nat.le_refl _) (.inr rfl)
  | ask command => exact h.same rfl rfl (Nat.le_refl _) (.inr rfl)
  | post hposter => exact h.same rfl rfl (Nat.le_refl _) (.inr rfl)
  | @unposted message hposter =>
    cases message with
    | clipboardUpdate => exact h.same rfl rfl (Nat.le_refl _) (.inr rfl)
    | event => exact h.same rfl rfl (Nat.le_refl _) (.inr rfl)
    | command => exact h.same rfl rfl (Nat.le_refl _) (.inr rfl)
  | clipboard => exact h.same rfl rfl (Nat.le_refl _) (.inr rfl)

section Run

variable {κ : Type} {toLowercase : Char → Text} {windowsText : HResult → String}
  {op : Option (SessionOp κ)} {ops : List (Option (SessionOp κ))} {session : ProductSession}

theorem WorkerStep.counted (h : system.Counted)
    (hstep : WorkerStep toLowercase windowsText system op system') : system'.Counted := by
  cases hstep with
  | events hpc hmessage => exact h.same rfl rfl (Nat.le_refl _) (.inr rfl)
  | commands hpc hmessage => exact h.same rfl rfl (Nat.le_refl _) (.inr rfl)
  | clipboard hpc hmessage => exact h.same rfl rfl (Nat.le_refl _) (.inr rfl)
  | timer hpc => exact h.same rfl rfl (Nat.le_refl _) (.inr rfl)
  | event hpc hevent => exact h.same rfl rfl (Nat.le_refl _) (.inr rfl)
  | eventsEnd hpc hempty => exact h.same rfl rfl (Nat.le_refl _) (.inr rfl)
  | command hpc hcommand => exact h.same rfl rfl (Nat.le_refl _) (.inr rfl)
  | commandsEnd hpc hempty => exact h.same rfl rfl (Nat.le_refl _) (.inr rfl)
  | stop hpc hcommand => exact h.same rfl rfl (Nat.le_refl _) (.inr rfl)
  | leave hpc => exact h.same rfl rfl (Nat.le_refl _) (.inr rfl)
  | quit hpc => exact h.same rfl rfl (Nat.le_refl _) (.inr rfl)

theorem OfferStep.counted (hhonest : system.Honest settings) (h : system.Counted)
    (hstep : OfferStep toLowercase windowsText settings system op system') :
    system'.Counted := by
  cases hstep with
  | tick elapsed => exact h.same rfl rfl (Nat.le_refl _) (.inr rfl)
  | announcer hstep => exact hstep.counted h
  | stranger hstep => exact hstep.counted h
  | inbox hstep => exact hstep.counted hhonest h
  | poster hstep => exact hstep.counted h
  | worker hstep => exact hstep.counted h

theorem start_counted (session : ProductSession) : (OfferSystem.start session).Counted where
  pending l h := by cases h
  offers := Nat.le_refl 0
  made := Nat.le_refl 0

theorem offers_le_tries (h : OfferRun κ toLowercase windowsText settings (.start session) ops system) :
    system.offers ≤ system.tries := by
  have hboth := h.invariant (I := fun system => system.Honest settings ∧ system.Counted)
    (fun hs hstep => ⟨hstep.honest hs.1, hstep.counted hs.1 hs.2⟩)
    ⟨start_honest settings session, start_counted session⟩
  have hused : crowdWeight OfferLink.used system.links ≤
      crowdWeight OfferLink.announced system.links := by
    refine crowdWeight_mono fun link _ => ?_
    rw [OfferLink.used]
    split
    · exact Nat.le_refl _
    · exact Nat.zero_le _
  have hoffers := hboth.2.offers
  have hmade := hboth.2.made
  omega

theorem offers_delivered
    (h : OfferRun κ toLowercase windowsText settings (.start session) ops system) :
    (∀ a ∈ system.announcers, a.pc = .returned (.ok ()) →
      .remoteOffer ⟨received a.endpoint, settings.activePeer⟩ ∈ system.sentEvents) ∧
    (∀ announcement, .remoteOffer announcement ∈ system.sentEvents →
      announcement.peer = settings.activePeer ∧
        validatePrivateEndpoint announcement.endpoint = .ok () ∧
        ∃ a ∈ system.announcers, announcement.endpoint = received a.endpoint) ∧
    system.offers ≤ system.tries := by
  have hhonest := run_honest h
  refine ⟨?_, ?_, offers_le_tries h⟩
  · intro a ha hpc
    obtain ⟨i, hi⟩ := List.mem_iff_getElem?.mp ha
    exact hhonest.returned i a hi hpc
  · intro announcement hsent
    obtain ⟨hpeer, hvalid, i, endpoint, hendpoint, hreceived⟩ := hhonest.genuine announcement hsent
    obtain ⟨a, ha, rfl⟩ := Option.map_eq_some_iff.mp hendpoint
    exact ⟨hpeer, hvalid, a, List.mem_of_getElem? ha, hreceived⟩

end Run

theorem acknowledgement_whole (failure : IoError) {reader : ChunkReader UInt8}
    (h : reader.bytes = offerAck) : readAcknowledgement failure reader = .ok () := by
  obtain ⟨later, hread, -⟩ := @readExactFrom_whole reader offerAck.length (by rw [h])
  rw [readAcknowledgement, hread, h, List.take_length]
  exact if_neg (not_not.mpr rfl)

def soloEndpoint : SocketAddr := .v4 (soloHost 2) 50000

def soloFailure : IoError := unexpectedEof

theorem solo_announced : ∃ ops system,
    OfferRun Nat (fun c => [c]) soloText (soloSettings false)
      (.start (.start (soloSettings false) [] 0)) ops system ∧
    ∃ a ∈ system.announcers, a.pc = .returned (.ok ()) ∧ a.endpoint = soloEndpoint := by
  have hvalid : validatePrivateEndpoint soloEndpoint = .ok () := rfl
  obtain ⟨later, hread, -⟩ := @readAnnouncement_frame soloEndpoint []
    unusedOctets (.bytewise (announcementFrame soloEndpoint unusedOctets))
    (by rw [ChunkReader.bytes_bytewise, List.append_nil]) hvalid
  have hsent : (ChunkReader.bytewise (announcementFrame soloEndpoint unusedOctets)).bytes <+:
      announcementFrame soloEndpoint unusedOctets := by
    rw [ChunkReader.bytes_bytewise]
  have hanswer : (ChunkReader.bytewise offerAck).bytes <+: offerAck := by
    rw [ChunkReader.bytes_bytewise]
  have hencode := encodeAnnouncement_eq_ok.mpr ⟨hvalid, rfl⟩
  have hconnected := ((@Run.nil _ _ (OfferStep (κ := Nat) (fun c => [c]) soloText (soloSettings false))
    (.start (.start (soloSettings false) [] 0))).snoc
    (.announcer (.announce soloEndpoint))).snoc (.announcer (.connect (i := 0) rfl rfl))
  have hwritten := hconnected.snoc (.announcer (.write (i := 0) (l := 0) rfl rfl rfl hencode))
  have haccepted := (hwritten.snoc (.inbox (.enter rfl rfl))).snoc
    (.inbox (.accept rfl (l := 0) rfl rfl))
  have hauthentic := (haccepted.snoc (.inbox (.proceed rfl rfl))).snoc (.inbox (.authenticate rfl))
  have hreceived := hauthentic.snoc (.inbox (.receive rfl (l := 0) rfl rfl hsent hread))
  have hacknowledged := hreceived.snoc (.inbox (.acknowledge rfl (l := 0) rfl))
  have hanswered := hacknowledged.snoc (.announcer (.answered (i := 0) (l := 0) rfl rfl rfl hanswer
    (acknowledgement_whole soloFailure (ChunkReader.bytes_bytewise offerAck))))
  exact ⟨_, _, hanswered, _, List.mem_singleton_self _, rfl, rfl⟩

theorem offers_delivered_solo : ∃ ops system,
    OfferRun Nat (fun c => [c]) soloText (soloSettings false)
      (.start (.start (soloSettings false) [] 0)) ops system ∧
    .remoteOffer ⟨soloEndpoint, soloFingerprint⟩ ∈ system.sentEvents := by
  obtain ⟨ops, system, hrun, a, ha, hreturned, hendpoint⟩ := solo_announced
  refine ⟨ops, system, hrun, ?_⟩
  have hsent := (offers_delivered hrun).1 a ha hreturned
  rw [hendpoint] at hsent
  exact hsent

end ClipFerry.Product
