import ClipFerry.Client.Connection

namespace ClipFerry.Client

open Protocol Server Transition

variable {server : ServerState} {w w' : World} {link link' : Link} {opcode : Opcode}
  {payload : List UInt8} {requestId : UInt64} {k : Nat}

theorem readFrame_nil (result : Frame × List UInt8) : readFrame [] ≠ .ok result := nofun

def Handler.resting : Handler → Prop
  | .waiting | .closed => True
  | _ => False

def CalledFor (server : ServerState) (opcode : Opcode) (payload : List UInt8) (k : Nat)
    (w : World) : Prop :=
  ∃ peer request pc, (∀ checkedAt readAt, dispatchRequest server checkedAt readAt peer opcode
    payload = .call request) ∧ At k request pc w

theorem CalledFor.invoke {checkedAt readAt : Nat} {peer : CertificateFingerprint}
    {request : Request}
    (hcall : dispatchRequest server checkedAt readAt peer opcode payload = .call request)
    (hinvoke : Step server w (.invoke request) w') :
    CalledFor server opcode payload w.calls.length w' := by
  cases hinvoke
  refine ⟨peer, request, request.entry, dispatchRequest_call hcall, ?_⟩
  rw [At]
  exact List.getElem?_concat_length

theorem CalledFor.step {l : Label} (h : Step server w l w')
    (hcalled : CalledFor server opcode payload k w) : CalledFor server opcode payload k w' := by
  obtain ⟨peer, request, pc, hrequest, hat⟩ := hcalled
  by_cases hturn : ∃ us, l = .turn k us
  · obtain ⟨us, rfl⟩ := hturn
    obtain ⟨next, -, hnext⟩ := h.turn_cases hat
    exact ⟨peer, request, next, hrequest, hnext⟩
  · exact ⟨peer, request, pc, hrequest, h.call_kept hat fun us hl => hturn ⟨us, hl⟩⟩

namespace Link

structure Quiet (link : Link) : Prop where
  upstream : link.upstream = []
  downstream : link.downstream = []
  handler : link.handler.resting

inductive Pending (server : ServerState) (w : World) (opcode : Opcode) (payload : List UInt8)
    (requestId : UInt64) (link : Link) : Prop
  | sent (hwrite : writeFrame ⟨opcode.code, requestId, payload⟩ = .ok link.upstream)
      (hdown : link.downstream = []) (hhandler : link.handler.resting)
  | checking {k : Nat} (hup : link.upstream = []) (hdown : link.downstream = [])
      (hhandler : link.handler = .checking ⟨opcode.code, requestId, payload⟩ k)
  | serving {k : Nat} (hup : link.upstream = []) (hdown : link.downstream = [])
      (hhandler : link.handler = .serving ⟨opcode.code, requestId, payload⟩ opcode k)
      (hcalled : CalledFor server opcode payload k w)
  | answered {response : List UInt8} (hup : link.upstream = [])
      (hwrite : writeFrame (responseFrame opcode requestId response) = .ok link.downstream)
      (hhandler : link.handler.resting) (hresponded : Responded server opcode payload response)
  | lost (hup : link.upstream = []) (hdown : link.downstream = [])
      (hhandler : link.handler = .closed)

theorem Pending.step {l : Label} (h : Step server w l w')
    (hpending : link.Pending server w opcode payload requestId) :
    link.Pending server w' opcode payload requestId := by
  cases hpending with
  | sent hwrite hdown hhandler => exact .sent hwrite hdown hhandler
  | checking hup hdown hhandler => exact .checking hup hdown hhandler
  | serving hup hdown hhandler hcalled => exact .serving hup hdown hhandler (hcalled.step h)
  | answered hup hwrite hhandler hresponded => exact .answered hup hwrite hhandler hresponded
  | lost hup hdown hhandler => exact .lost hup hdown hhandler

end Link

namespace LinkStep

theorem world (h : LinkStep server w link w' link') : w' = w ∨ ∃ l, Step server w l w' := by
  cases h with
  | accept _ _ hinvoke | dispatch _ _ _ _ hinvoke => exact .inr ⟨_, hinvoke⟩
  | reply | respond | close => exact .inl rfl

theorem quiet (h : LinkStep server w link w' link') (hquiet : link.Quiet) : link'.Quiet := by
  obtain ⟨hup, hdown, hhandler⟩ := hquiet
  cases h with
  | accept _ hread =>
    rw [hup] at hread
    exact absurd hread (readFrame_nil _)
  | dispatch hbusy | reply hbusy | respond hbusy =>
    rw [hbusy] at hhandler
    exact hhandler.elim
  | close => exact ⟨hup, hdown, trivial⟩

theorem pending {now : Nat} {trusted : CertificateFingerprint → Bool} {ls : List Label}
    (hrun : Run (Step server) (World.start now trusted) ls w)
    (h : LinkStep server w link w' link')
    (hpending : link.Pending server w opcode payload requestId) :
    link'.Pending server w' opcode payload requestId := by
  cases h with
  | accept hwaiting hread hinvoke =>
    cases hpending with
    | sent hwrite hdown =>
      rw [readFrame_writeFrame hwrite] at hread
      cases hread
      exact .checking rfl hdown rfl
    | checking hup | serving hup | answered hup | lost hup =>
      rw [hup] at hread
      exact absurd hread (readFrame_nil _)
  | dispatch hchecking hallowed hopcode hcall hinvoke =>
    cases hpending with
    | checking hup hdown hhandler =>
      cases hchecking.symm.trans hhandler
      rw [Opcode.tryFrom_code] at hopcode
      cases hopcode
      exact .serving hup hdown rfl (.invoke hcall hinvoke)
    | sent _ _ hhandler | answered _ _ hhandler =>
      rw [hchecking] at hhandler
      exact hhandler.elim
    | serving _ _ hhandler | lost _ _ hhandler => cases hchecking.symm.trans hhandler
  | reply hchecking hallowed hopcode hreply hwrite =>
    cases hpending with
    | checking hup hdown hhandler =>
      cases hchecking.symm.trans hhandler
      rw [Opcode.tryFrom_code] at hopcode
      cases hopcode
      refine .answered hup ?_ trivial (dispatchRequest_reply hreply)
      rw [hdown]
      exact hwrite
    | sent _ _ hhandler | answered _ _ hhandler =>
      rw [hchecking] at hhandler
      exact hhandler.elim
    | serving _ _ hhandler | lost _ _ hhandler => cases hchecking.symm.trans hhandler
  | respond hserving hdone hwrite =>
    cases hpending with
    | serving hup hdown hhandler hcalled =>
      cases hserving.symm.trans hhandler
      obtain ⟨peer, request, pc, hrequest, hat⟩ := hcalled
      cases hat.symm.trans hdone
      refine .answered hup ?_ trivial (responded_of_run hrun (hrequest 0 0) hdone)
      rw [hdown]
      exact hwrite
    | sent _ _ hhandler | answered _ _ hhandler =>
      rw [hserving] at hhandler
      exact hhandler.elim
    | checking _ _ hhandler | lost _ _ hhandler => cases hserving.symm.trans hhandler
  | close =>
    cases hpending with
    | sent hwrite hdown => exact .sent hwrite hdown trivial
    | checking hup hdown | serving hup hdown => exact .lost hup hdown rfl
    | answered hup hwrite _ hresponded => exact .answered hup hwrite trivial hresponded
    | lost hup hdown => exact .lost hup hdown rfl

end LinkStep

structure Wired (server : ServerState) (system : System) : Prop where
  held {t : Nat} {key : SlotKey} : (system.exchanges t).holds key →
    (system.slots key).holder = some t
  bound {key : SlotKey} {j : Nat} : (system.slots key).link = some j → j < system.links.length
  distinct {key key' : SlotKey} {j : Nat} : (system.slots key).link = some j →
    (system.slots key').link = some j → key = key'
  calm {key : SlotKey} {j : Nat} {link : Link} : (system.slots key).link = some j →
    system.links[j]? = some link →
    (∀ t command requestId, system.exchanges t = .awaiting command requestId →
      command.key ≠ key) → link.Quiet
  pending {t : Nat} {command : Command} {requestId : UInt64} :
    system.exchanges t = .awaiting command requestId →
    ∃ j link, (system.slots command.key).link = some j ∧ system.links[j]? = some link ∧
      link.Pending server system.world command.opcode command.payload requestId
  responded {t : Nat} {command : Command} {response : List UInt8} :
    system.exchanges t = .responded command response →
    Responded server command.opcode command.payload response

namespace Wired

variable {system system' : System} {t : Nat} {key : SlotKey}

structure Moves (server : ServerState) (system : System) (t : Nat) (key : SlotKey)
    (system' : System) : Prop where
  world : system'.world = system.world
  slots (key' : SlotKey) : key' ≠ key → system'.slots key' = system.slots key'
  exchanges (u : Nat) : u ≠ t → system'.exchanges u = system.exchanges u
  links {j : Nat} {link : Link} : (system.slots key).link ≠ some j →
    system.links[j]? = some link → system'.links[j]? = some link
  length : system.links.length ≤ system'.links.length
  mine : (system.slots key).holder = none ∨ (system.slots key).holder = some t
  before {command : Command} {requestId : UInt64} :
    system.exchanges t = .awaiting command requestId → command.key = key
  held {key' : SlotKey} : (system'.exchanges t).holds key' →
    key' = key ∧ (system'.slots key).holder = some t
  fresh {j : Nat} : (system'.slots key).link = some j → j < system'.links.length ∧
    ((system.slots key).link = some j ∨ system.links.length ≤ j)
  calm {j : Nat} {link : Link} : (system'.slots key).link = some j →
    system'.links[j]? = some link →
    (∀ command requestId, system'.exchanges t ≠ .awaiting command requestId) → link.Quiet
  pending {command : Command} {requestId : UInt64} :
    system'.exchanges t = .awaiting command requestId →
    ∃ j link, (system'.slots command.key).link = some j ∧ system'.links[j]? = some link ∧
      link.Pending server system'.world command.opcode command.payload requestId
  responded {command : Command} {response : List UInt8} :
    system'.exchanges t = .responded command response →
    Responded server command.opcode command.payload response

theorem moves (hi : Wired server system) (h : Moves server system t key system') :
    Wired server system' := by
  have hlinked : ∀ {key' j}, key' ≠ key → (system.slots key').link = some j →
      (system.slots key).link ≠ some j :=
    fun hne hlink hsame => hne (hi.distinct hlink hsame)
  have hkept : ∀ {key' j link}, key' ≠ key → (system.slots key').link = some j →
      system'.links[j]? = some link → system.links[j]? = some link := by
    intro key' j link hne hlink hnew
    have hold := List.getElem?_eq_getElem (hi.bound hlink)
    cases (h.links (hlinked hne hlink) hold).symm.trans hnew
    exact hold
  have hothers : ∀ {u key'}, u ≠ t → (system.exchanges u).holds key' → key' ≠ key := by
    rintro u key' hut hholds rfl
    rcases h.mine with hnone | hsome
    · cases hnone.symm.trans (hi.held hholds)
    · cases hsome.symm.trans (hi.held hholds)
      exact hut rfl
  refine ⟨?_, ?_, ?_, ?_, ?_, ?_⟩
  · intro u key' hholds
    by_cases hut : u = t
    · subst hut
      obtain ⟨rfl, hholder⟩ := h.held hholds
      exact hholder
    · rw [h.exchanges u hut] at hholds
      rw [h.slots key' (hothers hut hholds)]
      exact hi.held hholds
  · intro key' j hlink
    by_cases hkey : key' = key
    · subst hkey
      exact (h.fresh hlink).1
    · rw [h.slots key' hkey] at hlink
      exact (hi.bound hlink).trans_le h.length
  · intro key₁ key₂ i
    refine exclusive_step (P := fun key j => (system.slots key).link = some j)
      (Q := fun key j => (system'.slots key).link = some j) (k := key) hi.distinct
      (fun {key' j} hkey hlink => ?_) fun {key' j} hnew hold => ?_
    · rwa [h.slots key' hkey] at hlink
    · rcases (h.fresh hnew).2 with hsame | hge
      · exact hi.distinct hold hsame
      · exact absurd (hi.bound hold) (Nat.not_lt.mpr hge)
  · intro key' j link hslot hlink hnobody
    by_cases hkey : key' = key
    · subst hkey
      refine h.calm hslot hlink fun command requestId hawaiting => ?_
      exact hnobody t command requestId hawaiting
        (h.held (by rw [hawaiting]; exact (rfl : command.key = command.key))).1
    · rw [h.slots key' hkey] at hslot
      refine hi.calm hslot (hkept hkey hslot hlink) fun u command requestId hawaiting => ?_
      by_cases hut : u = t
      · subst hut
        rw [h.before hawaiting]
        exact Ne.symm hkey
      · exact hnobody u command requestId ((h.exchanges u hut).trans hawaiting)
  · intro u command requestId hawaiting
    by_cases hut : u = t
    · subst hut
      exact h.pending hawaiting
    · rw [h.exchanges u hut] at hawaiting
      obtain ⟨j, link, hslot, hlink, hpending⟩ := hi.pending hawaiting
      have hkey : command.key ≠ key :=
        hothers hut (by rw [hawaiting]; exact (rfl : command.key = command.key))
      exact ⟨j, link, by rw [h.slots _ hkey, hslot], h.links (hlinked hkey hslot) hlink,
        by rw [h.world]; exact hpending⟩
  · intro u command response hresponded
    by_cases hut : u = t
    · subst hut
      exact h.responded hresponded
    · rw [h.exchanges u hut] at hresponded
      exact hi.responded hresponded

variable {command : Command} {exchange : Exchange} {j : Nat} {bytes rest : List UInt8}
  {frame : Frame}

theorem silent (hi : Wired server system) (hbefore : ∀ key, ¬(system.exchanges t).holds key)
    (hafter : ∀ key, ¬exchange.holds key)
    (hresponded : ∀ command response, exchange ≠ .responded command response) :
    Wired server (system.setExchange t exchange) := by
  have hself : (system.setExchange t exchange).exchanges t = exchange := Function.update_self ..
  have hother : ∀ {u}, u ≠ t →
      (system.setExchange t exchange).exchanges u = system.exchanges u :=
    fun hut => Function.update_of_ne hut _ _
  refine ⟨?_, hi.bound, hi.distinct, ?_, ?_, ?_⟩
  · intro u key hholds
    by_cases hut : u = t
    · subst hut
      rw [hself] at hholds
      exact (hafter key hholds).elim
    · rw [hother hut] at hholds
      exact hi.held hholds
  · intro key j link hslot hlink hnobody
    refine hi.calm hslot hlink fun u command requestId hawaiting => ?_
    by_cases hut : u = t
    · subst hut
      exact (hbefore command.key (by rw [hawaiting]; exact (rfl : command.key = _))).elim
    · exact hnobody u command requestId ((hother hut).trans hawaiting)
  · intro u command requestId hawaiting
    by_cases hut : u = t
    · subst hut
      rw [hself] at hawaiting
      exact (hafter command.key (by rw [hawaiting]; exact (rfl : command.key = _))).elim
    · rw [hother hut] at hawaiting
      exact hi.pending hawaiting
  · intro u command response hanswered
    by_cases hut : u = t
    · subst hut
      rw [hself] at hanswered
      exact (hresponded command response hanswered).elim
    · rw [hother hut] at hanswered
      exact hi.responded hanswered

theorem free (hi : Wired server system) (hfree : (system.slots key).holder = none) {u : Nat}
    {requestId : UInt64} (hawaiting : system.exchanges u = .awaiting command requestId) :
    command.key ≠ key := by
  rintro rfl
  have hheld := @Wired.held _ _ hi u command.key (by rw [hawaiting]; exact rfl)
  cases hfree.symm.trans hheld

theorem owned (hi : Wired server system) (hlocked : system.exchanges t = .locked command) {u : Nat}
    {other : Command} {requestId : UInt64}
    (hawaiting : system.exchanges u = .awaiting other requestId) : other.key ≠ command.key := by
  intro hkey
  have hmine := @Wired.held _ _ hi t command.key (by rw [hlocked]; exact rfl)
  have hheld := @Wired.held _ _ hi u command.key (by rw [hawaiting]; exact hkey)
  cases hmine.symm.trans hheld
  cases hlocked.symm.trans hawaiting

theorem lock (hi : Wired server system) (htrying : system.exchanges t = .trying command)
    (hfree : (system.slots command.key).holder = none) :
    Wired server ((system.setSlot command.key
      ⟨some t, (system.slots command.key).link⟩).setExchange t (.locked command)) := by
  apply hi.moves (t := t)
  have hslot : ((system.setSlot command.key ⟨some t, (system.slots command.key).link⟩).setExchange
      t (.locked command)).slots command.key = ⟨some t, (system.slots command.key).link⟩ :=
    Function.update_self ..
  have hexchange : ((system.setSlot command.key
      ⟨some t, (system.slots command.key).link⟩).setExchange t (.locked command)).exchanges t =
      .locked command := Function.update_self ..
  exact {
    world := rfl
    slots := fun key' hne => Function.update_of_ne hne _ _
    exchanges := fun u hne => Function.update_of_ne hne _ _
    links := fun _ hlink => hlink
    length := Nat.le_refl _
    mine := .inl hfree
    before := fun hawaiting => by cases htrying.symm.trans hawaiting
    held := fun hholds => by
      rw [hexchange] at hholds
      exact ⟨hholds.symm, by rw [hslot]⟩
    fresh := fun hlink => by
      rw [hslot] at hlink
      exact ⟨hi.bound hlink, .inl hlink⟩
    calm := fun hlink hfound _ => by
      rw [hslot] at hlink
      exact hi.calm hlink hfound fun u other requestId hawaiting => hi.free hfree hawaiting
    pending := fun hawaiting => by cases hexchange.symm.trans hawaiting
    responded := fun hresponded => by cases hexchange.symm.trans hresponded }

theorem connect (hi : Wired server system) (peer : CertificateFingerprint)
    (hlocked : system.exchanges t = .locked command) {nextRequestId : Nat → UInt64} :
    Wired server { system.setSlot command.key ⟨some t, some system.links.length⟩ with
      links := system.links ++ [.opened peer]
      nextRequestId := nextRequestId } := by
  have hslot : (system.setSlot command.key ⟨some t, some system.links.length⟩).slots command.key =
      ⟨some t, some system.links.length⟩ := Function.update_self ..
  exact hi.moves (t := t) {
    world := rfl
    slots := fun key' hne => Function.update_of_ne hne _ _
    exchanges := fun _ _ => rfl
    links := fun {j link} _ hlink =>
      (List.getElem?_append_left (List.getElem?_eq_some_iff.mp hlink).1).trans hlink
    length := by simp
    mine := .inr (hi.held (by rw [hlocked]; exact rfl))
    before := fun hawaiting => by cases hlocked.symm.trans hawaiting
    held := fun {key'} hholds => by
      have hkey : (system.exchanges t).holds key' := hholds
      rw [hlocked] at hkey
      exact ⟨hkey.symm, congrArg Slot.holder hslot⟩
    fresh := fun hlink => by
      cases (congrArg Slot.link hslot).symm.trans hlink
      exact ⟨by simp, .inr (Nat.le_refl _)⟩
    calm := fun hlink hfound _ => by
      cases (congrArg Slot.link hslot).symm.trans hlink
      cases List.getElem?_concat_length.symm.trans hfound
      exact ⟨rfl, rfl, trivial⟩
    pending := fun hawaiting => by cases hlocked.symm.trans hawaiting
    responded := fun hresponded => by cases hlocked.symm.trans hresponded }

theorem send (hi : Wired server system) {link : Link} {requestId : UInt64}
    (hlocked : system.exchanges t = .locked command)
    (hslot : (system.slots command.key).link = some j) (hlink : system.links[j]? = some link)
    (hwrite : writeFrame ⟨command.opcode.code, requestId, command.payload⟩ = .ok bytes)
    {nextRequestId : Nat → UInt64} :
    Wired server { (system.setLink j { link with upstream := link.upstream ++ bytes }).setExchange
      t (.awaiting command requestId) with nextRequestId := nextRequestId } := by
  have hexchange : ((system.setLink j { link with upstream := link.upstream ++ bytes }).setExchange
      t (.awaiting command requestId)).exchanges t = .awaiting command requestId :=
    Function.update_self ..
  have hquiet := hi.calm hslot hlink fun u other requestId hawaiting => hi.owned hlocked hawaiting
  have hmine := @Wired.held _ _ hi t command.key (by rw [hlocked]; exact rfl)
  have hset : (system.links.set j { link with upstream := link.upstream ++ bytes })[j]? =
      some { link with upstream := link.upstream ++ bytes } :=
    List.getElem?_set_self (hi.bound hslot)
  exact hi.moves (t := t) {
    world := rfl
    slots := fun _ _ => rfl
    exchanges := fun u hne => Function.update_of_ne hne _ _
    links := fun {i found} hne hfound => by
      have hij : j ≠ i := by
        rintro rfl
        exact hne hslot
      exact (List.getElem?_set_ne hij).trans hfound
    length := by simp [System.setExchange, System.setLink]
    mine := .inr hmine
    before := fun hawaiting => by cases hlocked.symm.trans hawaiting
    held := fun {key'} hholds => by
      have hkey : (Exchange.awaiting command requestId).holds key' := by rwa [← hexchange]
      exact ⟨hkey.symm, hmine⟩
    fresh := fun hfresh => ⟨by simpa [System.setExchange, System.setLink] using hi.bound hfresh,
      .inl hfresh⟩
    calm := fun _ _ hnone => absurd hexchange (hnone command requestId)
    pending := fun hawaiting => by
      cases hexchange.symm.trans hawaiting
      refine ⟨j, _, hslot, hset, .sent ?_ hquiet.downstream hquiet.handler⟩
      rw [hquiet.upstream]
      exact hwrite
    responded := fun hresponded => by cases hexchange.symm.trans hresponded }

theorem receive (hi : Wired server system) {link : Link} {requestId : UInt64}
    (hawaiting : system.exchanges t = .awaiting command requestId)
    (hslot : (system.slots command.key).link = some j) (hlink : system.links[j]? = some link)
    (hread : readFrame link.downstream = .ok (frame, rest)) :
    Wired server (((system.setLink j { link with downstream := rest }).setSlot command.key
      ⟨none, some j⟩).setExchange t (.responded command frame.payload)) := by
  have hexchange : (((system.setLink j { link with downstream := rest }).setSlot command.key
      ⟨none, some j⟩).setExchange t (.responded command frame.payload)).exchanges t =
      .responded command frame.payload := Function.update_self ..
  have hslot' : (((system.setLink j { link with downstream := rest }).setSlot command.key
      ⟨none, some j⟩).setExchange t (.responded command frame.payload)).slots command.key =
      ⟨none, some j⟩ := Function.update_self ..
  have hset : (system.links.set j { link with downstream := rest })[j]? =
      some { link with downstream := rest } := List.getElem?_set_self (hi.bound hslot)
  have hanswered : ({ link with downstream := rest } : Link).Quiet ∧
      Responded server command.opcode command.payload frame.payload := by
    obtain ⟨i, found, hslot₀, hfound, hpending⟩ := hi.pending hawaiting
    cases hslot₀.symm.trans hslot
    cases hfound.symm.trans hlink
    cases hpending with
    | answered hup hwrite hhandler hresponded =>
      rw [readFrame_writeFrame hwrite] at hread
      cases hread
      exact ⟨⟨hup, rfl, hhandler⟩, hresponded⟩
    | sent _ hdown | checking _ hdown | serving _ hdown | lost _ hdown =>
      rw [hdown] at hread
      exact absurd hread (readFrame_nil _)
  exact hi.moves (t := t) {
    world := rfl
    slots := fun key' hne => Function.update_of_ne hne _ _
    exchanges := fun u hne => Function.update_of_ne hne _ _
    links := fun {i found} hne hfound => by
      have hij : j ≠ i := by
        rintro rfl
        exact hne hslot
      exact (List.getElem?_set_ne hij).trans hfound
    length := by simp [System.setExchange, System.setSlot, System.setLink]
    mine := .inr (hi.held (by rw [hawaiting]; exact rfl))
    before := fun hbefore => by
      cases hawaiting.symm.trans hbefore
      rfl
    held := fun hholds => by
      rw [hexchange] at hholds
      exact hholds.elim
    fresh := fun hfresh => by
      cases (congrArg Slot.link hslot').symm.trans hfresh
      exact ⟨by simpa [System.setExchange, System.setSlot, System.setLink] using hi.bound hslot,
        .inl hslot⟩
    calm := fun hfresh hfound _ => by
      cases (congrArg Slot.link hslot').symm.trans hfresh
      cases hset.symm.trans hfound
      exact hanswered.1
    pending := fun hafter => by cases hexchange.symm.trans hafter
    responded := fun hafter => by
      cases hexchange.symm.trans hafter
      exact hanswered.2 }

theorem drop (hi : Wired server system)
    (hholds : system.exchanges t = .locked command ∨
      ∃ requestId, system.exchanges t = .awaiting command requestId)
    (hafter : ∀ key, ¬exchange.holds key)
    (hresponded : ∀ command response, exchange ≠ .responded command response) :
    Wired server ((system.setSlot command.key ⟨none, none⟩).setExchange t exchange) := by
  have hexchange : ((system.setSlot command.key ⟨none, none⟩).setExchange t exchange).exchanges t =
      exchange := Function.update_self ..
  have hslot : ((system.setSlot command.key ⟨none, none⟩).setExchange t exchange).slots
      command.key = ⟨none, none⟩ := Function.update_self ..
  exact hi.moves (t := t) {
    world := rfl
    slots := fun key' hne => Function.update_of_ne hne _ _
    exchanges := fun u hne => Function.update_of_ne hne _ _
    links := fun _ hlink => hlink
    length := Nat.le_refl _
    mine := .inr (hi.held (by
      rcases hholds with hlocked | ⟨requestId, hawaiting⟩
      · rw [hlocked]
        exact rfl
      · rw [hawaiting]
        exact rfl))
    before := fun hbefore => by
      rcases hholds with hlocked | ⟨requestId, hawaiting⟩
      · cases hlocked.symm.trans hbefore
      · cases hawaiting.symm.trans hbefore
        rfl
    held := fun hholds' => by
      rw [hexchange] at hholds'
      exact (hafter _ hholds').elim
    fresh := fun hfresh => by cases (congrArg Slot.link hslot).symm.trans hfresh
    calm := fun hfresh => by cases (congrArg Slot.link hslot).symm.trans hfresh
    pending := fun hawaiting => by
      rw [hexchange] at hawaiting
      exact (hafter _ (by rw [hawaiting]; exact (rfl : _ = Command.key _))).elim
    responded := fun hanswered => (hresponded _ _ (hexchange.symm.trans hanswered)).elim }

theorem handle {now : Nat} {trusted : CertificateFingerprint → Bool} {ls : List Label}
    (hrun : Run (Step server) (World.start now trusted) ls system.world)
    (hi : Wired server system) {link link' : Link} {world : World}
    (hlink : system.links[j]? = some link) (h : LinkStep server system.world link world link') :
    Wired server { system.setLink j link' with world := world } := by
  have hlt := (List.getElem?_eq_some_iff.mp hlink).1
  have hset : (system.links.set j link')[j]? = some link' := List.getElem?_set_self hlt
  have hworld : ∀ {link : Link} {opcode payload requestId},
      link.Pending server system.world opcode payload requestId →
      link.Pending server world opcode payload requestId := by
    intro link opcode payload requestId hpending
    rcases h.world with rfl | ⟨l, hstep⟩
    · exact hpending
    · exact hpending.step hstep
  refine ⟨hi.held, ?_, hi.distinct, ?_, ?_, hi.responded⟩
  · intro key i hslot
    simpa [System.setLink] using hi.bound hslot
  · intro key i found hslot hfound hnobody
    by_cases hij : j = i
    · subst hij
      cases hset.symm.trans hfound
      exact h.quiet (hi.calm hslot hlink hnobody)
    · exact hi.calm hslot ((List.getElem?_set_ne hij).symm.trans hfound) hnobody
  · intro t command requestId hawaiting
    obtain ⟨i, found, hslot, hfound, hpending⟩ := hi.pending hawaiting
    by_cases hij : j = i
    · subst hij
      cases hfound.symm.trans hlink
      exact ⟨j, link', hslot, hset, h.pending hrun hpending⟩
    · exact ⟨i, found, hslot, (List.getElem?_set_ne hij).trans hfound, hworld hpending⟩

theorem world {l : Label} {world : World} (hi : Wired server system)
    (h : Step server system.world l world) : Wired server { system with world := world } := by
  refine ⟨hi.held, hi.bound, hi.distinct, hi.calm, ?_, hi.responded⟩
  intro t command requestId hawaiting
  obtain ⟨j, link, hslot, hlink, hpending⟩ := hi.pending hawaiting
  exact ⟨j, link, hslot, hlink, hpending.step h⟩

theorem client {client : ClientWorld TransferCredentials} (hi : Wired server system) :
    Wired server { system with client := client } :=
  ⟨hi.held, hi.bound, hi.distinct, hi.calm, hi.pending, hi.responded⟩

theorem step {now : Nat} {trusted : CertificateFingerprint → Bool} {ls : List Label}
    {l : SystemLabel} (hrun : Run (Step server) (World.start now trusted) ls system.world)
    (hi : Wired server system) (h : SystemStep server system l system') : Wired server system' := by
  cases h with
  | client => exact hi.client
  | world h => exact hi.world h
  | link hlink h => exact hi.handle hrun hlink h
  | issue _ hbefore | notIssued _ _ hbefore | giveUp _ hbefore =>
    exact hi.silent (fun key => by rw [hbefore]; exact id) (fun _ => id) nofun
  | lock htrying hfree => exact hi.lock htrying hfree
  | connect peer hlocked => exact hi.connect peer hlocked
  | send hlocked hslot hlink hwrite => exact hi.send hlocked hslot hlink hwrite
  | receive hawaiting hslot hlink hread => exact hi.receive hawaiting hslot hlink hread
  | lose _ hholds | retry _ hholds => exact hi.drop hholds (fun _ => id) nofun
  | @answer t rpc source outcome client _ houtcome =>
    have hidle : Wired server (system.setExchange t .idle) := by
      refine hi.silent (fun key hholds => ?_) (fun _ => id) nofun
      cases hexchange : system.exchanges t with
      | locked | awaiting => simp [hexchange, Exchange.outcome] at houtcome
      | idle | trying | responded | failed =>
        rw [hexchange] at hholds
        exact hholds
    exact hidle.client

theorem start {now : Nat} {trusted : CertificateFingerprint → Bool} :
    Wired server (.start now trusted) where
  held h := h.elim
  bound h := by cases h
  distinct h := by cases h
  calm h := by cases h
  pending h := by cases h
  responded h := by cases h

end Wired

theorem SystemStep.world_run {now : Nat} {trusted : CertificateFingerprint → Bool}
    {system system' : System} {l : SystemLabel} (h : SystemStep server system l system')
    (hrun : Reachable (Step server) (World.start now trusted) system.world) :
    Reachable (Step server) (World.start now trusted) system'.world := by
  obtain ⟨ls, hrun⟩ := hrun
  cases h with
  | world h => exact ⟨_, hrun.snoc h⟩
  | link _ h =>
    rcases h.world with hsame | ⟨l, hstep⟩
    · rw [hsame]
      exact ⟨ls, hrun⟩
    · exact ⟨_, hrun.snoc hstep⟩
  | client | issue | notIssued | giveUp | lock | connect | send | receive | lose | retry
  | answer => exact ⟨ls, hrun⟩

theorem wired_of_run {now : Nat} {trusted : CertificateFingerprint → Bool}
    {system : System} {ls : List SystemLabel}
    (h : Run (SystemStep server) (.start now trusted) ls system) :
    Reachable (Step server) (World.start now trusted) system.world ∧ Wired server system :=
  h.invariant (I := fun system =>
      Reachable (Step server) (World.start now trusted) system.world ∧ Wired server system)
    (fun hi hstep => ⟨hstep.world_run hi.1, hi.2.step hi.1.choose_spec hstep⟩)
    ⟨⟨[], .nil⟩, Wired.start⟩

end ClipFerry.Client
