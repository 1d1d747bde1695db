import ClipFerry.Client.Connection

namespace ClipFerry.Client

open Protocol Server Transition

variable {server : ServerState} {system system' : System} {w w' : World} {t j : Nat}
  {command : Command} {requestId : UInt64} {bytes : List UInt8} {peer : CertificateFingerprint}

def connected (w : World) (peer : CertificateFingerprint) : World :=
  { w with calls := w.calls ++ [⟨.connect peer, .done (.ok .connected)⟩] }

theorem connect_run (hallowed : server.peerIsAllowed w.toView peer = true) :
    Run (Step server) { w with calls := w.calls ++ [⟨.connect peer, .authorize⟩] }
      [.turn w.calls.length []] (connected w peer) := by
  have hcheck : server.ensurePeerAllowed w.toView peer (.done (.ok .connected)) =
      ([], .done (.ok .connected)) := by
    rw [ServerState.ensurePeerAllowed, if_neg (by rw [hallowed]; exact Bool.noConfusion)]
  have hlast : ∀ first call : Call, (w.calls ++ [first]).set w.calls.length call =
      w.calls ++ [call] := by
    intro first call
    simp
  have h := @Step.turn server { w with calls := w.calls ++ [⟨.connect peer, .authorize⟩] } _ _ _ _
    List.getElem?_concat_length (.authorize hcheck)
  rw [hlast] at h
  exact Run.single h

structure Sent (base : System) (t : Nat) (command : Command) (requestId : UInt64) (j : Nat)
    (link : Link) (system : System) : Prop where
  client : system.client = base.client
  exchange : system.exchanges t = .awaiting command requestId
  slot : system.slots command.key = ⟨some t, some j⟩
  others (key : SlotKey) : key ≠ command.key → system.slots key = base.slots key
  link : system.links[j]? = some link

theorem Sent.of_issue {rpc : Rpc TransferCredentials} {source : RemoteSource TransferCredentials}
    {nonce : Secret} {opcode : Opcode} {payload : List UInt8} (peer : CertificateFingerprint)
    (hasks : system.Asks t rpc source) (hidle : system.exchanges t = .idle)
    (hencode : rpc.encode nonce source = .ok (opcode, payload))
    (hslot : system.slots ⟨source.client, .carrying opcode⟩ = ⟨none, none⟩)
    (hfits : payload.length ≤ maxFramePayload) :
    ∃ ls system' requestId j upstream, Run (SystemStep server) system ls system' ∧
      system'.world = system.world ∧
      Sent system t ⟨⟨source.client, .carrying opcode⟩, opcode, payload⟩ requestId j
        ⟨peer, upstream, [], .waiting⟩ system' ∧
      writeFrame ⟨opcode.code, requestId, payload⟩ = .ok upstream := by
  obtain ⟨upstream, hupstream⟩ := writeFrame_fits
    ⟨opcode.code, system.nextRequestId source.client + 1, payload⟩ hfits
  obtain ⟨client, world, links, slots, exchanges, nextRequestId⟩ := system
  have hupdate : ∀ {f : SlotKey → Slot} {key slot}, Function.update f key slot key = slot :=
    Function.update_self ..
  have hexchange : ∀ {f : Nat → Exchange} {exchange}, Function.update f t exchange t = exchange :=
    Function.update_self ..
  have hopened : (links ++ [Link.opened peer])[links.length]? = some (.opened peer) :=
    List.getElem?_concat_length
  have hrun := (@Run.nil _ _ (SystemStep server) ⟨client, world, links, slots, exchanges, nextRequestId⟩)
    |>.snoc (.issue hasks hidle hencode)
    |>.snoc (.lock hexchange (congrArg Slot.holder hslot))
    |>.snoc (.connect (t := t) peer hexchange (by
      simp only [System.setExchange, System.setSlot, hupdate]
      exact congrArg Slot.link hslot))
    |>.snoc (.send (j := links.length) hexchange (congrArg Slot.link hupdate) hopened (by
        simp only [System.setExchange, System.setSlot, Function.update_self]
        exact hupstream))
  refine ⟨_, _, _, _, _, hrun, rfl, ⟨rfl, hexchange.trans ?_, hupdate, fun key hne => ?_, ?_⟩,
    hupstream⟩
  · simp only [System.setExchange, System.setSlot, Function.update_self]
  · simp only [System.setExchange, System.setSlot, System.setLink, Function.update_of_ne hne]
  · simp only [System.setExchange, System.setSlot, System.setLink]
    exact List.getElem?_set_self (by simp)

theorem Sent.linked (server : ServerState) {base : System} {link link' : Link}
    (h : Sent base t command requestId j link system)
    (hstep : LinkStep server system.world link w link') : ∃ system',
      SystemStep server system (.link j) system' ∧ system'.world = w ∧
      Sent base t command requestId j link' system' :=
  ⟨_, .link h.link hstep, rfl, h.client, h.exchange, h.slot, h.others,
    List.getElem?_set_self (List.getElem?_eq_some_iff.mp h.link).1⟩

theorem Sent.worked {base : System} {link : Link} {ls : List Label}
    (h : Sent base t command requestId j link system) (hrun : Run (Step server) system.world ls w) :
    ∃ ls system', Run (SystemStep server) system ls system' ∧ system'.world = w ∧
      Sent base t command requestId j link system' := by
  induction hrun with
  | nil => exact ⟨[], system, .nil, rfl, h⟩
  | snoc _ last ih =>
    obtain ⟨ls, middle, hmiddle, rfl, hsent⟩ := ih
    exact ⟨_, _, hmiddle.snoc (.world last), rfl, hsent.client, hsent.exchange, hsent.slot,
      hsent.others, hsent.link⟩

theorem Sent.served {base : System} {request : Request} {result : WireResult Answer}
    {ls : List Label} {opcode : Opcode} {payload : List UInt8} {key : SlotKey}
    (h : Sent base t ⟨key, opcode, payload⟩ requestId j ⟨peer, bytes, [], .waiting⟩ system)
    (hwrite : writeFrame ⟨opcode.code, requestId, payload⟩ = .ok bytes)
    (hallowed : server.peerIsAllowed system.world.toView peer = true)
    (hcall : dispatchRequest server 0 0 peer opcode payload = .call request)
    (hrun : Run (Step server) { connected system.world peer with
      calls := (connected system.world peer).calls ++ [⟨request, request.entry⟩] } ls w)
    (hdone : At (system.world.calls.length + 1) request (.done result) w)
    (hfits : (respond result).length ≤ maxFramePayload) :
    ∃ ls system', Run (SystemStep server) system ls system' ∧ system'.world = w ∧
      system'.client = base.client ∧
      (∃ command, system'.exchanges t = .responded command (respond result)) ∧
      ∀ key', key' ≠ key → system'.slots key' = base.slots key' := by
  obtain ⟨downstream, hdownstream⟩ :=
    writeFrame_fits (responseFrame opcode requestId (respond result)) hfits
  have hcalls : (connected system.world peer).calls.length = system.world.calls.length + 1 := by
    simp [connected]
  obtain ⟨accepted, haccept, hworld, haccepted⟩ :=
    h.linked server (.accept rfl (readFrame_writeFrame hwrite) (.invoke (.connect peer)))
  obtain ⟨ls, checked, hcheck, hconnected, hchecked⟩ :=
    haccepted.worked (by rw [hworld]; exact connect_run hallowed)
  obtain ⟨dispatched, hdispatch, hworld', hdispatched⟩ := hchecked.linked server
    (.dispatch rfl (by rw [hconnected]; exact List.getElem?_concat_length)
      (Opcode.tryFrom_code opcode) hcall (.invoke request))
  obtain ⟨ls', served, hserve, rfl, hserved⟩ :=
    hdispatched.worked (by rw [hworld', hconnected]; exact hrun)
  rw [hconnected, hcalls] at hserved
  obtain ⟨answered, hanswer, hworld'', hanswered⟩ :=
    hserved.linked server (.respond rfl hdone hdownstream)
  have hreceive : SystemStep server answered (.exchange t) _ :=
    .receive hanswered.exchange (congrArg Slot.link hanswered.slot) hanswered.link
      (readFrame_writeFrame hdownstream) rfl rfl
  refine ⟨_, _, ((((Run.single haccept).append hcheck).snoc hdispatch).append hserve).snoc hanswer
    |>.snoc hreceive, hworld'', hanswered.client,
    ⟨_, Function.update_self ..⟩, fun key' hne => ?_⟩
  exact (Function.update_of_ne hne _ _).trans (hanswered.others key' hne)

theorem round_trip {rpc : Rpc TransferCredentials} {source : RemoteSource TransferCredentials}
    {nonce : Secret} {opcode : Opcode} {payload : List UInt8} {request : Request}
    {result : WireResult Answer} {ls : List Label} (hasks : system.Asks t rpc source)
    (hidle : system.exchanges t = .idle)
    (hencode : rpc.encode nonce source = .ok (opcode, payload))
    (hslot : system.slots ⟨source.client, .carrying opcode⟩ = ⟨none, none⟩)
    (hpayload : payload.length ≤ maxFramePayload)
    (hallowed : server.peerIsAllowed system.world.toView peer = true)
    (hcall : dispatchRequest server 0 0 peer opcode payload = .call request)
    (hrun : Run (Step server) { connected system.world peer with
      calls := (connected system.world peer).calls ++ [⟨request, request.entry⟩] } ls w)
    (hdone : At (system.world.calls.length + 1) request (.done result) w)
    (hresponse : (respond result).length ≤ maxFramePayload) :
    ∃ ls system', Run (SystemStep server) system ls system' ∧ system'.world = w ∧
      system'.client = system.client ∧
      (∃ command, system'.exchanges t = .responded command (respond result)) ∧
      ∀ key, key ≠ ⟨source.client, .carrying opcode⟩ → system'.slots key = system.slots key := by
  obtain ⟨ls', middle, requestId, j, upstream, hissue, hworld, hsent, hwrite⟩ :=
    Sent.of_issue peer hasks hidle hencode hslot hpayload
  rw [← hworld] at hallowed hrun hdone
  obtain ⟨ls'', system', hserve, hrest⟩ := hsent.served hwrite hallowed hcall hrun hdone hresponse
  exact ⟨_, system', hissue.append hserve, hrest⟩

end ClipFerry.Client
