import ClipFerry.Server.SecureConnection
import ClipFerry.Server.Authorization

namespace ClipFerry.Server

open Protocol Protocol.FrameStream Client Foundation Transition

variable {server : ServerState} {w w' : World} {c c' : SecureConnection} {l : Label}
  {ls : List Label} {peer : CertificateFingerprint} {frame : Frame} {opcode : Opcode} {k call : Nat}
  {request : Request} {result : WireResult Answer} {now : Nat}
  {trusted : CertificateFingerprint → Bool}

def Admitted (w : World) (peer : CertificateFingerprint) (k : Nat) : Prop :=
  At k (.connect peer) (.done (.ok .connected)) w

theorem Turn.not_done {view : View} {free : Prop} {us : List Update} {next : Pc}
    (h : Turn server view free request (.done result) us next) : False := by
  cases h

theorem Step.done (h : Step server w l w') (hdone : At k request (.done result) w) :
    At k request (.done result) w' := by
  by_cases hturn : ∃ us, l = .turn k us
  · obtain ⟨us, rfl⟩ := hturn
    obtain ⟨next, hturned, -⟩ := h.turn_cases hdone
    exact hturned.not_done.elim
  · exact h.call_kept hdone fun us hl => hturn ⟨us, hl⟩

theorem Step.made (h : Step server w l w') (hmade : ∃ pc, At call request pc w) :
    ∃ pc, At call request pc w' := by
  obtain ⟨pc, hat⟩ := hmade
  by_cases hturn : ∃ us, l = .turn call us
  · obtain ⟨us, rfl⟩ := hturn
    obtain ⟨next, -, hnext⟩ := h.turn_cases hat
    exact ⟨next, hnext⟩
  · exact ⟨pc, h.call_kept hat fun us hl => hturn ⟨us, hl⟩⟩

theorem Step.invoked (h : Step server w (.invoke request) w') :
    At w.calls.length request request.entry w' := by
  cases h
  exact List.getElem?_concat_length

inductive Dispatched (server : ServerState) (w : World) (peer : CertificateFingerprint)
    (opcode : Opcode) (payload : List UInt8) : List UInt8 → Prop
  | reply {checkedAt readAt : Nat} {response : List UInt8}
      (h : dispatchRequest server checkedAt readAt peer opcode payload = .reply response) :
      Dispatched server w peer opcode payload response
  | call {request : Request} {call : Nat} {result : WireResult Answer}
      (hrequest : ∀ checkedAt readAt,
        dispatchRequest server checkedAt readAt peer opcode payload = .call request)
      (hdone : At call request (.done result) w) :
      Dispatched server w peer opcode payload (respond result)

structure Replied (server : ServerState) (w : World) (peer : CertificateFingerprint)
    (request : Frame × Nat) (reply : Frame) : Prop where
  checked : Admitted w peer request.2
  answered : ∃ opcode response, Opcode.tryFrom request.1.opcode = .ok opcode ∧
    Responded server opcode request.1.payload response ∧
    Dispatched server w peer opcode request.1.payload response ∧
    reply = replyFrame request.1 opcode response

inductive Conversed (server : ServerState) (w : World) (c : SecureConnection)
    (answered : List (Frame × Nat)) (sent : List UInt8) : Prop
  | greeted {peer : CertificateFingerprint} {hello : Frame} {nonce : Secret} {k : Nat}
      {replies : List Frame} (hpeer : c.peer = some peer) (hadmitted : Admitted w peer k)
      (hhello : c.hello = some hello) (hvalid : ValidHello hello)
      (hreply : List.Forall₂ (Replied server w peer) answered replies)
      (hwritten : writeFrames (greetingFrame hello nonce :: replies) = .ok sent)

def Orderly (server : ServerState) (w : World) (c : SecureConnection) : Prop :=
  (c.requests = [] ∧ c.sent = []) ∨ ∃ answered pending unsent,
    c.requests = answered ++ pending ∧ pending.length ≤ 1 ∧
      Conversed server w c answered (c.sent ++ unsent)

structure Unheard (c : SecureConnection) : Prop where
  hello : c.hello = none
  requests : c.requests = []
  sent : c.sent = []

structure Awaited (server : ServerState) (w : World) (c : SecureConnection) (frame : Frame)
    (k : Nat) : Prop where
  earlier : ∃ answered, c.requests = answered ++ [(frame, k)] ∧ Conversed server w c answered c.sent

structure Made (server : ServerState) (w : World) (peer : CertificateFingerprint)
    (frame : Frame) (opcode : Opcode) (call : Nat) : Prop where
  known : Opcode.tryFrom frame.opcode = .ok opcode
  request : ∃ request, (∀ checkedAt readAt,
      dispatchRequest server checkedAt readAt peer opcode frame.payload = .call request) ∧
    ∃ pc, At call request pc w

def Stage (server : ServerState) (w : World) (c : SecureConnection) : ConnectionPc → Prop
  | .handshaking | .unauthenticated => c.peer = none ∧ Unheard c
  | .authenticated => Unheard c
  | .admitting k => Unheard c ∧ ∃ peer, c.peer = some peer ∧ ∃ pc, At k (.connect peer) pc w
  | .greeting => Unheard c ∧ ∃ peer k, c.peer = some peer ∧ Admitted w peer k
  | .greeted hello => c.requests = [] ∧ c.sent = [] ∧ c.hello = some hello ∧ ValidHello hello ∧
      ∃ peer k, c.peer = some peer ∧ Admitted w peer k
  | .waiting => Conversed server w c c.requests c.sent
  | .checking frame k => Awaited server w c frame k
  | .serving frame opcode k call => Awaited server w c frame k ∧
      ∃ peer, c.peer = some peer ∧ Admitted w peer k ∧ Made server w peer frame opcode call
  | .writing frame opcode k response => Awaited server w c frame k ∧
      ∃ peer, c.peer = some peer ∧ Replied server w peer (frame, k) (replyFrame frame opcode response)
  | .failed _ | .leaving _ | .ended _ => Orderly server w c

theorem Dispatched.step (h : Step server w l w') {payload response : List UInt8}
    (hdispatched : Dispatched server w peer opcode payload response) :
    Dispatched server w' peer opcode payload response := by
  cases hdispatched with
  | reply hreply => exact .reply hreply
  | call hrequest hdone => exact .call hrequest (h.done hdone)

theorem Replied.step (h : Step server w l w') {pair : Frame × Nat} {reply : Frame}
    (hreply : Replied server w peer pair reply) : Replied server w' peer pair reply := by
  obtain ⟨opcode, response, hopcode, hresponded, hdispatched, heq⟩ := hreply.answered
  exact ⟨h.done hreply.checked, opcode, response, hopcode, hresponded, hdispatched.step h, heq⟩

theorem Conversed.step (h : Step server w l w') {answered : List (Frame × Nat)} {sent : List UInt8}
    (hconversed : Conversed server w c answered sent) : Conversed server w' c answered sent := by
  obtain ⟨hpeer, hadmitted, hhello, hvalid, hreply, hwritten⟩ := hconversed
  exact .greeted hpeer (h.done hadmitted) hhello hvalid (hreply.imp fun _ _ => Replied.step h) hwritten

theorem Awaited.step (h : Step server w l w') (hawaited : Awaited server w c frame k) :
    Awaited server w' c frame k := by
  obtain ⟨answered, hrequests, hconversed⟩ := hawaited.earlier
  exact ⟨answered, hrequests, hconversed.step h⟩

theorem Made.step (h : Step server w l w') (hmade : Made server w peer frame opcode call) :
    Made server w' peer frame opcode call := by
  obtain ⟨request, hrequest, hat⟩ := hmade.request
  exact ⟨hmade.known, request, hrequest, h.made hat⟩

theorem Orderly.step (h : Step server w l w') (horderly : Orderly server w c) :
    Orderly server w' c := by
  rcases horderly with hsilent | ⟨answered, pending, unsent, hrequests, hone, hconversed⟩
  · exact .inl hsilent
  · exact .inr ⟨answered, pending, unsent, hrequests, hone, hconversed.step h⟩

theorem Stage.step (h : Step server w l w') {pc : ConnectionPc} (hstage : Stage server w c pc) :
    Stage server w' c pc := by
  have hpeer : (∃ peer k, c.peer = some peer ∧ Admitted w peer k) →
      ∃ peer k, c.peer = some peer ∧ Admitted w' peer k := by
    rintro ⟨peer, k, hpeer, hadmitted⟩
    exact ⟨peer, k, hpeer, h.done hadmitted⟩
  cases pc with
  | handshaking | unauthenticated | authenticated => exact hstage
  | admitting k =>
    obtain ⟨hunheard, peer, hpeer, hmade⟩ := hstage
    exact ⟨hunheard, peer, hpeer, h.made hmade⟩
  | greeting => exact ⟨hstage.1, hpeer hstage.2⟩
  | greeted hello =>
    obtain ⟨hrequests, hsent, hhello, hvalid, hadmitted⟩ := hstage
    exact ⟨hrequests, hsent, hhello, hvalid, hpeer hadmitted⟩
  | waiting => exact Conversed.step h hstage
  | checking frame k => exact Awaited.step h hstage
  | serving frame opcode k call =>
    obtain ⟨hawaited, peer, hpeer, hadmitted, hmade⟩ := hstage
    exact ⟨hawaited.step h, peer, hpeer, h.done hadmitted, hmade.step h⟩
  | writing frame opcode k response =>
    obtain ⟨hawaited, peer, hpeer, hreply⟩ := hstage
    exact ⟨hawaited.step h, peer, hpeer, hreply.step h⟩
  | failed | leaving | ended => exact Orderly.step h hstage

theorem Unheard.orderly (h : Unheard c) : Orderly server w c := .inl ⟨h.requests, h.sent⟩

theorem Conversed.orderly (h : Conversed server w c c.requests c.sent) : Orderly server w c := by
  refine .inr ⟨c.requests, [], [], (List.append_nil _).symm, Nat.zero_le 1, ?_⟩
  rwa [List.append_nil]

theorem Awaited.orderly (h : Awaited server w c frame k) : Orderly server w c := by
  obtain ⟨answered, hrequests, hconversed⟩ := h.earlier
  refine .inr ⟨answered, [(frame, k)], [], hrequests, Nat.le_refl 1, ?_⟩
  rwa [List.append_nil]

theorem writeFrames_concat {frames : List Frame} {sent bytes : List UInt8}
    (hframes : writeFrames frames = .ok sent) (hframe : writeFrame frame = .ok bytes) :
    writeFrames (frames ++ [frame]) = .ok (sent ++ bytes) := by
  induction frames generalizing sent with
  | nil =>
    cases hframes
    simp [writeFrames, hframe, Checked.ok_bind]
  | cons first frames ih =>
    obtain ⟨head, later, hhead, hlater, rfl⟩ := writeFrames_cons.mp hframes
    exact writeFrames_cons.mpr ⟨head, later ++ bytes, hhead, ih hlater, (List.append_assoc _ _ _).symm⟩

theorem Conversed.reply {answered : List (Frame × Nat)} {bytes : List UInt8} {reply : Frame}
    (h : Conversed server w c answered c.sent) (hpeer : c.peer = some peer)
    (hreply : Replied server w peer (frame, k) reply) (hwrite : writeFrame reply = .ok bytes) :
    Conversed server w c (answered ++ [(frame, k)]) (c.sent ++ bytes) := by
  obtain ⟨hother, hadmitted, hhello, hvalid, hearlier, hwritten⟩ := h
  obtain rfl := Option.some.inj (hpeer.symm.trans hother)
  exact .greeted hpeer hadmitted hhello hvalid (List.rel_append hearlier (.cons hreply .nil))
    (writeFrames_concat hwritten hwrite)

theorem Conversed.begin {hello : Frame} {nonce : Secret} {bytes : List UInt8}
    (hpeer : c.peer = some peer) (hadmitted : Admitted w peer k) (hhello : c.hello = some hello)
    (hvalid : ValidHello hello) (hwrite : writeFrame (greetingFrame hello nonce) = .ok bytes) :
    Conversed server w c [] bytes := by
  have hwritten : writeFrames [greetingFrame hello nonce] = .ok bytes := by
    simp [writeFrames, hwrite, Checked.ok_bind]
  exact .greeted hpeer hadmitted hhello hvalid .nil hwritten

theorem Conversed.moved {answered : List (Frame × Nat)} {sent : List UInt8}
    (h : Conversed server w c answered sent) (hpeer : c'.peer = c.peer)
    (hhello : c'.hello = c.hello) : Conversed server w c' answered sent := by
  obtain ⟨hfound, hadmitted, hheard, hvalid, hreply, hwritten⟩ := h
  exact .greeted (hpeer.trans hfound) hadmitted (hhello.trans hheard) hvalid hreply hwritten

structure Alike (c c' : SecureConnection) : Prop where
  peer : c'.peer = c.peer
  hello : c'.hello = c.hello
  requests : c'.requests = c.requests
  sent : c'.sent = c.sent

theorem Unheard.same (hsame : Alike c c') (h : Unheard c) : Unheard c' :=
  ⟨hsame.hello.trans h.hello, hsame.requests.trans h.requests, hsame.sent.trans h.sent⟩

theorem Awaited.same (hsame : Alike c c') (h : Awaited server w c frame k) :
    Awaited server w c' frame k := by
  obtain ⟨answered, hrequests, hconversed⟩ := h.earlier
  refine ⟨answered, hsame.requests.trans hrequests, ?_⟩
  rw [hsame.sent]
  exact hconversed.moved hsame.peer hsame.hello

theorem Orderly.same (hsame : Alike c c') (h : Orderly server w c) : Orderly server w c' := by
  rcases h with ⟨hrequests, hsent⟩ | ⟨answered, pending, unsent, hrequests, hone, hconversed⟩
  · exact .inl ⟨hsame.requests.trans hrequests, hsame.sent.trans hsent⟩
  · refine .inr ⟨answered, pending, unsent, hsame.requests.trans hrequests, hone, ?_⟩
    rw [hsame.sent]
    exact hconversed.moved hsame.peer hsame.hello

theorem Stage.same (hsame : Alike c c') {pc : ConnectionPc} (h : Stage server w c pc) :
    Stage server w c' pc := by
  cases pc with
  | handshaking | unauthenticated => exact ⟨hsame.peer.trans h.1, Unheard.same hsame h.2⟩
  | authenticated => exact Unheard.same hsame h
  | admitting k =>
    obtain ⟨hunheard, peer, hpeer, hmade⟩ := h
    exact ⟨hunheard.same hsame, peer, hsame.peer.trans hpeer, hmade⟩
  | greeting =>
    obtain ⟨hunheard, peer, k, hpeer, hadmitted⟩ := h
    exact ⟨hunheard.same hsame, peer, k, hsame.peer.trans hpeer, hadmitted⟩
  | greeted hello =>
    obtain ⟨hrequests, hsent, hhello, hvalid, peer, k, hpeer, hadmitted⟩ := h
    exact ⟨hsame.requests.trans hrequests, hsame.sent.trans hsent, hsame.hello.trans hhello, hvalid,
      peer, k, hsame.peer.trans hpeer, hadmitted⟩
  | waiting =>
    dsimp only [Stage] at h ⊢
    rw [hsame.requests, hsame.sent]
    exact h.moved hsame.peer hsame.hello
  | checking frame k => exact Awaited.same hsame h
  | serving frame opcode k call =>
    obtain ⟨hawaited, peer, hpeer, hmade⟩ := h
    exact ⟨hawaited.same hsame, peer, hsame.peer.trans hpeer, hmade⟩
  | writing frame opcode k response =>
    obtain ⟨hawaited, peer, hpeer, hreply⟩ := h
    exact ⟨hawaited.same hsame, peer, hsame.peer.trans hpeer, hreply⟩
  | failed | leaving | ended => exact Orderly.same hsame h

theorem ConnectionStep.world (h : ConnectionStep server w c w' c') :
    w' = w ∨ ∃ l, Step server w l w' := by
  cases h with
  | check _ _ hinvoke | read _ _ _ hinvoke | dispatch _ _ _ _ _ hinvoke => exact .inr ⟨_, hinvoke⟩
  | arrive | authenticate | refuse | admitted | denied | hello | badHello | greet | ungreeted
  | revoked | unknown | reply | respond | write | unwritten | unwritable | unread | finish =>
    exact .inl rfl

theorem Alike.moved (c : SecureConnection) (upstream : List UInt8) (pc : ConnectionPc) :
    Alike c { c with upstream := upstream, pc := pc } := ⟨rfl, rfl, rfl, rfl⟩

theorem ConnectionStep.stage (hrun : Run (Step server) (.start now trusted) ls w)
    (hstage : Stage server w c c.pc) (h : ConnectionStep server w c w' c') :
    Stage server w' c' c'.pc := by
  have hmove : ∀ {upstream : List UInt8} {pc : ConnectionPc}, Stage server w c pc →
      Stage server w { c with upstream := upstream, pc := pc } pc :=
    fun h => h.same (.moved c _ _)
  cases h with
  | arrive bytes => exact hmove hstage
  | authenticate hpc peer =>
    rw [hpc] at hstage
    exact ⟨hstage.2.hello, hstage.2.requests, hstage.2.sent⟩
  | refuse hpc =>
    rw [hpc] at hstage
    exact @hmove _ .unauthenticated hstage
  | check hpc hpeer hinvoke =>
    rw [hpc] at hstage
    exact ⟨Unheard.same (.moved c c.upstream (.admitting w.calls.length)) hstage, _, hpeer, _,
      hinvoke.invoked⟩
  | @admitted _ k peer hpc hallowed =>
    rw [hpc] at hstage
    obtain ⟨hunheard, other, hpeer, pc, hat⟩ := hstage
    obtain ⟨hsame, -⟩ := Call.mk.inj (Option.some.inj (hallowed.symm.trans hat))
    obtain rfl := Request.connect.inj hsame
    exact @hmove _ .greeting ⟨hunheard, peer, k, hpeer, hallowed⟩
  | denied hpc hdenied =>
    rw [hpc] at hstage
    exact @hmove _ (.failed unauthorizedPeer) hstage.1.orderly
  | hello hpc hread hvalid =>
    rw [hpc] at hstage
    exact ⟨hstage.1.requests, hstage.1.sent, rfl, hvalid, hstage.2⟩
  | badHello hpc hread hinvalid =>
    rw [hpc] at hstage
    exact @hmove _ (.failed invalidHello) hstage.1.orderly
  | @greet _ frame bytes hpc nonce hwrite =>
    rw [hpc] at hstage
    obtain ⟨hrequests, hsent, hhello, hvalid, peer, k, hpeer, hadmitted⟩ := hstage
    have hbegun : Conversed server w c [] bytes := .begin hpeer hadmitted hhello hvalid hwrite
    dsimp only [Stage]
    rw [hrequests, hsent, List.nil_append]
    exact hbegun.moved rfl rfl
  | @ungreeted _ frame bytes hpc nonce hwrite n error =>
    rw [hpc] at hstage
    obtain ⟨hrequests, hsent, hhello, hvalid, peer, k, hpeer, hadmitted⟩ := hstage
    have hbegun : Conversed server w c [] bytes := .begin hpeer hadmitted hhello hvalid hwrite
    refine .inr ⟨[], [], bytes.drop n, hrequests, Nat.zero_le 1, ?_⟩
    dsimp only
    rw [hsent, List.nil_append, List.take_append_drop]
    exact hbegun.moved rfl rfl
  | @read _ _ peer frame rest hpc hpeer hread hinvoke =>
    rw [hpc] at hstage
    exact ⟨c.requests, rfl, (Conversed.step hinvoke hstage).moved rfl rfl⟩
  | @revoked _ k peer frame status hpc hdenied =>
    rw [hpc] at hstage
    exact @hmove _ (.failed revokedPeer) (Awaited.orderly hstage)
  | @unknown _ k peer frame error hpc hallowed hopcode =>
    rw [hpc] at hstage
    exact @hmove _ (.failed error) (Awaited.orderly hstage)
  | @dispatch _ _ k checkedAt readAt peer frame opcode request hpc hpeer hallowed hopcode hcall
      hinvoke =>
    rw [hpc] at hstage
    exact ⟨(Awaited.step hinvoke hstage).same (.moved c _ _), peer, hpeer,
      hinvoke.done hallowed, hopcode, request, dispatchRequest_call hcall, _, hinvoke.invoked⟩
  | @reply _ k checkedAt readAt peer frame opcode response hpc hpeer hallowed hopcode hreply =>
    rw [hpc] at hstage
    exact ⟨Awaited.same (.moved c _ _) hstage, peer, hpeer, hallowed, opcode, response,
      hopcode, dispatchRequest_reply hreply, .reply hreply, rfl⟩
  | @respond _ k call frame opcode request result hpc hdone =>
    rw [hpc] at hstage
    obtain ⟨hawaited, peer, hpeer, hadmitted, hmade⟩ := hstage
    obtain ⟨made, hrequest, pc, hat⟩ := hmade.request
    obtain ⟨rfl, -⟩ := Call.mk.inj (Option.some.inj (hdone.symm.trans hat))
    exact ⟨hawaited.same (.moved c _ _), peer, hpeer, hadmitted, opcode, _, hmade.known,
      responded_of_run hrun (hrequest 0 0) hdone, .call hrequest hdone, rfl⟩
  | @write _ k frame opcode response bytes hpc hwrite =>
    rw [hpc] at hstage
    obtain ⟨hawaited, peer, hpeer, hreply⟩ := hstage
    obtain ⟨answered, hrequests, hconversed⟩ := hawaited.earlier
    have hreplied := hconversed.reply hpeer hreply hwrite
    dsimp only [Stage]
    rw [hrequests]
    exact hreplied.moved rfl rfl
  | @unwritten _ k frame opcode response bytes hpc hwrite n error =>
    rw [hpc] at hstage
    obtain ⟨hawaited, peer, hpeer, hreply⟩ := hstage
    obtain ⟨answered, hrequests, hconversed⟩ := hawaited.earlier
    have hreplied := hconversed.reply hpeer hreply hwrite
    refine .inr ⟨answered ++ [(frame, k)], [], bytes.drop n, ?_, Nat.zero_le 1, ?_⟩
    · rw [List.append_nil]
      exact hrequests
    · dsimp only
      rw [List.append_assoc, List.take_append_drop]
      exact hreplied.moved rfl rfl
  | @unwritable _ k frame opcode response error hpc hwrite =>
    rw [hpc] at hstage
    exact @hmove _ (.failed error) hstage.1.orderly
  | unread hpc error =>
    refine @hmove _ (.failed error) ?_
    rcases hpc with hpc | hpc | hpc
    · rw [hpc] at hstage
      exact Unheard.orderly hstage
    · rw [hpc] at hstage
      exact hstage.1.orderly
    · rw [hpc] at hstage
      exact Conversed.orderly hstage
  | finish hpc hend =>
    rw [hpc] at hstage
    exact @hmove _ (.leaving none) (Conversed.orderly hstage)

def ConnectChecked (server : ServerState) (start : World) (k : Nat) (peer : CertificateFingerprint)
    (ls : List Label) (w : World) : Pc → Prop
  | .authorize | .revoke | .cancelling _ | .done (.error _) => True
  | .done (.ok _) =>
    Past (Step server) start (fun _ w => PassedCheck server k (.connect peer) w) ls w
  | _ => False

theorem ConnectChecked.turn {start : World} {pc next : Pc} {us : List Update}
    (hrun : Run (Step server) start ls w) (hat : At k (.connect peer) pc w)
    (hchecked : ConnectChecked server start k peer ls w pc)
    (hturn : Turn server w.toView w.ServerLockFree (.connect peer) pc us next)
    (hstep : Step server w l w') : ConnectChecked server start k peer (ls ++ [l]) w' next := by
  cases hturn with
  | authorize h =>
    rcases ensurePeerAllowed_cases h with ⟨-, -, rfl⟩ | ⟨hallowed, -, rfl⟩
    · trivial
    · exact Past.extend (.here hrun ⟨hat, hallowed⟩) (.single hstep)
  | revoke | cancelNext | revoked => trivial
  | count | lookup => exact hchecked.elim

section Listener

variable {listener listener' : SecureListener}

structure SecureListener.Staged (server : ServerState) (now : Nat)
    (trusted : CertificateFingerprint → Bool) (listener : SecureListener) : Prop where
  run : ∃ ls, Run (Step server) (.start now trusted) ls listener.world
  stage : ∀ c ∈ listener.connections, Stage server listener.world c c.pc

namespace SecureListener.Staged

theorem same (h : listener.Staged server now trusted) (hworld : listener'.world = listener.world)
    (hconnections : listener'.connections = listener.connections) :
    listener'.Staged server now trusted := by
  constructor
  · rw [hworld]
    exact h.run
  · rw [hworld, hconnections]
    exact h.stage

theorem set {i : Nat} (h : listener.Staged server now trusted)
    (hc : Stage server listener.world c c.pc) :
    (listener.setConnection i c).Staged server now trusted := by
  refine ⟨h.run, ?_⟩
  intro found hfound
  rcases List.mem_or_eq_of_mem_set hfound with hmem | rfl
  · exact h.stage found hmem
  · exact hc

end SecureListener.Staged

theorem ListenerStep.staged (hstaged : listener.Staged server now trusted)
    (h : ListenerStep server listener listener') : listener'.Staged server now trusted := by
  have hstage : ∀ {i : Nat} {c : SecureConnection}, listener.connections[i]? = some c →
      Stage server listener.world c c.pc := fun hc => hstaged.stage _ (List.mem_of_getElem? hc)
  obtain ⟨ls, hrun⟩ := hstaged.run
  cases h with
  | world hl h =>
    exact ⟨⟨_, hrun.snoc h⟩, fun c hc => (hstaged.stage c hc).step h⟩
  | @connection i c c' w hc h =>
    have hmoved := h.stage hrun (hstage hc)
    rcases h.world with rfl | ⟨l, hstep⟩
    · exact hstaged.set hmoved
    · refine ⟨⟨_, hrun.snoc hstep⟩, fun found hfound => ?_⟩
      rcases List.mem_or_eq_of_mem_set hfound with hmem | rfl
      · exact (hstaged.stage found hmem).step hstep
      · exact hmoved
  | @note i c error hc hpc =>
    have horderly := hstage hc
    rw [hpc] at horderly
    have hleft := Orderly.same (.moved c c.upstream (.leaving (some error))) horderly
    exact (hstaged.set (c := { c with pc := .leaving (some error) }) hleft).same rfl rfl
  | @noteTls i c hc hpc =>
    have hunheard := hstage hc
    rw [hpc] at hunheard
    have hleft := Orderly.same (.moved c c.upstream (.leaving none))
      (hunheard.2.orderly : Orderly server listener.world c)
    exact (hstaged.set (c := { c with pc := .leaving none }) hleft).same rfl rfl
  | @drop i c failure hc hpc =>
    have horderly := hstage hc
    rw [hpc] at horderly
    have hended := Orderly.same (.moved c c.upstream (.ended failure)) horderly
    exact (hstaged.set (c := { c with pc := .ended failure }) hended).same rfl rfl
  | askStop | listen | stopped | nobody | broken | accept | claim | release | refuse
  | unspawned => exact hstaged.same rfl rfl
  | spawn hpc hfree =>
    refine ⟨⟨ls, hrun⟩, fun c hc => ?_⟩
    rcases List.mem_append.mp hc with hmem | hlast
    · exact hstaged.stage c hmem
    · obtain rfl := List.mem_singleton.mp hlast
      exact ⟨rfl, rfl, rfl, rfl⟩

theorem staged_of_run
    (h : Relation.ReflTransGen (ListenerStep server) (.start now trusted) listener) :
    listener.Staged server now trusted := by
  induction h with
  | refl => exact ⟨⟨[], .nil⟩, fun c hc => by cases hc⟩
  | tail _ last ih => exact last.staged ih

theorem Stage.orderly {pc : ConnectionPc} (h : Stage server w c pc) : Orderly server w c := by
  cases pc with
  | handshaking | unauthenticated => exact h.2.orderly
  | authenticated => exact Unheard.orderly h
  | admitting | greeting => exact h.1.orderly
  | greeted hello => exact .inl ⟨h.1, h.2.1⟩
  | waiting => exact Conversed.orderly h
  | checking => exact Awaited.orderly h
  | serving | writing => exact h.1.orderly
  | failed | leaving | ended => exact h

end Listener

def soloHello : Frame := ⟨Opcode.hello.code, 1, helloRoleReceiver :: (repeatedSecret 9).val⟩

def soloGreeting : List UInt8 :=
  ((writeFrame (greetingFrame soloHello (repeatedSecret 8))).toOption).getD []

def soloWaiting : SecureListener where
  world := { soloStart with calls := [⟨.connect soloPeer, .done (.ok .connected)⟩] }
  connections := [⟨some soloPeer, [], soloGreeting, .waiting, some soloHello, []⟩]
  accepting := .top
  stop := false
  workers := 1
  acceptedConnections := 1
  protocolErrors := 0
  tlsFailures := 0
  refused := 0
  unstarted := 0
  acceptErrors := 0

theorem solo_waiting :
    Relation.ReflTransGen (ListenerStep soloServer) (.start 0 fun _ => true) soloWaiting := by
  have hstarted := Relation.ReflTransGen.refl (r := ListenerStep soloServer)
    (a := .start 0 fun _ => true)
  have haccepted := (((hstarted.tail (.listen rfl rfl)).tail (.accept rfl)).tail (.claim rfl)).tail
    (.spawn rfl (by decide))
  have harrived := haccepted.tail
    (.connection (i := 0) rfl (.arrive (((writeFrame soloHello).toOption).getD [])))
  have hchecking := (harrived.tail (.connection (i := 0) rfl (.authenticate rfl soloPeer))).tail
    (.connection (i := 0) rfl (.check rfl rfl (.invoke (.connect soloPeer))))
  have hadmitted := (hchecking.tail (.world (fun _ h => by cases h)
    (.turn (k := 0) rfl (.authorize rfl)))).tail (.connection (i := 0) rfl (.admitted rfl rfl))
  have hheard := hadmitted.tail (.connection (i := 0) rfl
    (.hello rfl (show _ = Except.ok (soloHello, []) from rfl) (by decide)))
  exact hheard.tail (.connection (i := 0) rfl (.greet rfl (repeatedSecret 8) rfl))

end ClipFerry.Server
