import ClipFerry.Loopback.Server
import ClipFerry.Foundation.Checked

namespace ClipFerry.Loopback

open Checked Server Transition VirtualTree

variable {config : LoopbackServerConfig} {choice : Choice} {shared shared' : Shared}
  {worker worker' : Worker} {request : RequestHeader} {stage : Stage}

inductive WorkerStep (config : LoopbackServerConfig) (choice : Choice) (shared : Shared) :
    Worker → Shared → Worker → Prop
  | unread {input output : List UInt8} :
      WorkerStep config choice shared ⟨input, output, .reading⟩ shared ⟨input, output, .ended false⟩
  | read {input output : List UInt8} (hwhole : requestHeaderLen ≤ input.length) :
      WorkerStep config choice shared ⟨input, output, .reading⟩ shared
        ⟨input, output, handleConnection config (input.take requestHeaderLen)⟩
  | command {input output : List UInt8} {request : RequestHeader} :
      WorkerStep config choice shared ⟨input, output, .commanding request⟩
        (shared.command request.opcode.change)
        ⟨input, output, .responding .ok request.requestId 0 none⟩
  | grant {input output : List UInt8} {request : RequestHeader} :
      WorkerStep config choice shared ⟨input, output, .admitting request⟩ shared.noteRequest
        ⟨input, output, .entering request⟩
  | enter {input output : List UInt8} {request : RequestHeader} :
      WorkerStep config choice shared ⟨input, output, .entering request⟩ shared.enterRead
        ⟨input, output, .entered request (shared.metrics.activeReads + 1)⟩
  | raise {input output : List UInt8} {request : RequestHeader} {current : UInt64} :
      WorkerStep config choice shared ⟨input, output, .entered request current⟩
        (shared.raiseMaximum current) ⟨input, output, .waiting request .entering⟩
  | sleep {input output : List UInt8} {request : RequestHeader} {wait wait' : Wait}
      (hlook : Wait.look config.rangeDelay shared.control.state = .sleeps wait') :
      WorkerStep config choice shared ⟨input, output, .waiting request wait⟩ shared
        ⟨input, output, .waiting request wait'⟩
  | timeout {input output : List UInt8} {request : RequestHeader} :
      WorkerStep config choice shared ⟨input, output, .waiting request .throttled⟩ shared
        ⟨input, output, .responding .ok request.requestId (payloadLength config request)
          (some request)⟩
  | proceed {input output : List UInt8} {request : RequestHeader} {wait : Wait}
      (hstate : shared.control.state = .running) :
      WorkerStep config choice shared ⟨input, output, .waiting request wait⟩ shared
        ⟨input, output, .responding .ok request.requestId (payloadLength config request)
          (some request)⟩
  | cancel {input output : List UInt8} {request : RequestHeader} {wait : Wait}
      (hstate : shared.control.state = .cancelled) :
      WorkerStep config choice shared ⟨input, output, .waiting request wait⟩ shared
        ⟨input, output, .responding .cancelled request.requestId 0 (some request)⟩
  | respond {input output : List UInt8} {status : ResponseStatus} {requestId : UInt64}
      {payloadLength : UInt32} {active : Option RequestHeader} :
      WorkerStep config choice shared
        ⟨input, output, .responding status requestId payloadLength active⟩ shared
        ⟨input, output,
          .writing (respond config shared.control status requestId payloadLength) active⟩
  | write {input output : List UInt8} {response : ResponseHeader} {active : Option RequestHeader} :
      WorkerStep config choice shared ⟨input, output, .writing response active⟩ shared
        ⟨input, output ++ response.encode, afterHeader response active⟩
  | writeFailed {input output written : List UInt8} {response : ResponseHeader}
      {active : Option RequestHeader} (hpart : written <+: response.encode) :
      WorkerStep config choice shared ⟨input, output, .writing response active⟩ shared
        ⟨input, output ++ written, failure active⟩
  | stream {input output : List UInt8} {request : RequestHeader} {payloadLength written : Nat}
      (hmore : written < payloadLength) :
      WorkerStep config choice shared ⟨input, output, .streaming request payloadLength written⟩
        shared ⟨input, output ++ fragment config request payloadLength written,
          .streaming request payloadLength (written + fragmentLength config payloadLength written)⟩
  | streamFailed {input output part : List UInt8} {request : RequestHeader}
      {payloadLength written : Nat} (hmore : written < payloadLength)
      (hpart : part <+: fragment config request payloadLength written) :
      WorkerStep config choice shared ⟨input, output, .streaming request payloadLength written⟩
        shared ⟨input, output ++ part, .leaving false⟩
  | streamed {input output : List UInt8} {request : RequestHeader} {payloadLength written : Nat}
      (hdone : payloadLength ≤ written) :
      WorkerStep config choice shared ⟨input, output, .streaming request payloadLength written⟩
        shared ⟨input, output, .noting request payloadLength⟩
  | note {input output : List UInt8} {request : RequestHeader} {payloadLength : Nat} :
      WorkerStep config choice shared ⟨input, output, .noting request payloadLength⟩
        (shared.noteServed payloadLength) ⟨input, output, .covering request payloadLength⟩
  | cover {input output : List UInt8} {request : RequestHeader} {payloadLength : Nat} :
      WorkerStep config choice shared ⟨input, output, .covering request payloadLength⟩
        (shared.noteCovered request.offset payloadLength)
        ⟨input, output, .tallying request payloadLength⟩
  | tally {input output : List UInt8} {request : RequestHeader} {payloadLength : Nat} :
      WorkerStep config choice shared ⟨input, output, .tallying request payloadLength⟩
        (shared.noteChunkBytes payloadLength) ⟨input, output, .calling request payloadLength⟩
  | call {input output : List UInt8} {request : RequestHeader} {payloadLength : Nat} :
      WorkerStep config choice shared ⟨input, output, .calling request payloadLength⟩
        shared.noteChunkCall ⟨input, output, .leaving true⟩
  | leave {input output : List UInt8} {succeeded : Bool} :
      WorkerStep config choice shared ⟨input, output, .leaving succeeded⟩ shared.leaveRead
        ⟨input, output, .ended succeeded⟩
  | finish {input output : List UInt8} :
      WorkerStep config choice shared ⟨input, output, .ended true⟩ shared
        ⟨input, output, .releasing true⟩
  | fail {input output : List UInt8} :
      WorkerStep config choice shared ⟨input, output, .ended false⟩ shared.noteError
        ⟨input, output, .releasing false⟩
  | release {input output : List UInt8} {succeeded : Bool} :
      WorkerStep config choice shared ⟨input, output, .releasing succeeded⟩ shared.dropSlot
        ⟨input, output, .gone succeeded⟩

theorem Choice.accepts_part (bytes : List UInt8) (choice : Choice) :
    choice.accepts bytes <+: bytes := by
  cases choice with
  | go | timedOut => exact List.prefix_refl bytes
  | fault written => exact List.take_prefix written bytes

theorem Choice.accepts_all (bytes : List UInt8) (h : choice.isFault = false) :
    choice.accepts bytes = bytes := by
  cases choice with
  | go | timedOut => rfl
  | fault written => cases h

theorem waitStatus_cancelled : waitStatus .cancelled = .cancelled := if_pos rfl

theorem Worker.advance_waiting {input output : List UInt8} {wait : Wait}
    (h : Worker.advance config choice shared ⟨input, output, .waiting request wait⟩ =
      some (shared', worker')) :
    WorkerStep config choice shared ⟨input, output, .waiting request wait⟩ shared' worker' := by
  dsimp only [advance] at h
  rcases Wait.waitForChunk_cases config.rangeDelay (choice = .timedOut) shared.control.state wait with
    ⟨rfl, -, hout⟩ | hlook
  · rw [hout] at h
    cases h
    exact .timeout
  · rw [hlook] at h
    cases houtcome : Wait.look config.rangeDelay shared.control.state with
    | sleeps wait' =>
      rw [houtcome] at h
      cases h
      exact .sleep houtcome
    | returns result =>
      rw [houtcome] at h
      rcases Wait.look_returns houtcome with ⟨hstate, rfl⟩ | ⟨hstate, -, rfl⟩
      · cases h
        rw [waitStatus_cancelled]
        exact .cancel hstate
      · cases h
        exact .proceed hstate

theorem Worker.advance_step (h : worker.advance config choice shared = some (shared', worker')) :
    WorkerStep config choice shared worker shared' worker' := by
  obtain ⟨input, output, stage⟩ := worker
  cases stage with
  | reading =>
    dsimp only [advance] at h
    split at h
    · cases h
      exact .unread
    · next hwhole =>
      cases h
      exact .read (Nat.not_lt.mp (not_or.mp hwhole).2)
  | waiting request wait => exact advance_waiting h
  | writing response active =>
    dsimp only [advance] at h
    cases hfault : choice.isFault with
    | true =>
      rw [hfault] at h
      cases h
      exact .writeFailed (choice.accepts_part _)
    | false =>
      rw [hfault, choice.accepts_all _ hfault] at h
      cases h
      exact .write
  | streaming request payloadLength written =>
    dsimp only [advance] at h
    split at h
    · next hmore =>
      cases hfault : choice.isFault with
      | true =>
        rw [hfault] at h
        cases h
        exact .streamFailed hmore (choice.accepts_part _)
      | false =>
        rw [hfault, choice.accepts_all _ hfault] at h
        cases h
        exact .stream hmore
    · next hdone =>
      cases h
      exact .streamed (Nat.not_lt.mp hdone)
  | ended succeeded =>
    cases succeeded with
    | true =>
      cases h
      exact .finish
    | false =>
      cases h
      exact .fail
  | commanding request =>
    cases h
    exact .command
  | admitting request =>
    cases h
    exact .grant
  | entering request =>
    cases h
    exact .enter
  | entered request current =>
    cases h
    exact .raise
  | responding status requestId payloadLength active =>
    cases h
    exact .respond
  | noting request payloadLength =>
    cases h
    exact .note
  | covering request payloadLength =>
    cases h
    exact .cover
  | tallying request payloadLength =>
    cases h
    exact .tally
  | calling request payloadLength =>
    cases h
    exact .call
  | leaving succeeded =>
    cases h
    exact .leave
  | releasing succeeded =>
    cases h
    exact .release
  | gone succeeded => cases h

theorem WorkerStep.input_eq (h : WorkerStep config choice shared worker shared' worker') :
    worker'.input = worker.input := by
  cases h <;> rfl

inductive AcceptorStep (config : LoopbackServerConfig) : World → World → Prop
  | accept {world : World} (hlistening : world.acceptor = .listening) :
      AcceptorStep config world
        { world with acceptor := .connected, shared := world.shared.noteConnection }
  | close {world : World} (hlistening : world.acceptor = .listening) :
      AcceptorStep config world { world with acceptor := .stopped }
  | refused {world : World} (hconnected : world.acceptor = .connected) :
      AcceptorStep config world { world with acceptor := .refusing }
  | started {world : World} (hconnected : world.acceptor = .connected)
      (hroom : world.shared.active < config.maxWorkers) :
      AcceptorStep config world
        { world with acceptor := .starting, shared := world.shared.takeSlot }
  | refuse {world : World} (hrefusing : world.acceptor = .refusing) :
      AcceptorStep config world
        { world with acceptor := .listening, shared := world.shared.noteError }
  | spawn {world : World} (input : List UInt8) (hstarting : world.acceptor = .starting) :
      AcceptorStep config world
        { world with acceptor := .listening, workers := world.workers ++ [.start input] }
  | spawnFailed {world : World} (hstarting : world.acceptor = .starting) :
      AcceptorStep config world
        { world with acceptor := .abandoning, shared := world.shared.dropSlot }
  | abandon {world : World} (habandoning : world.acceptor = .abandoning) :
      AcceptorStep config world
        { world with acceptor := .listening, shared := world.shared.noteError }

variable {world world' : World} {event : Event}

theorem worldStep_cases (h : WorldStep config world event world') :
    AcceptorStep config world world' ∨
    (∃ opcode, event = .owner opcode ∧
      world' = { world with shared := world.shared.command opcode.change }) ∨
    (event = .stop ∧ world' = { world with stop := true }) ∨
    ∃ index choice worker shared' worker', event = .worker index choice ∧
      world.workers[index]? = some worker ∧
      WorkerStep config choice world.shared worker shared' worker' ∧
      world' = { world with shared := shared', workers := world.workers.set index worker' } := by
  cases event with
  | accept =>
    simp only [WorldStep, World.next] at h
    split at h
    · next hlistening =>
      split at h
      · cases h
        exact .inl (.close hlistening)
      · cases h
        exact .inl (.accept hlistening)
    · cases h
  | tryStart =>
    simp only [WorldStep, World.next] at h
    split at h
    · next hconnected =>
      split at h
      · cases h
        exact .inl (.refused hconnected)
      · next hroom =>
        cases h
        exact .inl (.started hconnected (Nat.not_le.mp hroom))
    · cases h
  | refuse =>
    simp only [WorldStep, World.next] at h
    split at h
    · next hrefusing =>
      cases h
      exact .inl (.refuse hrefusing)
    · cases h
  | spawn input =>
    simp only [WorldStep, World.next] at h
    split at h
    · next hstarting =>
      cases h
      exact .inl (.spawn input hstarting)
    · cases h
  | spawnFailed =>
    simp only [WorldStep, World.next] at h
    split at h
    · next hstarting =>
      cases h
      exact .inl (.spawnFailed hstarting)
    · cases h
  | abandon =>
    simp only [WorldStep, World.next] at h
    split at h
    · next habandoning =>
      cases h
      exact .inl (.abandon habandoning)
    · cases h
  | owner opcode =>
    cases h
    exact .inr (.inl ⟨opcode, rfl, rfl⟩)
  | stop =>
    cases h
    exact .inr (.inr (.inl ⟨rfl, rfl⟩))
  | worker index choice =>
    obtain ⟨worker, hworker, h⟩ := Option.bind_eq_some_iff.mp h
    obtain ⟨⟨shared', worker'⟩, hadvance, h⟩ := Option.bind_eq_some_iff.mp h
    cases h
    exact .inr (.inr (.inr ⟨index, choice, worker, shared', worker', rfl, hworker,
      Worker.advance_step hadvance, rfl⟩))

theorem World.run_of_foldlM {events : List Event}
    (h : events.foldlM (World.next config) world = some world') :
    Run (WorldStep config) world events world' := by
  induction events using List.reverseRecOn generalizing world' with
  | nil =>
    cases h
    exact .nil
  | append_singleton events event ih =>
    rw [List.foldlM_append, Option.bind_eq_bind, Option.bind_eq_some_iff] at h
    obtain ⟨between, hbefore, hlast⟩ := h
    rw [List.foldlM_cons, Option.bind_eq_bind, Option.bind_eq_some_iff] at hlast
    obtain ⟨after, hstep, hafter⟩ := hlast
    cases hafter
    exact .snoc (ih hbefore) hstep

end ClipFerry.Loopback
