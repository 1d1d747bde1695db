import ClipFerry.Loopback.PeakLaw

namespace ClipFerry.Loopback

open Server Transition VirtualTree

variable {config : LoopbackServerConfig} {choice : Choice} {shared shared' : Shared}
  {worker worker' : Worker} {request request' : RequestHeader} {world world' : World}
  {event : Event} {events later : List Event} {input output : List UInt8} {stage : Stage}

def Stage.BeforeWait : Stage → Prop
  | reading | commanding _ | admitting _ | entering _ | entered _ _ => True
  | waiting _ wait => wait ≠ .throttled
  | responding _ _ _ _ | writing _ _ | streaming _ _ _ | noting _ _ | covering _ _ | tallying _ _
  | calling _ _ | leaving _ | ended _ | releasing _ | gone _ => False

def refusal (config : LoopbackServerConfig) (request : RequestHeader) : ResponseHeader :=
  ⟨.cancelled, .cancelled, request.requestId, config.length, 0⟩

def Stage.Barred (config : LoopbackServerConfig) (request : RequestHeader) (output : List UInt8) :
    Stage → Prop
  | reading | commanding _ | admitting _ | entering _ | entered _ _ => True
  | waiting _ wait => wait ≠ .throttled
  | responding status requestId payloadLength _ =>
    status = .cancelled ∧ requestId = request.requestId ∧ payloadLength = 0
  | writing response _ => response = refusal config request
  | streaming _ _ _ | noting _ _ | covering _ _ | tallying _ _ | calling _ _ => False
  | leaving succeeded | ended succeeded | releasing succeeded | gone succeeded =>
    output <+: (refusal config request).encode ∧
      (succeeded = true → output = (refusal config request).encode)

def Worker.Barred (config : LoopbackServerConfig) (worker : Worker) : Prop :=
  ∀ request, Ranged config worker.input request → worker.stage.Barred config request worker.output

theorem Ranged.eq (h : Ranged config input request) (h' : Ranged config input request') :
    request = request' :=
  Option.some.inj (h.1.1.symm.trans h'.1.1)

theorem Ranged.handled (h : Ranged config input request) :
    handleConnection config (input.take requestHeaderLen) = .admitting request := by
  obtain ⟨⟨hdecode, hfile⟩, hopcode, hfits⟩ := h
  rw [handleConnection, hdecode]
  dsimp only
  rw [if_neg (not_not.mpr hfile), hopcode]
  dsimp only
  rw [serveRange, if_neg (Nat.not_lt.mpr hfits)]

theorem Stage.BeforeWait.barred (h : stage.BeforeWait) : stage.Barred config request output := by
  cases stage with
  | waiting request wait => exact h
  | reading | commanding request | admitting request | entering request | entered request current =>
    exact trivial
  | responding | writing | streaming | noting | covering | tallying | calling | leaving | ended
  | releasing | gone => exact h.elim

theorem Stage.Barred.output_front (h : stage.Barred config request output)
    (hs : stage.Sound config input output) : output <+: (refusal config request).encode := by
  cases stage with
  | reading =>
    obtain rfl : output = [] := hs
    exact List.nil_prefix
  | commanding other | admitting other | entering other | entered other current | waiting other wait
  | responding status requestId length active | writing response active =>
    rw [hs.1]
    exact List.nil_prefix
  | streaming | noting | covering | tallying | calling => exact h.elim
  | leaving | ended | releasing | gone => exact h.1

theorem WorkerStep.barred (h : WorkerStep config choice shared worker shared' worker')
    (hcancelled : shared.control.state = .cancelled) (hs : worker.Sound config)
    (hb : worker.Barred config) : worker'.Barred config := by
  intro request hranged
  rw [h.input_eq] at hranged
  have hbarred := hb request hranged
  cases h with
  | @unread input output =>
    obtain rfl : output = [] := hs
    have hnone : [] <+: (refusal config request).encode := List.nil_prefix
    exact ⟨hnone, fun h => by cases h⟩
  | read =>
    rw [hranged.handled]
    exact trivial
  | command =>
    obtain ⟨-, hreceived, hother⟩ := hs
    obtain rfl := Option.some.inj (hreceived.1.symm.trans hranged.1.1)
    exact absurd hranged.2.1 hother
  | grant => exact trivial
  | enter => exact trivial
  | raise => exact fun h => by cases h
  | sleep hlook =>
    rw [hcancelled] at hlook
    cases hlook
  | timeout => exact absurd rfl hbarred
  | proceed hstate =>
    rw [hcancelled] at hstate
    cases hstate
  | cancel hstate => exact ⟨rfl, congrArg RequestHeader.requestId (hs.2.eq hranged), rfl⟩
  | respond =>
    obtain ⟨rfl, rfl, rfl⟩ := hbarred
    rw [Loopback.respond, hcancelled]
    rfl
  | @write input output response active =>
    obtain rfl : response = refusal config request := hbarred
    obtain ⟨rfl, -⟩ := hs
    rcases afterHeader_cases (refusal config request) active with ⟨-, hstage⟩ |
      ⟨other, rfl, hstage⟩ | ⟨other, -, hstage⟩
    · rw [hstage]
      exact ⟨List.prefix_refl _, fun _ => rfl⟩
    · cases hstage
    · rw [hstage]
      exact ⟨List.prefix_refl _, fun _ => rfl⟩
  | @writeFailed input output written response active hpart =>
    obtain rfl : response = refusal config request := hbarred
    obtain ⟨rfl, -⟩ := hs
    cases active <;> exact ⟨hpart, fun h => by cases h⟩
  | stream | streamFailed | streamed | note | cover | tally | call => exact hbarred.elim
  | leave => exact hbarred
  | finish => exact hbarred
  | fail => exact hbarred
  | release => exact hbarred

theorem WorkerStep.cancelled (h : WorkerStep config choice shared worker shared' worker')
    (hcancelled : shared.control.state = .cancelled) : shared'.control.state = .cancelled := by
  cases h with
  | @command _ _ request =>
    simp only [Shared.command, hcancelled]
    cases request.opcode <;> rfl
  | raise =>
    rw [raiseMaximum_eq]
    exact hcancelled
  | fail => exact hcancelled
  | _ => exact hcancelled

theorem AcceptorStep.cancelled (h : AcceptorStep config world world')
    (hcancelled : world.shared.control.state = .cancelled) :
    world'.shared.control.state = .cancelled := by
  cases h <;> exact hcancelled

theorem WorldStep.cancelled (hcancelled : world.shared.control.state = .cancelled)
    (h : WorldStep config world event world') : world'.shared.control.state = .cancelled := by
  rcases worldStep_cases h with hacceptor | ⟨opcode, -, rfl⟩ | ⟨-, rfl⟩ |
    ⟨index, choice, worker, shared', worker', -, hworker, hstep, rfl⟩
  · exact hacceptor.cancelled hcancelled
  · simp only [Shared.command, hcancelled]
    cases opcode <;> rfl
  · exact hcancelled
  · exact hstep.cancelled hcancelled

def TurnedAway (config : LoopbackServerConfig) (chosen : Nat → Prop) (world : World) : Prop :=
  ∀ (index : Nat) (worker : Worker), chosen index → world.workers[index]? = some worker → worker.Barred config

theorem WorldStep.turnedAway {chosen : Nat → Prop} (hs : world.Sound config)
    (hcancelled : world.shared.control.state = .cancelled) (ht : TurnedAway config chosen world)
    (h : WorldStep config world event world') : TurnedAway config chosen world' := by
  rcases WorldStep.reading_cases h with ⟨-, hsame | ⟨input, hmore⟩⟩ |
    ⟨index, choice, worker, shared', worker', hworker, hstep, rfl⟩
  · intro other worker hchosen hother
    exact ht other worker hchosen (hsame ▸ hother)
  · intro other worker hchosen hother
    rw [hmore] at hother
    rcases Nat.lt_or_ge other world.workers.length with hlt | hge
    · rw [List.getElem?_append_left hlt] at hother
      exact ht other worker hchosen hother
    · have hnew := List.mem_of_getElem? hother
      rw [List.getElem?_append_right hge, List.getElem?_singleton] at hother
      split at hother
      · obtain rfl := Option.some.inj hother
        exact fun _ _ => trivial
      · cases hother
  · intro other worker'' hchosen hother
    by_cases hindex : index = other
    · subst hindex
      rw [List.getElem?_set_self (List.getElem?_eq_some_iff.mp hworker).1] at hother
      obtain rfl := Option.some.inj hother
      exact hstep.barred hcancelled (hs worker (List.mem_of_getElem? hworker))
        (ht index worker hchosen hworker)
    · rw [List.getElem?_set_ne hindex] at hother
      exact ht other worker'' hchosen hother

theorem loopback_cancel_is_final (hrun : Run (WorldStep config) .start events world)
    (hcancelled : world.shared.control.state = .cancelled)
    (hlater : Run (WorldStep config) world later world') :
    world'.shared.control.state = .cancelled ∧
    ∀ (index : Nat) (worker' : Worker), world'.workers[index]? = some worker' →
      (∀ worker, world.workers[index]? = some worker → worker.stage.BeforeWait) →
      ∀ request, Ranged config worker'.input request →
        worker'.output <+: (refusal config request).encode ∧
        (worker'.stage = .gone true → worker'.output = (refusal config request).encode) := by
  have hkept := hlater.invariant
    (I := fun later => (later.Sound config ∧ later.shared.control.state = .cancelled) ∧
      TurnedAway config (fun index => ∀ worker, world.workers[index]? = some worker →
        worker.stage.BeforeWait) later)
    (fun hs hstep => ⟨⟨WorldStep.sound hs.1.1 hstep, WorldStep.cancelled hs.1.2 hstep⟩,
      WorldStep.turnedAway hs.1.1 hs.1.2 hs.2 hstep⟩)
    ⟨⟨world_sound hrun, hcancelled⟩, fun index worker hchosen hworker _ _ =>
      (hchosen worker hworker).barred⟩
  refine ⟨hkept.1.2, fun index worker' hworker' hchosen request hranged => ?_⟩
  have hsound := hkept.1.1 worker' (List.mem_of_getElem? hworker')
  have hbarred := hkept.2 index worker' hchosen hworker' request hranged
  exact ⟨hbarred.output_front hsound, fun hgone => (hgone ▸ hbarred : Stage.Barred config request
    worker'.output (.gone true)).2 rfl⟩

def lateStart : World := (World.next soloConfig .start (.owner .cancel)).getD .start

def lateEvents : List Event :=
  [.accept, .tryStart, .spawn soloRequest.encode] ++ List.replicate 10 (.worker 0 .go)

def lateWorld : World := (lateEvents.foldlM (World.next soloConfig) lateStart).getD .start

def lateWorker : Worker where
  input := soloRequest.encode
  output := (refusal soloConfig soloRequest).encode
  stage := .gone true

theorem loopback_cancel_is_final_late : lateWorld.shared.control.state = .cancelled ∧
    lateWorker.output = (refusal soloConfig soloRequest).encode := by
  have hbefore : Run (WorldStep soloConfig) .start [.owner .cancel] lateStart := .single rfl
  have hafter : Run (WorldStep soloConfig) lateStart lateEvents lateWorld :=
    World.run_of_foldlM rfl
  have hranged : Ranged soloConfig lateWorker.input soloRequest :=
    ⟨⟨decode_encoded soloRequest, rfl⟩, rfl, by decide⟩
  have hfinal := loopback_cancel_is_final hbefore rfl hafter
  exact ⟨hfinal.1, (hfinal.2 0 lateWorker rfl (fun _ h => by cases h) soloRequest hranged).2 rfl⟩

end ClipFerry.Loopback
