import ClipFerry.Foundation.Crowd
import ClipFerry.Loopback.Answers

namespace ClipFerry.Loopback

open Foundation Server Transition VirtualTree

variable {config : LoopbackServerConfig} {choice : Choice} {shared shared' : Shared}
  {worker worker' : Worker} {request : RequestHeader} {world world' : World} {event : Event}
  {events : List Event} {index : Nat}

namespace Worker

def live (worker : Worker) : Nat :=
  match worker.stage with
  | .gone _ => 0
  | _ => 1

def unfailed (worker : Worker) : Nat :=
  match worker.stage with
  | .releasing false | .gone false => 0
  | _ => 1

def inRead (worker : Worker) : Nat :=
  match worker.stage with
  | .entered _ _ | .waiting _ _ | .responding _ _ _ (some _) | .writing _ (some _)
  | .streaming _ _ _ | .noting _ _ | .covering _ _ | .tallying _ _ | .calling _ _
  | .leaving _ => 1
  | _ => 0

def delivered (worker : Worker) : Nat := worker.output.length - responseHeaderLen

def served (worker : Worker) : Nat :=
  match worker.stage with
  | .covering _ length | .tallying _ length | .calling _ length => length
  | .leaving true | .ended true | .releasing true | .gone true => worker.delivered
  | _ => 0

def tallied (worker : Worker) : Nat :=
  match worker.stage with
  | .calling _ length => length
  | .leaving true | .ended true | .releasing true | .gone true => worker.delivered
  | _ => 0

def asked (worker : Worker) : Nat :=
  ((RequestHeader.decode (worker.input.take requestHeaderLen)).map (·.offset.toNat)).getD 0

def covered (worker : Worker) : Finset Nat :=
  match worker.stage with
  | .tallying _ length | .calling _ length => Finset.Ico worker.asked (worker.asked + length)
  | .leaving true | .ended true | .releasing true | .gone true =>
    Finset.Ico worker.asked (worker.asked + worker.delivered)
  | _ => ∅

end Worker

def Acceptor.slots : Acceptor → Nat
  | starting => 1
  | _ => 0

def Acceptor.owed : Acceptor → Nat
  | listening | stopped => 0
  | _ => 1

structure Account (config : LoopbackServerConfig) (world : World) : Prop where
  slots : world.shared.active = crowdWeight Worker.live world.workers + world.acceptor.slots
  room : world.shared.active ≤ config.maxWorkers
  reads : world.shared.metrics.activeReads = .ofNat (crowdWeight Worker.inRead world.workers)
  connections : world.shared.metrics.connections = world.shared.metrics.protocolErrors +
    .ofNat (crowdWeight Worker.unfailed world.workers + world.acceptor.owed)
  served : world.shared.metrics.servedBytes = .ofNat (crowdWeight Worker.served world.workers)
  tallied : world.shared.control.bytesServed = .ofNat (crowdWeight Worker.tallied world.workers)
  covered : world.shared.metrics.coverage.Tracks (Tally.union Worker.covered world.workers)

theorem Account.start (config : LoopbackServerConfig) : Account config .start where
  slots := rfl
  room := Nat.zero_le _
  reads := rfl
  connections := rfl
  served := rfl
  tallied := rfl
  covered := RangeCoverage.empty_tracks

theorem Worker.start_weights (input : List UInt8) : (start input).live = 1 ∧
    (start input).unfailed = 1 ∧ (start input).inRead = 0 ∧ (start input).served = 0 ∧
    (start input).tallied = 0 ∧ (start input).covered = ∅ := ⟨rfl, rfl, rfl, rfl, rfl, rfl⟩

theorem noteError_balance {connections errors : UInt64} {total : Nat}
    (h : connections = errors + .ofNat (total + 1)) : connections = errors + 1 + .ofNat total := by
  rw [h, UInt64.ofNat_add, UInt64.add_comm (.ofNat total), ← UInt64.add_assoc]
  rfl

theorem AcceptorStep.account (h : AcceptorStep config world world') (ha : Account config world) :
    Account config world' := by
  obtain ⟨hslots, hroom, hreads, hconnections, hserved, htallied, hcovered⟩ := ha
  cases h with
  | accept hlistening =>
    rw [hlistening] at hslots hconnections
    refine ⟨hslots, hroom, hreads, ?_, hserved, htallied, hcovered⟩
    have hnext : world.shared.metrics.connections + 1 = _ := congrArg (· + 1) hconnections
    rw [UInt64.add_assoc] at hnext
    exact hnext.trans (congrArg _ (word_gain rfl 1))
  | close hlistening =>
    rw [hlistening] at hslots hconnections
    exact ⟨hslots, hroom, hreads, hconnections, hserved, htallied, hcovered⟩
  | refused hconnected =>
    rw [hconnected] at hslots hconnections
    exact ⟨hslots, hroom, hreads, hconnections, hserved, htallied, hcovered⟩
  | started hconnected hfree =>
    rw [hconnected] at hslots hconnections
    exact ⟨congrArg (· + 1) hslots, hfree, hreads, hconnections, hserved, htallied, hcovered⟩
  | refuse hrefusing =>
    rw [hrefusing] at hslots hconnections
    exact ⟨hslots, hroom, hreads, noteError_balance hconnections, hserved, htallied, hcovered⟩
  | spawn input hstarting =>
    rw [hstarting] at hslots hconnections
    obtain ⟨hlive, hunfailed, hread, hnone, hnever, hempty⟩ := Worker.start_weights input
    refine ⟨?_, hroom, ?_, ?_, ?_, ?_, ?_⟩ <;> dsimp only
    · rw [crowdWeight_concat, hlive]
      exact hslots
    · rw [crowdWeight_concat, hread]
      exact hreads
    · rw [crowdWeight_concat, hunfailed]
      exact hconnections
    · rw [crowdWeight_concat, hnone]
      exact hserved
    · rw [crowdWeight_concat, hnever]
      exact htallied
    · rw [union_concat, hempty, Finset.union_empty]
      exact hcovered
  | spawnFailed hstarting =>
    rw [hstarting] at hslots hconnections
    refine ⟨?_, ?_, hreads, hconnections, hserved, htallied, hcovered⟩
    · change world.shared.active - 1 = _
      rw [hslots]
      rfl
    · exact Nat.le_trans (Nat.sub_le _ _) hroom
  | abandon habandoning =>
    rw [habandoning] at hslots hconnections
    exact ⟨hslots, hroom, hreads, noteError_balance hconnections, hserved, htallied, hcovered⟩

theorem raiseMaximum_eq (shared : Shared) (current : UInt64) :
    shared.raiseMaximum current = { shared with
      metrics.maxConcurrentReads := if shared.metrics.maxConcurrentReads < current then current
        else shared.metrics.maxConcurrentReads } := by
  rw [Shared.raiseMaximum]
  split <;> rfl

theorem handleConnection_cases (config : LoopbackServerConfig) (bytes : List UInt8) :
    (∃ status requestId, handleConnection config bytes = .responding status requestId 0 none) ∨
    (∃ request, handleConnection config bytes = .commanding request) ∨
    ∃ request, handleConnection config bytes = .admitting request := by
  rw [handleConnection]
  cases hdecode : RequestHeader.decode bytes with
  | none => exact .inl ⟨_, _, rfl⟩
  | some request =>
    dsimp only
    split
    · exact .inl ⟨_, _, rfl⟩
    · cases hopcode : request.opcode with
      | pause | resume | cancel => exact .inr (.inl ⟨request, rfl⟩)
      | status => exact .inl ⟨_, _, rfl⟩
      | readRange =>
        dsimp only [serveRange]
        split
        · exact .inl ⟨_, _, rfl⟩
        · exact .inr (.inr ⟨request, rfl⟩)

theorem handleConnection_weights (config : LoopbackServerConfig) (input output bytes : List UInt8) :
    (Worker.mk input output (handleConnection config bytes)).live = 1 ∧
    (Worker.mk input output (handleConnection config bytes)).unfailed = 1 ∧
    (Worker.mk input output (handleConnection config bytes)).inRead = 0 ∧
    (Worker.mk input output (handleConnection config bytes)).served = 0 ∧
    (Worker.mk input output (handleConnection config bytes)).tallied = 0 ∧
    (Worker.mk input output (handleConnection config bytes)).covered = ∅ := by
  rcases handleConnection_cases config bytes with ⟨status, requestId, h⟩ | ⟨request, h⟩ | ⟨request, h⟩
  · rw [h]
    exact ⟨rfl, rfl, rfl, rfl, rfl, rfl⟩
  · rw [h]
    exact ⟨rfl, rfl, rfl, rfl, rfl, rfl⟩
  · rw [h]
    exact ⟨rfl, rfl, rfl, rfl, rfl, rfl⟩

theorem afterHeader_cases (response : ResponseHeader) (active : Option RequestHeader) :
    (active = none ∧ afterHeader response active = .ended true) ∨
    (∃ request, active = some request ∧
      afterHeader response active = .streaming request response.payloadLength.toNat 0) ∨
    ∃ request, active = some request ∧ afterHeader response active = .leaving true := by
  cases active with
  | none => exact .inl ⟨rfl, rfl⟩
  | some request =>
    rw [afterHeader]
    split
    · exact .inr (.inl ⟨request, rfl, rfl⟩)
    · exact .inr (.inr ⟨request, rfl, rfl⟩)

namespace WorkerStep

theorem live_cases (h : WorkerStep config choice shared worker shared' worker') :
    (shared'.active = shared.active ∧ worker'.live = worker.live) ∨
      (shared'.active = shared.active - 1 ∧ worker.live = worker'.live + 1) := by
  cases h with
  | read => exact .inl ⟨rfl, (handleConnection_weights config _ _ _).1⟩
  | raise => exact .inl ⟨by rw [raiseMaximum_eq], rfl⟩
  | @write input output response active =>
    rcases afterHeader_cases response active with ⟨-, hstage⟩ | ⟨request, -, hstage⟩ |
      ⟨request, -, hstage⟩ <;> rw [hstage] <;> exact .inl ⟨rfl, rfl⟩
  | @writeFailed _ _ _ _ active => cases active <;> exact .inl ⟨rfl, rfl⟩
  | release => exact .inr ⟨rfl, rfl⟩
  | _ => exact .inl ⟨rfl, rfl⟩

theorem unfailed_cases (h : WorkerStep config choice shared worker shared' worker') :
    shared'.metrics.connections = shared.metrics.connections ∧
    ((shared'.metrics.protocolErrors = shared.metrics.protocolErrors ∧
      worker'.unfailed = worker.unfailed) ∨
    (shared'.metrics.protocolErrors = shared.metrics.protocolErrors + 1 ∧
      worker.unfailed = worker'.unfailed + 1)) := by
  cases h with
  | read => exact ⟨rfl, .inl ⟨rfl, (handleConnection_weights config _ _ _).2.1⟩⟩
  | raise =>
    rw [raiseMaximum_eq]
    exact ⟨rfl, .inl ⟨rfl, rfl⟩⟩
  | @write input output response active =>
    rcases afterHeader_cases response active with ⟨-, hstage⟩ | ⟨request, -, hstage⟩ |
      ⟨request, -, hstage⟩ <;> rw [hstage] <;> exact ⟨rfl, .inl ⟨rfl, rfl⟩⟩
  | @writeFailed _ _ _ _ active => cases active <;> exact ⟨rfl, .inl ⟨rfl, rfl⟩⟩
  | fail => exact ⟨rfl, .inr ⟨rfl, rfl⟩⟩
  | @release _ _ succeeded => cases succeeded <;> exact ⟨rfl, .inl ⟨rfl, rfl⟩⟩
  | _ => exact ⟨rfl, .inl ⟨rfl, rfl⟩⟩

theorem inRead_cases (h : WorkerStep config choice shared worker shared' worker') :
    (shared'.metrics.activeReads = shared.metrics.activeReads ∧ worker'.inRead = worker.inRead) ∨
    (shared'.metrics.activeReads = shared.metrics.activeReads + 1 ∧
      worker'.inRead = worker.inRead + 1) ∨
    (shared'.metrics.activeReads = shared.metrics.activeReads - 1 ∧
      worker.inRead = worker'.inRead + 1) := by
  cases h with
  | read => exact .inl ⟨rfl, (handleConnection_weights config _ _ _).2.2.1⟩
  | enter => exact .inr (.inl ⟨rfl, rfl⟩)
  | raise =>
    rw [raiseMaximum_eq]
    exact .inl ⟨rfl, rfl⟩
  | @respond _ _ _ _ _ active => cases active <;> exact .inl ⟨rfl, rfl⟩
  | @write input output response active =>
    rcases afterHeader_cases response active with ⟨rfl, hstage⟩ | ⟨request, rfl, hstage⟩ |
      ⟨request, rfl, hstage⟩ <;> rw [hstage] <;> exact .inl ⟨rfl, rfl⟩
  | @writeFailed _ _ _ _ active => cases active <;> exact .inl ⟨rfl, rfl⟩
  | leave => exact .inr (.inr ⟨rfl, rfl⟩)
  | _ => exact .inl ⟨rfl, rfl⟩

end WorkerStep

theorem Partway.delivered {input output : List UInt8} {length written : Nat}
    (h : Partway config input output request length written) (stage : Stage) :
    (Worker.mk input output stage).delivered = written := by
  obtain ⟨-, -, -, state, rfl⟩ := h
  simp [Worker.delivered, ResponseHeader.encode]

theorem Partway.asked {input output : List UInt8} {length written : Nat}
    (h : Partway config input output request length written) (stage : Stage) :
    (Worker.mk input output stage).asked = request.offset.toNat := by
  rw [Worker.asked, h.1.1.1]
  rfl

theorem delivered_header (input : List UInt8) (response : ResponseHeader) (stage : Stage) :
    (Worker.mk input ([] ++ response.encode) stage).delivered = 0 := by
  simp [Worker.delivered, ResponseHeader.encode]

namespace WorkerStep

theorem served_cases (h : WorkerStep config choice shared worker shared' worker')
    (hs : worker.Sound config) :
    ∃ gain, shared'.metrics.servedBytes = shared.metrics.servedBytes + .ofNat gain ∧
      worker'.served = worker.served + gain := by
  have hnothing : shared'.metrics.servedBytes = shared.metrics.servedBytes →
      worker'.served = worker.served → ∃ gain,
        shared'.metrics.servedBytes = shared.metrics.servedBytes + .ofNat gain ∧
          worker'.served = worker.served + gain := by
    intro hbytes hserved
    exact ⟨0, hbytes.trans (UInt64.add_zero _).symm, hserved⟩
  cases h with
  | read => exact hnothing rfl (handleConnection_weights config _ _ _).2.2.2.1
  | raise => exact hnothing (by rw [raiseMaximum_eq]) rfl
  | @write input output response active =>
    obtain ⟨rfl, -⟩ := hs
    have hnone := delivered_header input response
    refine hnothing rfl ?_
    rcases afterHeader_cases response active with ⟨-, hstage⟩ | ⟨request, -, hstage⟩ |
      ⟨request, -, hstage⟩ <;> rw [hstage]
    · exact hnone _
    · rfl
    · exact hnone _
  | @writeFailed _ _ _ _ active => cases active <;> exact hnothing rfl rfl
  | @note _ _ _ length => exact ⟨length, rfl, (Nat.zero_add length).symm⟩
  | call => exact hnothing rfl (Partway.delivered hs _)
  | @leave _ _ succeeded => cases succeeded <;> exact hnothing rfl rfl
  | @release _ _ succeeded => cases succeeded <;> exact hnothing rfl rfl
  | _ => exact hnothing rfl rfl

theorem tallied_cases (h : WorkerStep config choice shared worker shared' worker')
    (hs : worker.Sound config) :
    ∃ gain, shared'.control.bytesServed = shared.control.bytesServed + .ofNat gain ∧
      worker'.tallied = worker.tallied + gain := by
  have hnothing : shared'.control.bytesServed = shared.control.bytesServed →
      worker'.tallied = worker.tallied → ∃ gain,
        shared'.control.bytesServed = shared.control.bytesServed + .ofNat gain ∧
          worker'.tallied = worker.tallied + gain := by
    intro hbytes htallied
    exact ⟨0, hbytes.trans (UInt64.add_zero _).symm, htallied⟩
  cases h with
  | read => exact hnothing rfl (handleConnection_weights config _ _ _).2.2.2.2.1
  | raise => exact hnothing (by rw [raiseMaximum_eq]) rfl
  | @write input output response active =>
    obtain ⟨rfl, -⟩ := hs
    have hnone := delivered_header input response
    refine hnothing rfl ?_
    rcases afterHeader_cases response active with ⟨-, hstage⟩ | ⟨request, -, hstage⟩ |
      ⟨request, -, hstage⟩ <;> rw [hstage]
    · exact hnone _
    · rfl
    · exact hnone _
  | @writeFailed _ _ _ _ active => cases active <;> exact hnothing rfl rfl
  | @tally _ _ _ length => exact ⟨length, rfl, (Nat.zero_add length).symm⟩
  | call => exact hnothing rfl (Partway.delivered hs _)
  | @leave _ _ succeeded => cases succeeded <;> exact hnothing rfl rfl
  | @release _ _ succeeded => cases succeeded <;> exact hnothing rfl rfl
  | _ => exact hnothing rfl rfl

theorem covered_cases (h : WorkerStep config choice shared worker shared' worker')
    (hs : worker.Sound config) :
    (shared'.metrics.coverage = shared.metrics.coverage ∧ worker'.covered = worker.covered) ∨
    ∃ start length, shared'.metrics.coverage = shared.metrics.coverage.note start length ∧
      worker.covered = ∅ ∧ worker'.covered = Finset.Ico start (start + length) := by
  cases h with
  | read => exact .inl ⟨rfl, (handleConnection_weights config _ _ _).2.2.2.2.2⟩
  | raise => exact .inl ⟨by rw [raiseMaximum_eq], rfl⟩
  | @write input output response active =>
    obtain ⟨rfl, -⟩ := hs
    have hnone := delivered_header input response
    rcases afterHeader_cases response active with ⟨-, hstage⟩ | ⟨request, -, hstage⟩ |
      ⟨request, -, hstage⟩ <;> rw [hstage]
    · refine .inl ⟨rfl, ?_⟩
      simp only [Worker.covered, hnone, Nat.add_zero, Finset.Ico_self]
    · exact .inl ⟨rfl, rfl⟩
    · refine .inl ⟨rfl, ?_⟩
      simp only [Worker.covered, hnone, Nat.add_zero, Finset.Ico_self]
  | @writeFailed _ _ _ _ active => cases active <;> exact .inl ⟨rfl, rfl⟩
  | @cover input output request length =>
    refine .inr ⟨request.offset.toNat, length, rfl, rfl, ?_⟩
    have hasked := Partway.asked hs (.tallying request length)
    simp only [Worker.covered, hasked]
  | @tally input output request length => exact .inl ⟨rfl, rfl⟩
  | @call input output request length =>
    refine .inl ⟨rfl, ?_⟩
    have hdelivered := Partway.delivered hs (.leaving true)
    simp only [Worker.covered, hdelivered, Worker.asked]
  | @leave _ _ succeeded => cases succeeded <;> exact .inl ⟨rfl, rfl⟩
  | @release _ _ succeeded => cases succeeded <;> exact .inl ⟨rfl, rfl⟩
  | _ => exact .inl ⟨rfl, rfl⟩

theorem account (hworker : world.workers[index]? = some worker)
    (h : WorkerStep config choice world.shared worker shared' worker') (hs : worker.Sound config)
    (ha : Account config world) :
    Account config { world with shared := shared', workers := world.workers.set index worker' } := by
  refine ⟨?_, ?_, ?_, ?_, ?_, ?_, ?_⟩ <;> dsimp only
  · rcases h.live_cases with ⟨hactive, hlive⟩ | ⟨hactive, hlive⟩
    · rw [hactive, crowdWeight_same hworker hlive]
      exact ha.slots
    · have hloss := crowdWeight_loss hworker hlive
      have hslots := ha.slots
      omega
  · have hroom := ha.room
    rcases h.live_cases with ⟨hactive, -⟩ | ⟨hactive, -⟩ <;> omega
  · rcases h.inRead_cases with ⟨hreads, hread⟩ | ⟨hreads, hread⟩ | ⟨hreads, hread⟩
    · rw [hreads, crowdWeight_same hworker hread]
      exact ha.reads
    · rw [hreads, crowdWeight_gain hworker hread]
      exact word_gain ha.reads 1
    · have hloss := crowdWeight_loss hworker hread
      rw [hreads]
      exact word_loss (hloss ▸ ha.reads)
  · obtain ⟨hconnections, ⟨herrors, hunfailed⟩ | ⟨herrors, hunfailed⟩⟩ := h.unfailed_cases
    · rw [hconnections, herrors, crowdWeight_same hworker hunfailed]
      exact ha.connections
    · have hloss := crowdWeight_loss hworker hunfailed
      have hbalance := ha.connections
      rw [hloss, Nat.add_right_comm] at hbalance
      rw [hconnections, herrors]
      exact noteError_balance hbalance
  · obtain ⟨gain, hbytes, hserved⟩ := h.served_cases hs
    rw [hbytes, crowdWeight_gain hworker hserved]
    exact word_gain ha.served gain
  · obtain ⟨gain, hbytes, htallied⟩ := h.tallied_cases hs
    rw [hbytes, crowdWeight_gain hworker htallied]
    exact word_gain ha.tallied gain
  · rcases h.covered_cases hs with ⟨hcoverage, hcovered⟩ | ⟨start, length, hcoverage, hnone, hcovered⟩
    · rw [hcoverage, union_same hworker hcovered]
      exact ha.covered
    · rw [hcoverage, union_set hworker (by rw [hnone]; exact Finset.empty_subset _), hcovered]
      exact ha.covered.note start length

end WorkerStep

theorem WorldStep.account (hs : world.Sound config ∧ Account config world)
    (h : WorldStep config world event world') : world'.Sound config ∧ Account config world' := by
  refine ⟨WorldStep.sound hs.1 h, ?_⟩
  rcases worldStep_cases h with hacceptor | ⟨opcode, -, rfl⟩ | ⟨-, rfl⟩ |
    ⟨index, choice, worker, shared', worker', -, hworker, hstep, rfl⟩
  · exact hacceptor.account hs.2
  · obtain ⟨hslots, hroom, hreads, hconnections, hserved, htallied, hcovered⟩ := hs.2
    exact ⟨hslots, hroom, hreads, hconnections, hserved, htallied, hcovered⟩
  · obtain ⟨hslots, hroom, hreads, hconnections, hserved, htallied, hcovered⟩ := hs.2
    exact ⟨hslots, hroom, hreads, hconnections, hserved, htallied, hcovered⟩
  · exact hstep.account hworker (hs.1 worker (List.mem_of_getElem? hworker)) hs.2

theorem world_account (h : Run (WorldStep config) .start events world) : Account config world :=
  (h.invariant (I := fun world => world.Sound config ∧ Account config world)
    (fun hs hstep => WorldStep.account hs hstep) ⟨world_sound .nil, Account.start config⟩).2

def World.Quiet (world : World) : Prop :=
  (world.acceptor = .listening ∨ world.acceptor = .stopped) ∧
    ∀ worker ∈ world.workers, ∃ succeeded, worker.stage = .gone succeeded

theorem World.Quiet.none_live (h : world.Quiet) :
    crowdWeight Worker.live world.workers = 0 ∧ world.acceptor.slots = 0 ∧
      world.acceptor.owed = 0 := by
  refine ⟨crowdWeight_eq_zero.mpr fun worker hworker => ?_, ?_⟩
  · obtain ⟨succeeded, hgone⟩ := h.2 worker hworker
    rw [Worker.live, hgone]
  · rcases h.1 with hacceptor | hacceptor <;> rw [hacceptor] <;> exact ⟨rfl, rfl⟩

theorem World.Quiet.tallied_eq (h : world.Quiet) :
    crowdWeight Worker.tallied world.workers = crowdWeight Worker.served world.workers := by
  rw [crowdWeight, crowdWeight]
  congr 1
  apply List.map_congr_left
  intro worker hworker
  obtain ⟨succeeded, hgone⟩ := h.2 worker hworker
  rw [Worker.tallied, Worker.served, hgone]
  cases succeeded <;> rfl

theorem loopback_slots_and_connections (hrun : Run (WorldStep config) .start events world) :
    crowdWeight Worker.live world.workers + world.acceptor.slots = world.shared.active ∧
    world.shared.active ≤ config.maxWorkers ∧
    world.shared.metrics.connections = world.shared.metrics.protocolErrors +
      .ofNat (crowdWeight Worker.unfailed world.workers + world.acceptor.owed) ∧
    (world.Quiet → world.shared.active = 0 ∧ world.shared.metrics.connections =
      world.shared.metrics.protocolErrors + .ofNat (crowdWeight Worker.unfailed world.workers)) := by
  have haccount := world_account hrun
  refine ⟨haccount.slots.symm, haccount.room, haccount.connections, fun hquiet => ?_⟩
  obtain ⟨hlive, hslots, howed⟩ := hquiet.none_live
  have hactive := haccount.slots
  have hconnections := haccount.connections
  rw [hlive, hslots] at hactive
  rw [howed] at hconnections
  exact ⟨hactive, hconnections⟩

theorem loopback_slots_and_connections_solo :
    soloWorld.shared.active = 0 ∧ soloWorld.shared.metrics.connections =
      soloWorld.shared.metrics.protocolErrors + 1 := by
  refine (loopback_slots_and_connections soloWorld_run).2.2.2 ⟨.inl rfl, fun worker hworker => ?_⟩
  rw [soloWorld_workers] at hworker
  obtain rfl := List.mem_singleton.mp hworker
  exact ⟨true, rfl⟩

theorem loopback_bytes_accounted (hrun : Run (WorldStep config) .start events world) :
    world.shared.metrics.servedBytes = .ofNat (crowdWeight Worker.served world.workers) ∧
    world.shared.control.bytesServed = .ofNat (crowdWeight Worker.tallied world.workers) ∧
    (world.Quiet → world.shared.control.bytesServed = world.shared.metrics.servedBytes) ∧
    world.shared.metrics.coverage.ranges.length ≤ maxTrackedRanges ∧
    world.shared.metrics.coverage.uniqueBytes ≤
      (Tally.union Worker.covered world.workers).card ∧
    (world.shared.metrics.coverage.saturated = false → world.shared.metrics.coverage.uniqueBytes =
      (Tally.union Worker.covered world.workers).card) := by
  have haccount := world_account hrun
  have hcovered := haccount.covered
  refine ⟨haccount.served, haccount.tallied, fun hquiet => ?_, hcovered.wellFormed.few,
    hcovered.atMost, fun hsaturated => ?_⟩
  · rw [haccount.served, haccount.tallied, hquiet.tallied_eq]
  · rw [hcovered.wellFormed.count hsaturated, hcovered.ranges hsaturated]

theorem loopback_bytes_accounted_solo : soloWorld.shared.metrics.servedBytes = .ofNat
      (crowdWeight Worker.served soloWorld.workers) ∧
    soloWorld.shared.metrics.coverage.uniqueBytes ≤
      (Tally.union Worker.covered soloWorld.workers).card :=
  ⟨(loopback_bytes_accounted soloWorld_run).1, (loopback_bytes_accounted soloWorld_run).2.2.2.2.1⟩

end ClipFerry.Loopback
