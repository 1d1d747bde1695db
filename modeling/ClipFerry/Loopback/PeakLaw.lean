import ClipFerry.Loopback.MetricsLaw
import Mathlib.Order.Bounds.Basic

namespace ClipFerry.Loopback

open Foundation Server Transition VirtualTree

variable {config : LoopbackServerConfig} {choice : Choice} {shared shared' : Shared}
  {worker worker' : Worker} {request : RequestHeader} {current : UInt64} {world world' : World}
  {event : Event} {events : List Event} {index n : Nat}

def World.reading (world : World) : Nat := crowdWeight Worker.inRead world.workers

def World.maximum (world : World) : Nat := world.shared.metrics.maxConcurrentReads.toNat

def Worker.raising (worker : Worker) : Option UInt64 :=
  match worker.stage with
  | .entered _ current => some current
  | _ => none

def World.Noted (n : Nat) (world : World) : Prop :=
  n ≤ world.maximum ∨
    ∃ worker ∈ world.workers, ∃ current, worker.raising = some current ∧ n ≤ current.toNat

def World.Settled (world : World) : Prop := ∀ worker ∈ world.workers, worker.raising = none

theorem toNat_raiseMaximum (shared : Shared) (current : UInt64) :
    (shared.raiseMaximum current).metrics.maxConcurrentReads.toNat =
      max shared.metrics.maxConcurrentReads.toNat current.toNat := by
  rw [raiseMaximum_eq]
  dsimp only
  split
  · next hlt => exact (Nat.max_eq_right (Nat.le_of_lt (UInt64.lt_iff_toNat_lt.mp hlt))).symm
  · next hge =>
    exact (Nat.max_eq_left (Nat.not_lt.mp fun hlt => hge (UInt64.lt_iff_toNat_lt.mpr hlt))).symm

theorem WorkerStep.maximum_cases (h : WorkerStep config choice shared worker shared' worker') :
    (∃ current, worker.raising = some current ∧ worker'.raising = none ∧
      worker'.inRead = worker.inRead ∧ shared' = shared.raiseMaximum current) ∨
    (worker.raising = none ∧
      shared'.metrics.maxConcurrentReads = shared.metrics.maxConcurrentReads ∧
      (worker'.raising = none ∧ worker'.inRead ≤ worker.inRead ∨
        worker'.raising = some (shared.metrics.activeReads + 1) ∧
          worker'.inRead = worker.inRead + 1)) := by
  have hless {n : Nat} : n ≤ n := Nat.le_refl n
  cases h with
  | raise => exact .inl ⟨_, rfl, rfl, rfl, rfl⟩
  | enter => exact .inr ⟨rfl, rfl, .inr ⟨rfl, rfl⟩⟩
  | @read input output =>
    rcases handleConnection_cases config (input.take requestHeaderLen) with
      ⟨status, requestId, hstage⟩ | ⟨request, hstage⟩ | ⟨request, hstage⟩ <;> rw [hstage] <;>
      exact .inr ⟨rfl, rfl, .inl ⟨rfl, hless⟩⟩
  | @respond _ _ _ _ _ active => cases active <;> exact .inr ⟨rfl, rfl, .inl ⟨rfl, hless⟩⟩
  | @write input output response active =>
    rcases afterHeader_cases response active with ⟨rfl, hstage⟩ | ⟨request, rfl, hstage⟩ |
      ⟨request, rfl, hstage⟩ <;> rw [hstage] <;> exact .inr ⟨rfl, rfl, .inl ⟨rfl, hless⟩⟩
  | @writeFailed _ _ _ _ active => cases active <;> exact .inr ⟨rfl, rfl, .inl ⟨rfl, hless⟩⟩
  | leave => exact .inr ⟨rfl, rfl, .inl ⟨rfl, Nat.zero_le _⟩⟩
  | _ => exact .inr ⟨rfl, rfl, .inl ⟨rfl, hless⟩⟩

theorem AcceptorStep.workers_cases (h : AcceptorStep config world world') :
    world'.maximum = world.maximum ∧ (world'.workers = world.workers ∨
      ∃ input, world'.workers = world.workers ++ [.start input]) := by
  cases h with
  | spawn input hstarting => exact ⟨rfl, .inr ⟨input, rfl⟩⟩
  | _ => exact ⟨rfl, .inl rfl⟩

theorem WorldStep.reading_cases (h : WorldStep config world event world') :
    (world'.maximum = world.maximum ∧ (world'.workers = world.workers ∨
      ∃ input, world'.workers = world.workers ++ [.start input])) ∨
    ∃ index choice worker shared' worker', world.workers[index]? = some worker ∧
      WorkerStep config choice world.shared worker shared' worker' ∧
      world' = { world with shared := shared', workers := world.workers.set index worker' } := by
  rcases worldStep_cases h with hacceptor | ⟨opcode, -, rfl⟩ | ⟨-, rfl⟩ |
    ⟨index, choice, worker, shared', worker', -, hworker, hstep, rfl⟩
  · exact .inl hacceptor.workers_cases
  · exact .inl ⟨rfl, .inl rfl⟩
  · exact .inl ⟨rfl, .inl rfl⟩
  · exact .inr ⟨index, choice, worker, shared', worker', hworker, hstep, rfl⟩

theorem mem_set_of_ne {l : List Worker} {i : Nat} {a b c : Worker} (ha : l[i]? = some a)
    (hc : c ∈ l) (hne : c ≠ a) : c ∈ l.set i b := by
  obtain ⟨j, hj, rfl⟩ := List.mem_iff_getElem.mp hc
  have hij : i ≠ j := by
    rintro rfl
    rw [List.getElem?_eq_getElem hj] at ha
    exact hne (Option.some.inj ha)
  have hkept : (l.set i b)[j]? = some l[j] := by
    rw [List.getElem?_set_ne hij, List.getElem?_eq_getElem hj]
  exact List.mem_of_getElem? hkept

theorem World.Noted.step (hn : world.Noted n) (h : WorldStep config world event world') :
    world'.Noted n := by
  rcases WorldStep.reading_cases h with ⟨hmaximum, hworkers⟩ |
    ⟨index, choice, worker, shared', worker', hworker, hstep, rfl⟩
  · refine hn.imp (fun hle => hmaximum ▸ hle) ?_
    rintro ⟨worker, hmem, hraising⟩
    rcases hworkers with hsame | ⟨input, hmore⟩
    · exact ⟨worker, hsame ▸ hmem, hraising⟩
    · exact ⟨worker, hmore ▸ List.mem_append_left _ hmem, hraising⟩
  · rcases hstep.maximum_cases with ⟨current, hraising, -, -, rfl⟩ | ⟨hidle, hmaximum, -⟩
    · rcases hn with hle | ⟨waiter, hmem, current', hraising', hle⟩
      · refine .inl ?_
        rw [World.maximum, toNat_raiseMaximum]
        exact Nat.le_trans hle (Nat.le_max_left _ _)
      · by_cases hsame : waiter = worker
        · subst hsame
          obtain rfl := Option.some.inj (hraising'.symm.trans hraising)
          refine .inl ?_
          rw [World.maximum, toNat_raiseMaximum]
          exact Nat.le_trans hle (Nat.le_max_right _ _)
        · exact .inr ⟨waiter, mem_set_of_ne hworker hmem hsame, current', hraising', hle⟩
    · refine hn.imp (fun hle => ?_) ?_
      · rw [World.maximum, hmaximum]
        exact hle
      · rintro ⟨waiter, hmem, current', hraising', hle⟩
        have hsame : waiter ≠ worker := by
          rintro rfl
          rw [hidle] at hraising'
          cases hraising'
        exact ⟨waiter, mem_set_of_ne hworker hmem hsame, current', hraising', hle⟩

theorem Worker.inRead_le_live (worker : Worker) : worker.inRead ≤ worker.live := by
  obtain ⟨input, output, stage⟩ := worker
  cases stage with
  | responding status requestId payloadLength active =>
    cases active <;> simp [inRead, live]
  | writing response active => cases active <;> simp [inRead, live]
  | _ => simp [inRead, live]

theorem Account.reading_le (ha : Account config world) : world.reading ≤ config.maxWorkers := by
  have hlive : world.reading ≤ crowdWeight Worker.live world.workers :=
    crowdWeight_mono fun worker _ => worker.inRead_le_live
  have hslots := ha.slots
  have hroom := ha.room
  omega

theorem Account.toNat_reads (ha : Account config world) (hvalid : validateServerConfig config = .ok ()) :
    world.shared.metrics.activeReads.toNat = world.reading := by
  have hle := ha.reading_le
  obtain ⟨-, -, -, -, -, hfew⟩ := validateServerConfig_ok hvalid
  rw [maxConfiguredWorkers] at hfew
  rw [ha.reads, UInt64.toNat_ofNat', Nat.mod_eq_of_lt]
  · rfl
  · change world.reading < 2 ^ 64
    omega

theorem enter_reading (ha : Account config world) (hvalid : validateServerConfig config = .ok ())
    (hworker : world.workers[index]? = some worker) (hread : worker'.inRead = worker.inRead + 1) :
    crowdWeight Worker.inRead (world.workers.set index worker') =
      (world.shared.metrics.activeReads + 1).toNat := by
  have hle := ha.reading_le
  obtain ⟨-, -, -, -, -, hfew⟩ := validateServerConfig_ok hvalid
  rw [maxConfiguredWorkers] at hfew
  have hreads := ha.toNat_reads hvalid
  have hfits : world.reading + 1 < 2 ^ 64 := by omega
  rw [crowdWeight_gain hworker hread, UInt64.toNat_add, hreads]
  exact (Nat.mod_eq_of_lt hfits).symm

theorem reading_same (hworkers : world'.workers = world.workers ∨
    ∃ input, world'.workers = world.workers ++ [.start input]) : world'.reading = world.reading := by
  rcases hworkers with hsame | ⟨input, hmore⟩
  · rw [World.reading, hsame, World.reading]
  · rw [World.reading, hmore, crowdWeight_concat, (Worker.start_weights input).2.2.1, World.reading,
      Nat.add_zero]

theorem reading_noted (hvalid : validateServerConfig config = .ok ()) (ha : Account config world)
    (hn : world.Noted world.reading) (h : WorldStep config world event world') :
    world'.Noted world'.reading := by
  have hkept := hn.step h
  rcases WorldStep.reading_cases h with ⟨-, hworkers⟩ |
    ⟨index, choice, worker, shared', worker', hworker, hstep, rfl⟩
  · rw [reading_same hworkers]
    exact hkept
  · have hset := crowdWeight_set Worker.inRead hworker worker'
    have hfewer : worker'.inRead ≤ worker.inRead →
        crowdWeight Worker.inRead (world.workers.set index worker') ≤ world.reading := by
      intro hle
      rw [World.reading]
      omega
    have hless : worker'.inRead ≤ worker.inRead → World.Noted
        (crowdWeight Worker.inRead (world.workers.set index worker'))
        { world with shared := shared', workers := world.workers.set index worker' } := by
      intro hle
      refine hkept.imp (Nat.le_trans (hfewer hle)) ?_
      rintro ⟨waiter, hmem, current', hraising', hnoted⟩
      exact ⟨waiter, hmem, current', hraising', Nat.le_trans (hfewer hle) hnoted⟩
    rcases hstep.maximum_cases with ⟨current, -, -, hsame, rfl⟩ |
      ⟨-, -, ⟨-, hle⟩ | ⟨hraising, hread⟩⟩
    · exact hless (Nat.le_of_eq hsame)
    · exact hless hle
    · refine .inr ⟨worker', List.mem_set (List.getElem?_eq_some_iff.mp hworker).1 _, _, hraising, ?_⟩
      exact Nat.le_of_eq (enter_reading ha hvalid hworker hread)

def ReadAtOnce (config : LoopbackServerConfig) (n : Nat) (events : List Event) (world : World) : Prop :=
  Past (WorldStep config) .start (fun _ before => before.reading = n) events world

def Attained (config : LoopbackServerConfig) (events : List Event) (world : World) : Prop :=
  ReadAtOnce config world.maximum events world ∧ ∀ worker ∈ world.workers, ∀ current,
    worker.raising = some current → ReadAtOnce config current.toNat events world

theorem attained_step (hvalid : validateServerConfig config = .ok ())
    (hrun : Run (WorldStep config) .start events world) (ha : Attained config events world)
    (h : WorldStep config world event world') : Attained config (events ++ [event]) world' := by
  obtain ⟨hmaximum, hraising⟩ := ha
  have haccount := world_account hrun
  have hlater : ∀ {n}, ReadAtOnce config n events world →
      ReadAtOnce config n (events ++ [event]) world' := fun hpast => hpast.extend (.single h)
  have hhere := Past.here (P := fun _ before => before.reading = world'.reading) (hrun.snoc h) rfl
  rcases WorldStep.reading_cases h with ⟨hsame, hworkers⟩ |
    ⟨index, choice, worker, shared', worker', hworker, hstep, rfl⟩
  · refine ⟨hsame ▸ hlater hmaximum, fun worker hmem current hcurrent => ?_⟩
    rcases hworkers with hold | ⟨input, hmore⟩
    · exact hlater (hraising worker (hold ▸ hmem) current hcurrent)
    · rw [hmore] at hmem
      rcases List.mem_append.mp hmem with hmem | hnew
      · exact hlater (hraising worker hmem current hcurrent)
      · obtain rfl := List.mem_singleton.mp hnew
        cases hcurrent
  · have hmember := List.mem_of_getElem? hworker
    have hothers : ∀ other ∈ world.workers.set index worker', other ≠ worker' → ∀ current,
        other.raising = some current → ReadAtOnce config current.toNat (events ++ [event])
          { world with shared := shared', workers := world.workers.set index worker' } := by
      intro other hother hne current hcurrent
      rcases List.mem_or_eq_of_mem_set hother with hold | rfl
      · exact hlater (hraising other hold current hcurrent)
      · exact absurd rfl hne
    rcases hstep.maximum_cases with ⟨current, hcurrent, hdone, -, rfl⟩ | ⟨-, hkept, hnext⟩
    · refine ⟨?_, fun other hother current' hcurrent' => ?_⟩
      · rw [World.maximum, toNat_raiseMaximum]
        rcases Nat.le_total world.maximum current.toNat with hle | hle
        · rw [World.maximum] at hle
          rw [Nat.max_eq_right hle]
          exact hlater (hraising worker hmember current hcurrent)
        · rw [World.maximum] at hle
          rw [Nat.max_eq_left hle]
          exact hlater hmaximum
      · refine hothers other hother ?_ current' hcurrent'
        rintro rfl
        rw [hdone] at hcurrent'
        cases hcurrent'
    · refine ⟨?_, fun other hother current' hcurrent' => ?_⟩
      · rw [World.maximum, hkept]
        exact hlater hmaximum
      · by_cases hsame : other = worker'
        · subst hsame
          rcases hnext with ⟨hidle, -⟩ | ⟨hnew, hread⟩
          · rw [hidle] at hcurrent'
            cases hcurrent'
          · obtain rfl := Option.some.inj (hnew.symm.trans hcurrent')
            rw [ReadAtOnce, ← enter_reading haccount hvalid hworker hread]
            exact hhere
        · exact hothers other hother hsame current' hcurrent'

theorem loopback_maximum_is_peak (hvalid : validateServerConfig config = .ok ())
    (hrun : Run (WorldStep config) .start events world) (hsettled : world.Settled) :
    IsGreatest {n | ReadAtOnce config n events world} world.maximum ∧
      world.maximum ≤ config.maxWorkers := by
  have hattained : Attained config events world :=
    hrun.traced (I := Attained config)
      ⟨Past.here .nil rfl, fun _ hworker => absurd hworker List.not_mem_nil⟩
      fun hbefore ha hstep => attained_step hvalid hbefore ha hstep
  refine ⟨⟨hattained.1, ?_⟩, ?_⟩
  · rintro n ⟨before, earlier, after, -, hbefore, hafter, rfl⟩
    have hnoted : earlier.Noted earlier.reading :=
      (hbefore.invariant (I := fun world => (world.Sound config ∧ Account config world) ∧
          world.Noted world.reading)
        (fun hs hstep => ⟨WorldStep.account hs.1 hstep, reading_noted hvalid hs.1.2 hs.2 hstep⟩)
        ⟨⟨world_sound .nil, Account.start config⟩, .inl (Nat.le_refl _)⟩).2
    have hlast := hafter.invariant (I := World.Noted earlier.reading)
      (fun hn hstep => hn.step hstep) hnoted
    rcases hlast with hle | ⟨worker, hmem, current, hcurrent, -⟩
    · exact hle
    · rw [hsettled worker hmem] at hcurrent
      cases hcurrent
  · obtain ⟨before, earlier, after, -, hbefore, -, hreading⟩ := hattained.1
    rw [← hreading]
    exact (world_account hbefore).reading_le

def pairConfig : LoopbackServerConfig := { soloConfig with maxWorkers := 2 }

def pairEvents : List Event :=
  [.accept, .tryStart, .spawn soloRequest.encode, .accept, .tryStart, .spawn soloRequest.encode] ++
    (List.replicate 5 (.worker 0 .go) ++ (List.replicate 5 (.worker 1 .go) ++
      (List.replicate 12 (.worker 0 .go) ++ List.replicate 12 (.worker 1 .go))))

def pairWorld : World := (pairEvents.foldlM (World.next pairConfig) .start).getD .start

theorem pairWorld_run : Run (WorldStep pairConfig) .start pairEvents pairWorld :=
  World.run_of_foldlM rfl

theorem pairWorld_workers : pairWorld.workers = [soloWorker, soloWorker] := rfl

theorem loopback_maximum_is_peak_pair :
    IsGreatest {n | ReadAtOnce pairConfig n pairEvents pairWorld} 2 := by
  have hsettled : pairWorld.Settled := by
    intro worker hworker
    rw [pairWorld_workers] at hworker
    rcases List.mem_pair.mp hworker with rfl | rfl <;> rfl
  exact (loopback_maximum_is_peak rfl pairWorld_run hsettled).1

end ClipFerry.Loopback
