import ClipFerry.Tray.PairingRuntime

namespace ClipFerry.Tray

open Foundation Pairing Protocol Server Settings Transition VirtualTree

variable {self : PairingParty} {stop busy busy' : Bool} {event : FlagEvent PairingParty}
  {events : List (FlagEvent PairingParty)} {runtime runtime' : PairingRuntime}
  {flag : Flag PairingParty}

theorem ConnectPhase.holding_of_attempting {phase : ConnectPhase}
    (h : phase.attempting = true) : phase.holding = true := by
  cases phase with
  | connecting | completing | logging => rfl
  | idle | called | spawning | refused | unspawned | releasing | finished => cases h

theorem ListenPhase.holding_of_confirming {phase : ListenPhase}
    (h : phase.confirming = true) : phase.holding = true := by
  cases phase with
  | completing => rfl
  | top | listening | listened | matching | declining | logging | releasing | sleeping
  | stopped => cases h

theorem PairingRuntime.holding_of_inProgress {party : PairingParty}
    (h : runtime.inProgress party = true) : runtime.holding party = true := by
  cases party with
  | connector call => exact ConnectPhase.holding_of_attempting h
  | listener => exact ListenPhase.holding_of_confirming h

theorem ConnectStep.party {phase phase' : ConnectPhase}
    (h : ConnectStep self busy phase event busy' phase') :
    PartyStep self (busy, phase.holding) event (busy', phase'.holding) := by
  cases h with
  | take => exact .take
  | refuse => exact .refuse
  | unspawned => exact .leak
  | release => exact .release
  | call | spawn | unconnected | connected | complete | completed | logged => exact .work

theorem ListenStep.party {phase phase' : ListenPhase}
    (h : ListenStep stop busy phase event busy' phase') :
    PartyStep .listener (busy, phase.holding) event (busy', phase'.holding) := by
  cases h with
  | take => exact .take
  | refuse => exact .refuse
  | release => exact .release
  | exit | listen | listened | leave | go | declined | complete | completed | logged | waited
  | failed | slept => exact .work

def PairingRuntime.Tracks (runtime : PairingRuntime) (flag : Flag PairingParty) : Prop :=
  flag.Tracks runtime.busy runtime.holding

theorem tracks_start : PairingRuntime.start.Tracks .clear where
  set := rfl
  holding
    | .connector _ => ⟨nofun, nofun⟩
    | .listener => ⟨nofun, nofun⟩

theorem holding_connect (runtime : PairingRuntime) (busy : Bool) (call : Nat)
    (phase : ConnectPhase) :
    PairingRuntime.holding
      { runtime with busy := busy, calls := Function.update runtime.calls call phase } =
      Function.update runtime.holding (.connector call) phase.holding := by
  funext party
  cases party with
  | listener => rfl
  | connector other =>
    change (Function.update runtime.calls call phase other).holding = _
    by_cases hother : other = call
    · rw [hother, Function.update_self, Function.update_self]
    · have hparty : PairingParty.connector other ≠ .connector call :=
        fun h => hother (PairingParty.connector.inj h)
      rw [Function.update_of_ne hother, Function.update_of_ne hparty]
      rfl

theorem holding_listen (runtime : PairingRuntime) (busy : Bool) (phase : ListenPhase) :
    PairingRuntime.holding { runtime with busy := busy, listener := phase } =
      Function.update runtime.holding .listener phase.holding := by
  funext party
  cases party with
  | listener =>
    rw [Function.update_self]
    rfl
  | connector call =>
    have hparty : PairingParty.connector call ≠ .listener := PairingParty.noConfusion
    rw [Function.update_of_ne hparty]
    rfl

theorem PairingRuntime.Tracks.step (h : runtime.Tracks flag)
    (hstep : RuntimeStep runtime event runtime') :
    ∃ flag', FlagStep flag event flag' ∧ runtime'.Tracks flag' := by
  cases hstep with
  | connect call hconnect =>
    obtain ⟨flag', hflag, htracks⟩ := Flag.Tracks.step h hconnect.party
    rw [← holding_connect] at htracks
    exact ⟨flag', hflag, htracks⟩
  | listen hlisten =>
    obtain ⟨flag', hflag, htracks⟩ := Flag.Tracks.step h hlisten.party
    rw [← holding_listen] at htracks
    exact ⟨flag', hflag, htracks⟩
  | drop => exact ⟨flag, .work, h⟩

theorem runtime_refines_flag (h : Run RuntimeStep .start events runtime) :
    ∃ flag, Run FlagStep .clear events flag ∧ runtime.Tracks flag := by
  induction h with
  | nil => exact ⟨.clear, .nil, tracks_start⟩
  | snoc _ last ih =>
    obtain ⟨flag, hrun, htracks⟩ := ih
    obtain ⟨flag', hstep, htracks'⟩ := htracks.step last
    exact ⟨flag', hrun.snoc hstep, htracks'⟩

def PairingRuntime.Quiet (runtime : PairingRuntime) : Prop :=
  ∀ party, runtime.holding party = false

theorem PairingRuntime.Tracks.quiet_of_leaked (h : runtime.Tracks .leaked) : runtime.Quiet := by
  intro party
  cases hholding : runtime.holding party with
  | false => rfl
  | true => cases (h.holding party).mp hholding

theorem busy_flag_exact (h : Run RuntimeStep .start events runtime) :
    (∀ party other, runtime.inProgress party = true → runtime.inProgress other = true →
      party = other) ∧
    ((runtime.Quiet → runtime.busy = false ∧
        ∀ party runtime', ¬RuntimeStep runtime (.refuse party) runtime') ↔
      ∀ event ∈ events, event.isLeak = false) := by
  obtain ⟨flag, hrun, htracks⟩ := runtime_refines_flag h
  refine ⟨fun party other hparty hother => ?_, fun hfreed => ?_, fun hnone hquiet => ?_⟩
  · exact htracks.exclusive (PairingRuntime.holding_of_inProgress hparty)
      (PairingRuntime.holding_of_inProgress hother)
  · by_contra hsome
    have hleaked : flag = .leaked :=
      (flag_leaked_iff hrun).mpr (by simpa using hsome)
    subst hleaked
    have hset := htracks.set
    rw [(hfreed htracks.quiet_of_leaked).1] at hset
    cases hset
  · have hfree : ∀ holder, flag ≠ .held holder := fun holder => htracks.not_held (hquiet holder)
    have hclear := (flag_clear_iff hrun hfree).mpr hnone
    refine ⟨htracks.set.trans hclear, fun party runtime' hrefuse => ?_⟩
    obtain ⟨flag', hstep, -⟩ := htracks.step hrefuse
    obtain rfl := htracks.clear_of_unset (htracks.set.trans hclear)
    exact hstep.ne_clear rfl

def sampleFingerprint : CertificateFingerprint := ⟨⟨List.replicate 32 1, rfl⟩⟩

def samplePeer : NamedPeer where
  fingerprint := sampleFingerprint
  serviceEndpoint := .v4 ⟨[10, 0, 0, 2], rfl⟩ servicePort
  label := "B".toList

def outOfThreads : IoError := .new .other "could not start a thread"

theorem unspawned_run : ∃ runtime, Run RuntimeStep .start
    [.work, .take (.connector 0), .leak (.connector 0)] runtime ∧ runtime.Quiet ∧
    runtime.busy = true := by
  refine ⟨_, (Run.single (.connect 0 (.call samplePeer)))
    |>.snoc (.connect 0 .take)
    |>.snoc (.connect 0 (.unspawned outOfThreads)), ?_, rfl⟩
  rintro (call | -)
  · cases call <;> rfl
  · rfl

theorem failed_spawn_blocks_pairing : ¬∀ (events : List (FlagEvent PairingParty))
    (runtime : PairingRuntime), Run RuntimeStep .start events runtime →
      runtime.Quiet → runtime.busy = false := by
  intro h
  obtain ⟨runtime, hrun, hquiet, hbusy⟩ := unspawned_run
  rw [h _ runtime hrun hquiet] at hbusy
  cases hbusy

theorem failed_connection_run : ∃ runtime, Run RuntimeStep .start
    [.work, .take (.connector 0), .work, .work, .work, .release (.connector 0)] runtime ∧
    runtime.Quiet := by
  refine ⟨_, (Run.single (.connect 0 (.call samplePeer)))
    |>.snoc (.connect 0 .take)
    |>.snoc (.connect 0 .spawn)
    |>.snoc (.connect 0 (.unconnected (.new .timedOut "connection timed out")))
    |>.snoc (.connect 0 .logged)
    |>.snoc (.connect 0 .release), ?_⟩
  rintro (call | -)
  · cases call <;> rfl
  · rfl

theorem busy_flag_exact_solo : ∃ runtime : PairingRuntime, runtime.busy = false ∧
    ∀ party runtime', ¬RuntimeStep runtime (.refuse party) runtime' := by
  obtain ⟨runtime, hrun, hquiet⟩ := failed_connection_run
  exact ⟨runtime, (busy_flag_exact hrun).2.mpr (by decide) hquiet⟩

end ClipFerry.Tray
