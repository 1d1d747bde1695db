import ClipFerry.Client.EndingControl

namespace ClipFerry.Client.Relay

open Protocol Server Transition

variable {relay relay' : Relay} {label : RelayLabel}

/-! A new Complete does not reach a session while it is paused. -/

def CompletesRunning (relay : Relay) (label : RelayLabel) : Prop :=
  ∀ copy i sequence, label = .deliver copy [.control i sequence .complete] →
    relay.shared.stateOf i ≠ some .paused

def CompletingStep (relay : Relay) (label : RelayLabel) (relay' : Relay) : Prop :=
  Step relay label relay' ∧ relay.CompletesRunning label

def CompletionAcknowledged (relay : Relay) (s i : Nat) : Prop :=
  relay.client.Holds s (fun source => source.completionSent = true ∧ source.transfer = some i) ∧
  ∃ ticket sequence status, (⟨ticket, .control i sequence .complete⟩, .status status) ∈ relay.answered

theorem CompletesRunning.endsSession (h : relay.CompletesRunning label) :
    relay.EndsSession .complete label := by
  intro copy i sequence state hlabel hstate
  cases state with
  | paused => exact absurd hstate (h copy i sequence hlabel)
  | running | cancelled | completed => rfl

theorem completion_law {now : Nat} {labels : List RelayLabel} {relay : Relay}
    (h : Run CompletingStep (.start now) labels relay) (s i : Nat)
    (hsent : relay.CompletionAcknowledged s i) : relay.Over i := by
  have hending := h.invariant (fun hi hs => hi.step hs.1 hs.2.endsSession) (Ending.start now)
  obtain ⟨-, ticket, sequence, status, hanswered⟩ := hsent
  obtain ⟨session, hsession, hinactive⟩ :=
    hending.acknowledged ⟨status, List.mem_append_right _ hanswered⟩
  exact ⟨session, hsession, .inl hinactive⟩

theorem CompletingStep.quiet (h : Step relay label relay')
    (hquiet : ∀ copy us, label ≠ .deliver copy us) : CompletingStep relay label relay' :=
  ⟨h, fun copy _ _ hlabel => absurd hlabel (hquiet copy _)⟩

theorem completion_law_solo : ∃ (labels : List RelayLabel) (relay : Relay),
    Run CompletingStep (.start 0) labels relay ∧ relay.CompletionAcknowledged 0 0 ∧
    relay.Over 0 := by
  have hrun := (@Run.nil _ _ CompletingStep (.start 0))
    |>.snoc (.quiet (.rememberSolo (ClientWorld.registryFree_of_all rfl)) nofun)
    |>.snoc (.quiet (.spawnSolo .complete) nofun)
    |>.snoc (.quiet (.client rfl (.source (t := 0) rfl rfl rfl rfl)) nofun)
    |>.snoc (.quiet (.client rfl (.source (t := 0) rfl rfl rfl rfl)) nofun)
    |>.snoc (.quiet (.client rfl (.source (t := 0) rfl rfl rfl rfl)) nofun)
    |>.snoc (.quiet (.send (t := 0) rfl) nofun)
    |>.snoc ⟨.deliver (k := 0) rfl
      (.begun rfl (fun i h => by cases h) (repeatedSecret 5) soloSession),
      fun _ _ _ h => by cases h⟩
    |>.snoc (.quiet (.answer (t := 0) (List.mem_singleton_self _) rfl (.answer rfl rfl rfl rfl)) nofun)
    |>.snoc (.quiet (.client rfl (.source (t := 0) rfl rfl rfl rfl)) nofun)
    |>.snoc (.quiet (.client rfl (.source (t := 0) rfl rfl rfl rfl)) nofun)
    |>.snoc (.quiet (.send (t := 0) rfl) nofun)
    |>.snoc ⟨.deliver (k := 0) rfl (.session (i := 0) rfl
      (not_expired rfl (by decide)) (.control rfl rfl)),
      fun _ _ _ h => by cases h; nofun⟩
    |>.snoc (.quiet (.answer (t := 0) (List.mem_of_getElem? (i := 1) rfl) rfl
      (.answer rfl rfl rfl rfl)) nofun)
    |>.snoc (.quiet (.client rfl (.source (t := 0) rfl rfl rfl rfl)) nofun)
  refine ⟨_, _, hrun, ?_, completion_law hrun 0 0 ?_⟩ <;>
    exact ⟨⟨_, rfl, rfl, rfl⟩, _, _, _, List.mem_of_getElem? (i := 1) rfl⟩

theorem paused_acknowledged (hstep : Step relay label relay')
    (hlabel : ¬relay.CompletesRunning label) : ∃ ticket i sequence,
      relay'.Acknowledged ⟨ticket, .control i sequence .complete⟩ ∧
      relay'.shared.stateOf i = some .paused := by
  simp only [CompletesRunning, Classical.not_forall, not_not] at hlabel
  obtain ⟨copy, i, sequence, rfl, hpaused⟩ := hlabel
  obtain ⟨ticket, rpc⟩ := copy
  cases hstep with
  | @deliver k _ _ entries reply hcopy hmeets =>
    rcases hmeets.applies i with hsame | ⟨sequence', opcode, session, rfl, hsession, hnew, heq⟩
    · have hkept := (hsame ⟨.running, sequence + 1, none, .empty⟩).2.1
      simp [innerAfter, Update.onInner, TransferInner.accept] at hkept
    · cases heq
      have hstate := Option.some.inj ((Shared.stateOf_eq hsession).symm.trans hpaused)
      have hafter := Shared.foldl_session hsession [.control i sequence .complete]
      refine ⟨ticket, i, sequence, ?_, ?_⟩
      · cases hmeets with
        | session hrpc hlive hserves =>
          cases hserves with
          | control => exact ⟨_, List.mem_append_left _ List.mem_concat_self⟩
          | controlFailed hfound h =>
            rcases control_cases h with ⟨-, -, hnone, -⟩ | ⟨-, hreplay, -⟩ | ⟨-, -, hnext⟩
            · cases hnone
            · cases hreplay
            · rcases hnext with hok | ⟨hother, -⟩
              · cases hok
              · cases hother
      · rw [Shared.stateOf_eq hafter, innerAfter, List.foldl_cons, List.foldl_nil, Update.onInner,
          if_pos rfl, TransferInner.accept, hstate]
        rfl

/-! A Pause is applied between the last range of a read and its Complete. -/

theorem paused_after_complete : ¬∀ (labels : List RelayLabel) (relay : Relay) (s i : Nat),
    Run Step (.start 0) labels relay → relay.CompletionAcknowledged s i → relay.Over i := by
  intro hlaw
  have hread := (@Run.nil _ _ Step (.start 0))
    |>.snoc (.rememberSolo (ClientWorld.registryFree_of_all rfl))
    |>.snoc (.spawnSolo (.readAt 5 1))
    |>.snoc (.client rfl (.source (t := 0) rfl rfl rfl rfl))
    |>.snoc (.client rfl (.source (t := 0) rfl rfl rfl rfl))
    |>.snoc (.client rfl (.source (t := 0) rfl rfl rfl rfl))
    |>.snoc (.client rfl (.source (t := 0) rfl rfl rfl rfl))
    |>.snoc (.send (t := 0) rfl)
    |>.snoc (.deliver (k := 0) rfl (.begun rfl (fun i h => by cases h) (repeatedSecret 5) soloSession))
    |>.snoc (.answer (t := 0) (List.mem_singleton_self _) rfl (.answer rfl rfl rfl rfl))
    |>.snoc (.client rfl (.source (t := 0) rfl rfl rfl rfl))
    |>.snoc (.client rfl (.source (t := 0) rfl rfl rfl rfl))
    |>.snoc (.send (t := 0) rfl)
    |>.snoc (.deliver (k := 0) rfl (.session (i := 0) rfl (not_expired rfl (by decide))
      (.range [] rfl (by decide))))
    |>.snoc (.answer (t := 0) (List.mem_of_getElem? (i := 1) rfl) rfl (.answer rfl rfl rfl rfl))
  have hpause := hread
    |>.snoc (.spawnSolo (.sendControl .pause))
    |>.snoc (.client rfl (.source (t := 1) rfl rfl rfl rfl))
    |>.snoc (.client rfl (.source (t := 1) rfl rfl rfl rfl))
    |>.snoc (.client rfl (.source (t := 1) rfl rfl rfl rfl))
    |>.snoc (.client rfl (.source (t := 0) rfl rfl rfl rfl))
    |>.snoc (.client rfl (.source (t := 0) rfl rfl rfl rfl))
  have hrun := hpause
    |>.snoc (.send (t := 1) rfl)
    |>.snoc (.deliver (k := 0) rfl (.session (i := 0) rfl (not_expired rfl (by decide))
      (.control rfl rfl)))
    |>.snoc (.answer (t := 1) (List.mem_of_getElem? (i := 2) rfl) rfl (.answer rfl rfl rfl rfl))
    |>.snoc (.send (t := 0) rfl)
    |>.snoc (.deliver (k := 0) rfl (.session (i := 0) rfl (not_expired rfl (by decide))
      (.control rfl rfl)))
    |>.snoc (.answer (t := 0) (List.mem_of_getElem? (i := 3) rfl) rfl (.answer rfl rfl rfl rfl))
  have hover := hlaw _ _ 0 0 hrun ⟨⟨_, rfl, rfl, rfl⟩, _, _, _, List.mem_of_getElem? (i := 3) rfl⟩
  obtain ⟨session, hsession, hover⟩ := hover
  cases hsession
  rcases hover with hinactive | hexpired
  · cases hinactive
  · exact absurd hexpired (by decide)

end ClipFerry.Client.Relay
