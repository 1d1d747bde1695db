import ClipFerry.Tray.TransferWindowLaw

namespace ClipFerry.Tray

open Product Transition

variable {window : TransferWindow} {state : TrayState} {messages : List UiMessage}
  {message : UiMessage}

def AskedFor (messages : List UiMessage) (command : ProductCommand) : Prop :=
  ∃ before message after state, messages = before ++ message :: after ∧
    Run UiStep .initial before state ∧
    ((∃ snapshot answers, message = .tray (commandId command) snapshot answers) ∨
      ∃ window wparam, state.transferWindow = some window ∧
        message = .window (.command wparam true) ∧
        commandOf trayCommands (wparam &&& 0xffff) = some (commandId command) ∧
        (command = .cancel → window.texts .cancel = "取消".toList))

theorem AskedFor.snoc {command : ProductCommand} (h : AskedFor messages command)
    (message : UiMessage) : AskedFor (messages ++ [message]) command := by
  obtain ⟨before, first, after, state, rfl, hrun, hasked⟩ := h
  exact ⟨before, first, after ++ [message], state, by simp, hrun, hasked⟩

theorem Agrees.cancels (h : window.Agrees) :
    window.texts .cancel = "取消".toList ↔ window.primaryIsClose = false := by
  obtain ⟨state, htext, hprimary⟩ := h
  rw [htext, hprimary]
  cases state <;> decide

theorem WindowMove.agrees {before after : Option TransferWindow}
    (h : WindowMove before message after) (hset : message.answers.setText .cancel = .ok ())
    (hbefore : ∀ old, before = some old → old.Agrees) (hafter : after = some window) :
    window.Agrees := by
  have hcurrent : (before.getD .create).Agrees := by
    cases before with
    | none => exact ⟨.awaitingPaste, rfl, rfl⟩
    | some old => exact hbefore old rfl
  cases h with
  | stay => exact hbefore window hafter
  | present _ hpresented =>
    cases hafter
    exact hpresented.agrees hset hcurrent
  | summon _ _ hpresented =>
    cases hafter
    exact hpresented.agrees hset hcurrent
  | @reveal old _ hold =>
    have hold := hbefore old hold
    cases hafter
    exact hold
  | @putAway old event _ _ hold =>
    have hold := hbefore old hold
    cases hafter
    exact hold

structure Honest (messages : List UiMessage) (state : TrayState) : Prop where
  agrees : ∀ window, state.transferWindow = some window → window.Agrees
  posted : ∀ command, commandId command ∈ state.posted → AskedFor messages command
  handed : ∀ command ∈ state.handed, AskedFor messages command

theorem Clicks.asked {command : ProductCommand} (run : Run UiStep .initial messages state)
    (h : Clicks state message window (commandId command)) (hagrees : window.Agrees) :
    AskedFor (messages ++ [message]) command := by
  obtain ⟨wparam, hmessage, hcommand⟩ := h.control
  refine ⟨messages, message, [], state, rfl, run, .inr ⟨window, wparam, h.shown, hmessage,
    hcommand, fun hcancel => ?_⟩⟩
  subst hcancel
  exact (Agrees.cancels hagrees).mpr (h.live rfl)

theorem Honest.step (run : Run UiStep .initial messages state) (h : Honest messages state)
    (message : UiMessage) (hset : message.answers.setText .cancel = .ok ()) :
    Honest (messages ++ [message]) (state.handle message) where
  agrees window hwindow :=
    (handle_moves (posts_of_run run) message).agrees hset h.agrees hwindow
  posted command hmem := by
    rcases (handle_commands state message).1 _ hmem with hold | ⟨window, hclicks⟩
    · exact (h.posted command hold).snoc message
    · exact hclicks.asked run (h.agrees window hclicks.shown)
  handed command hmem := by
    rcases (handle_commands state message).2 command hmem with hold | hmenu | hqueued
    · exact (h.handed command hold).snoc message
    · exact ⟨messages, message, [], state, rfl, run, .inl hmenu⟩
    · exact (h.posted command hqueued).snoc message

end ClipFerry.Tray
