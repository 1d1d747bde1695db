import ClipFerry.Tray.TransferWindowLaw

namespace ClipFerry.Tray

open VirtualTree Product Transition

variable {window : TransferWindow} {setText : TextControl → Except String Unit}
  {snapshot : ProductSnapshot} {manifest : ProductManifestSummary}
  {transfer : ProductTransferSnapshot} {peerLabel : Text} {state : TrayState}
  {messages : List UiMessage} {message : UiMessage}

structure LastShown (messages : List UiMessage) (window : TransferWindow)
    (snapshot : ProductSnapshot) (manifest : ProductManifestSummary)
    (transfer : ProductTransferSnapshot) : Prop where
  last : ∃ before message after, messages = before ++ message :: after ∧
    message.Offers snapshot manifest transfer ∧
    ∀ later ∈ after, later.Skipped (some snapshot.transferGeneration)
  generation : window.generation = some snapshot.transferGeneration
  shows : window.Shows snapshot.activePeerLabel manifest transfer
  raised : Active transfer.state → window.visible = true ∨ window.hiddenByUser = true

theorem TransferWindow.Shows.of_rest (h : window.Shows peerLabel manifest transfer)
    {hidden visible : Bool} :
    { window with hiddenByUser := hidden, visible := visible }.Shows peerLabel manifest transfer :=
  ⟨h.texts, h.progress, h.progressState, h.pause, h.resume, h.cancel, h.primary⟩

theorem LastShown.skip (h : LastShown messages window snapshot manifest transfer)
    (hskipped : message.Skipped window.generation) :
    LastShown (messages ++ [message]) window snapshot manifest transfer where
  last := by
    obtain ⟨before, first, after, rfl, hoffers, hlater⟩ := h.last
    refine ⟨before, first, after ++ [message], by simp, hoffers, fun later hmem => ?_⟩
    rcases List.mem_append.mp hmem with hmem | hmem
    · exact hlater later hmem
    · rw [List.mem_singleton.mp hmem, ← h.generation]
      exact hskipped
  generation := h.generation
  shows := h.shows
  raised := h.raised

theorem Presented.last {old updated : TransferWindow}
    (h : Presented old setText snapshot.activePeerLabel snapshot.transferGeneration manifest
      transfer updated (.ok ())) (hoffers : message.Offers snapshot manifest transfer)
    (messages : List UiMessage) :
    LastShown (messages ++ [message]) updated snapshot manifest transfer where
  last := ⟨messages, message, [], rfl, hoffers, fun _ hmem => absurd hmem List.not_mem_nil⟩
  generation := h.current
  shows := (h.shown rfl).1
  raised hactive := by
    cases hhidden : updated.hiddenByUser with
    | false => exact .inl ((h.shown rfl).2 hactive hhidden)
    | true => exact .inr rfl

theorem LastShown.showWindow (h : LastShown messages window snapshot manifest transfer) :
    LastShown messages window.showWindow snapshot manifest transfer :=
  ⟨h.last, h.generation, h.shows.of_rest, fun _ => .inl rfl⟩

theorem LastShown.putAway (h : LastShown messages window snapshot manifest transfer) :
    LastShown messages window.putAway snapshot manifest transfer :=
  ⟨h.last, h.generation, h.shows.of_rest, fun _ => .inr rfl⟩

theorem window_shows_last (h : Run UiStep .initial messages state)
    (hset : ∀ message ∈ messages, ∀ control, message.answers.setText control = .ok ())
    (hwindow : state.transferWindow = some window) :
    ∃ snapshot manifest transfer, LastShown messages window snapshot manifest transfer := by
  induction h generalizing window with
  | nil => cases hwindow
  | @snoc labels message state state' run last ih =>
    have hbefore : ∀ old, state.transferWindow = some old → ∃ snapshot manifest transfer,
        LastShown labels old snapshot manifest transfer :=
      fun old hold => ih (fun earlier hmem => hset earlier (List.mem_append_left _ hmem)) hold
    have hmove := handle_moves (posts_of_run run) message
    rw [last] at hwindow
    generalize (state.handle message).transferWindow = after at *
    cases hmove with
    | stay hskipped =>
      obtain ⟨snapshot, manifest, transfer, hlast⟩ := hbefore window hwindow
      exact ⟨snapshot, manifest, transfer, hlast.skip (hskipped window hwindow)⟩
    | @present updated result snapshot manifest transfer hoffers hpresented _ hok =>
      cases hwindow
      have hdone := hok (hset message (List.mem_append_right _ (List.mem_singleton.mpr rfl)))
      rw [hdone] at hpresented
      exact ⟨snapshot, manifest, transfer, hpresented.last hoffers labels⟩
    | @summon updated snapshot manifest transfer _ hoffers hpresented =>
      cases hwindow
      exact ⟨snapshot, manifest, transfer, (hpresented.last hoffers labels).showWindow⟩
    | @reveal old _ hold hskipped =>
      cases hwindow
      obtain ⟨snapshot, manifest, transfer, hlast⟩ := hbefore old hold
      exact ⟨snapshot, manifest, transfer, (hlast.skip hskipped).showWindow⟩
    | @putAway old event hmessage _ hold =>
      cases hwindow
      subst hmessage
      obtain ⟨snapshot, manifest, transfer, hlast⟩ := hbefore old hold
      exact ⟨snapshot, manifest, transfer,
        (hlast.skip (skipped_of_offered rfl old.generation)).putAway⟩

theorem window_shows_last_running : ∃ window snapshot manifest transfer,
    (handleAll .initial [.timer (some (soloReceiving .running)) settingAll]).transferWindow =
      some window ∧
    LastShown [.timer (some (soloReceiving .running)) settingAll] window snapshot manifest
      transfer := by
  have hrun := handleAll_run .initial [.timer (some (soloReceiving .running)) settingAll]
  have hshown : (handleAll .initial
      [.timer (some (soloReceiving .running)) settingAll]).transferWindow.isSome = true := by decide
  obtain ⟨window, hwindow⟩ := Option.isSome_iff_exists.mp hshown
  have hset : ∀ message ∈ [UiMessage.timer (some (soloReceiving .running)) settingAll],
      ∀ control, message.answers.setText control = .ok () := by
    intro message hmem control
    rw [List.mem_singleton.mp hmem]
    rfl
  obtain ⟨snapshot, manifest, transfer, hlast⟩ := window_shows_last hrun hset hwindow
  exact ⟨window, snapshot, manifest, transfer, hwindow, hlast⟩

end ClipFerry.Tray
