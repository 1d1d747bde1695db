import ClipFerry.Foundation.Transition
import ClipFerry.Tray.TransferWindow

namespace ClipFerry.Tray

open VirtualTree Product Transition

variable {window window' : TransferWindow} {setText : TextControl → Except String Unit}
  {text : TextControl → Text} {result : Except String Unit} {snapshot : ProductSnapshot}
  {manifest : ProductManifestSummary} {transfer : ProductTransferSnapshot} {peerLabel : Text}
  {generation : UInt64} {state state' : TrayState} {messages : List UiMessage}
  {message : UiMessage}

theorem setTexts_cases {controls : List TextControl}
    (h : TransferWindow.setTexts setText text controls window = (window', result)) :
    window' = { window with texts := window'.texts } ∧
      (∀ control ∉ controls, window'.texts control = window.texts control) ∧
      (result = .ok () → ∀ control ∈ controls, window'.texts control = text control) := by
  induction controls generalizing window with
  | nil =>
    cases h
    exact ⟨rfl, fun _ _ => rfl, fun _ _ hmem => absurd hmem List.not_mem_nil⟩
  | cons control rest ih =>
    rw [TransferWindow.setTexts] at h
    split at h
    · cases h
      exact ⟨rfl, fun _ _ => rfl, fun h => by cases h⟩
    · obtain ⟨hwindow, hother, hset⟩ := ih h
      refine ⟨hwindow, fun other hmem => ?_, fun hok other hmem => ?_⟩
      · have hne : other ≠ control := fun heq => hmem (heq ▸ List.mem_cons_self)
        rw [hother other fun hrest => hmem (List.mem_cons_of_mem _ hrest)]
        exact if_neg hne
      · by_cases hrest : other ∈ rest
        · exact hset hok other hrest
        · rw [hother other hrest]
          rcases List.mem_cons.mp hmem with rfl | hmem
          · exact if_pos rfl
          · exact absurd hmem hrest

theorem setTexts_ok (text : TextControl → Text) (window : TransferWindow)
    {controls : List TextControl}
    (hset : ∀ control ∈ controls, setText control = .ok ()) :
    (TransferWindow.setTexts setText text controls window).2 = .ok () := by
  induction controls generalizing window with
  | nil => rfl
  | cons control rest ih =>
    rw [TransferWindow.setTexts, hset control List.mem_cons_self]
    exact ih _ fun other hmem => hset other (List.mem_cons_of_mem _ hmem)

structure TransferWindow.Shows (window : TransferWindow) (peerLabel : Text)
    (manifest : ProductManifestSummary) (transfer : ProductTransferSnapshot) : Prop where
  texts : window.texts = shownText peerLabel manifest transfer
  progress : window.progress =
    progressTenths transfer.transferred transfer.totalSize.toNat transfer.state
  progressState : window.progressState = Tray.progressState transfer.state
  pause : window.pauseEnabled = decide (transfer.state = .running)
  resume : window.resumeEnabled = decide (transfer.state = .paused)
  cancel : window.cancelEnabled = true
  primary : window.primaryIsClose = terminal transfer.state

def Active (state : ProductTransferState) : Prop := state = .running ∨ state = .paused

-- the button is labelled by a state that says whether it closes the window
def TransferWindow.Agrees (window : TransferWindow) : Prop :=
  ∃ state, window.texts .cancel = cancelText state ∧ window.primaryIsClose = terminal state

structure Presented (window : TransferWindow) (setText : TextControl → Except String Unit)
    (peerLabel : Text) (generation : UInt64) (manifest : ProductManifestSummary)
    (transfer : ProductTransferSnapshot) (window' : TransferWindow)
    (result : Except String Unit) : Prop where
  current : window'.generation = some generation
  hidden : window'.hiddenByUser = (window.enter generation).hiddenByUser
  seen : window'.visible = true → window.visible = true ∨ window'.hiddenByUser = false
  kept : window.visible = true → window'.visible = true
  shown : result = .ok () → window'.Shows peerLabel manifest transfer ∧
    (Active transfer.state → window'.hiddenByUser = false → window'.visible = true)
  agrees : setText .cancel = .ok () → window.Agrees → window'.Agrees

theorem enter_generation (window : TransferWindow) (generation : UInt64) :
    (window.enter generation).generation = some generation := by
  rw [TransferWindow.enter]
  split
  · next h => exact h
  · rfl

theorem enter_rest (window : TransferWindow) (generation : UInt64) :
    (window.enter generation).visible = window.visible ∧
      (window.enter generation).texts = window.texts ∧
      (window.enter generation).primaryIsClose = window.primaryIsClose := by
  rw [TransferWindow.enter]
  split <;> exact ⟨rfl, rfl, rfl⟩

theorem appear_rest (window : TransferWindow) (state : ProductTransferState) :
    window.appear state = { window with visible := (window.appear state).visible } := by
  rw [TransferWindow.appear]
  split <;> rfl

theorem appear_visible (window : TransferWindow) (state : ProductTransferState) :
    ((window.appear state).visible = true → window.visible = true ∨ window.hiddenByUser = false) ∧
      (window.visible = true → (window.appear state).visible = true) ∧
      (Active state → window.hiddenByUser = false → (window.appear state).visible = true) := by
  rw [TransferWindow.appear]
  split
  · next h => exact ⟨fun _ => .inr h.2.1, fun _ => rfl, fun _ _ => rfl⟩
  · next h =>
    refine ⟨.inl, id, fun hactive hhidden => ?_⟩
    by_contra hvisible
    exact h ⟨hactive, hhidden, Bool.eq_false_iff.mpr hvisible⟩

theorem mem_describedControls {control : TextControl} (h : control ≠ .cancel) :
    control ∈ TransferWindow.describedControls := by
  cases control <;> first | exact absurd rfl h | decide

theorem labelled_texts {described labelled : TransferWindow}
    (hdescribed : ∀ control ∈ TransferWindow.describedControls,
      described.texts control = text control)
    (hother : ∀ control ∉ [TextControl.cancel], labelled.texts control = described.texts control)
    (hcancel : labelled.texts .cancel = text .cancel) : labelled.texts = text := by
  funext control
  by_cases hlast : control = .cancel
  · rw [hlast]
    exact hcancel
  · rw [hother control fun hmem => hlast (List.mem_singleton.mp hmem)]
    exact hdescribed control (mem_describedControls hlast)

theorem present_cases
    (h : window.present setText peerLabel generation manifest transfer = (window', result)) :
    Presented window setText peerLabel generation manifest transfer window' result := by
  obtain ⟨hvisible, htexts, hprimary⟩ := enter_rest window generation
  rw [TransferWindow.present] at h
  split at h
  · next described error hdescribed =>
    obtain ⟨hkept, hother, -⟩ := setTexts_cases hdescribed
    cases h
    rw [hkept]
    refine ⟨enter_generation window generation, rfl, fun h => .inl (hvisible ▸ h),
      fun h => hvisible ▸ h, fun h => (by cases h), fun _ ⟨state, htext, hclose⟩ => ?_⟩
    exact ⟨state, (hother .cancel (by decide)).trans (htexts ▸ htext), hprimary.trans hclose⟩
  · next described hdescribed =>
    obtain ⟨hkept, -, hset⟩ := setTexts_cases hdescribed
    split at h
    · next labelled error hlabelled =>
      obtain ⟨hrest, -, -⟩ := setTexts_cases hlabelled
      cases h
      rw [hrest, hkept]
      refine ⟨enter_generation window generation, rfl, fun h => .inl (hvisible ▸ h),
        fun h => hvisible ▸ h, fun h => (by cases h), fun hcancel _ => ?_⟩
      rw [TransferWindow.setTexts, hcancel] at hlabelled
      cases hlabelled
    · next labelled hlabelled =>
      obtain ⟨hrest, hother, hcancel⟩ := setTexts_cases hlabelled
      have hlabel : labelled.texts = shownText peerLabel manifest transfer :=
        labelled_texts (hset rfl) hother (hcancel rfl .cancel (List.mem_singleton.mpr rfl))
      cases h
      obtain ⟨happear, hstays, hraised⟩ :=
        appear_visible (labelled.controls transfer) transfer.state
      have hvis : labelled.visible = window.visible := by
        rw [hrest, hkept]
        exact hvisible
      have hhid : labelled.hiddenByUser = (window.enter generation).hiddenByUser := by
        rw [hrest, hkept]
      have hgen : labelled.generation = some generation := by
        rw [hrest, hkept]
        exact enter_generation window generation
      have hclose : labelled.primaryIsClose = terminal transfer.state := by
        rw [hrest]
      have hsame := appear_rest (labelled.controls transfer) transfer.state
      generalize (labelled.controls transfer).appear transfer.state = raised at *
      have hhidden : raised.hiddenByUser = labelled.hiddenByUser := by
        rw [hsame]
        rfl
      refine ⟨?_, hhidden.trans hhid, fun h => ?_, fun h => hstays (hvis.trans h),
        fun _ => ⟨?_, fun hactive h => hraised hactive (hhidden.symm.trans h)⟩, fun _ _ => ?_⟩
      · rw [hsame]
        exact hgen
      · rcases happear h with h | h
        · exact .inl (hvis ▸ h)
        · exact .inr (hhidden.trans h)
      · rw [hsame]
        exact ⟨hlabel, rfl, rfl, rfl, rfl, rfl, hclose⟩
      · refine ⟨transfer.state, ?_, ?_⟩
        · rw [hsame]
          exact congrFun hlabel .cancel
        · rw [hsame]
          exact hclose

theorem present_ok (window : TransferWindow) (peerLabel : Text) (generation : UInt64)
    (manifest : ProductManifestSummary) (transfer : ProductTransferSnapshot)
    (hset : ∀ control, setText control = .ok ()) :
    (window.present setText peerLabel generation manifest transfer).2 = .ok () := by
  have hdescribes : ∀ control ∈ TransferWindow.describedControls, setText control = .ok () :=
    fun control _ => hset control
  have hfirst := setTexts_ok (shownText peerLabel manifest transfer) (window.enter generation)
    hdescribes
  rw [TransferWindow.present]
  split
  · next described error hdescribed =>
    rw [hdescribed] at hfirst
    cases hfirst
  · next described hdescribed =>
    have hlabels : ∀ control ∈ [TextControl.cancel], setText control = .ok () :=
      fun control _ => hset control
    have hlast := setTexts_ok (shownText peerLabel manifest transfer)
      { described with primaryIsClose := terminal transfer.state } hlabels
    split
    · next labelled error hlabelled =>
      rw [hlabelled] at hlast
      cases hlast
    · rfl

theorem receivedTransfer_eq_some :
    receivedTransfer snapshot = some (manifest, transfer) ↔
      snapshot.lastManifest = some manifest ∧ manifest.direction = "接收" ∧
        snapshot.transfer = some transfer := by
  rw [receivedTransfer]
  constructor
  · intro h
    split at h
    · next hmanifest htransfer =>
      cases h
      obtain ⟨hlast, hdirection⟩ := Option.filter_eq_some_iff.mp hmanifest
      exact ⟨hlast, of_decide_eq_true hdirection, htransfer⟩
    · cases h
  · rintro ⟨hmanifest, hdirection, htransfer⟩
    rw [hmanifest, htransfer, Option.filter_some, if_pos (decide_eq_true hdirection)]

theorem hasReceiverTransfer_iff :
    hasReceiverTransfer snapshot = true ↔
      ∃ manifest transfer, receivedTransfer snapshot = some (manifest, transfer) := by
  simp only [receivedTransfer_eq_some, hasReceiverTransfer, Bool.and_eq_true,
    Option.isSome_iff_exists, Option.any_eq_true, decide_eq_true_eq]
  constructor
  · rintro ⟨⟨transfer, htransfer⟩, manifest, hmanifest, hdirection⟩
    exact ⟨manifest, transfer, hmanifest, hdirection, htransfer⟩
  · rintro ⟨manifest, transfer, hmanifest, hdirection, htransfer⟩
    exact ⟨⟨transfer, htransfer⟩, manifest, hmanifest, hdirection⟩

namespace UiMessage

def offered : UiMessage → Option ProductSnapshot
  | .timer snapshot _ => snapshot
  | .tray command snapshot _ => if command = commandTransferWindow then snapshot else none
  | .posted _ _ | .window _ => none

def answers : UiMessage → WindowAnswers
  | .timer _ answers | .tray _ _ answers | .posted _ answers => answers
  | .window _ => ⟨.ok (), fun _ => .ok ()⟩

def Summons : UiMessage → Prop
  | .tray command _ _ => command = commandTransferWindow
  | .timer _ _ | .posted _ _ | .window _ => False

def Offers (message : UiMessage) (snapshot : ProductSnapshot) (manifest : ProductManifestSummary)
    (transfer : ProductTransferSnapshot) : Prop :=
  message.offered = some snapshot ∧ receivedTransfer snapshot = some (manifest, transfer)

def Skipped (displayed : Option UInt64) (message : UiMessage) : Prop :=
  ∀ snapshot manifest transfer, message.Offers snapshot manifest transfer →
    shouldPresentGeneration displayed snapshot.transferGeneration transfer.state = false

end UiMessage

inductive WindowMove (before : Option TransferWindow) (message : UiMessage) :
    Option TransferWindow → Prop
  | stay (hskipped : ∀ old, before = some old → message.Skipped old.generation) :
      WindowMove before message before
  | present {updated : TransferWindow} {result : Except String Unit}
      {snapshot : ProductSnapshot} {manifest : ProductManifestSummary}
      {transfer : ProductTransferSnapshot} (hoffers : message.Offers snapshot manifest transfer)
      (hpresented : Presented (before.getD .create) message.answers.setText
        snapshot.activePeerLabel snapshot.transferGeneration manifest transfer updated result)
      (hshould : shouldPresentGeneration (before.getD .create).generation
        snapshot.transferGeneration transfer.state = true)
      (hok : (∀ control, message.answers.setText control = .ok ()) → result = .ok ()) :
      WindowMove before message (some updated)
  | summon {updated : TransferWindow} {snapshot : ProductSnapshot}
      {manifest : ProductManifestSummary} {transfer : ProductTransferSnapshot}
      (hsummons : message.Summons) (hoffers : message.Offers snapshot manifest transfer)
      (hpresented : Presented (before.getD .create) message.answers.setText
        snapshot.activePeerLabel snapshot.transferGeneration manifest transfer updated (.ok ())) :
      WindowMove before message (some updated.showWindow)
  | reveal {old : TransferWindow} (hsummons : message.Summons) (hbefore : before = some old)
      (hskipped : message.Skipped old.generation) : WindowMove before message (some old.showWindow)
  | putAway {old : TransferWindow} {event : WindowMessage} (hmessage : message = .window event)
      (hprocedure : (transferWindowProcedure trayCommands old event).1 = old.putAway)
      (hbefore : before = some old) : WindowMove before message (some old.putAway)

theorem update_cases (h : window.update setText snapshot = (window', result)) :
    (window' = window ∧ result = .ok () ∧ ∀ manifest transfer,
      receivedTransfer snapshot = some (manifest, transfer) →
        shouldPresentGeneration window.generation snapshot.transferGeneration transfer.state =
          false) ∨
    ∃ manifest transfer, receivedTransfer snapshot = some (manifest, transfer) ∧
      shouldPresentGeneration window.generation snapshot.transferGeneration transfer.state = true ∧
      Presented window setText snapshot.activePeerLabel snapshot.transferGeneration manifest
        transfer window' result ∧
      ((∀ control, setText control = .ok ()) → result = .ok ()) := by
  rw [TransferWindow.update] at h
  split at h
  · next hreceived =>
    cases h
    refine .inl ⟨rfl, rfl, fun manifest transfer hsome => ?_⟩
    rw [hreceived] at hsome
    cases hsome
  · next manifest transfer hreceived =>
    split at h
    · next hskipped =>
      cases h
      refine .inl ⟨rfl, rfl, fun manifest transfer hsome => ?_⟩
      rw [hreceived] at hsome
      cases hsome
      exact hskipped
    · next hshould =>
      refine .inr ⟨manifest, transfer, hreceived, Bool.not_eq_false _ |>.mp hshould,
        present_cases h, fun hset => ?_⟩
      have hok := present_ok window snapshot.activePeerLabel snapshot.transferGeneration manifest
        transfer hset
      rw [h] at hok
      exact hok

theorem ensureTransferWindow_eq_ok {answers : WindowAnswers}
    (h : state.ensureTransferWindow answers = .ok window) :
    window = state.transferWindow.getD .create := by
  rw [TrayState.ensureTransferWindow] at h
  split at h
  · next hsome =>
    cases h
    rw [hsome]
    rfl
  · next hnone =>
    rw [hnone]
    cases hcreate : answers.create with
    | ok done =>
      rw [hcreate] at h
      cases h
      rfl
    | error error =>
      rw [hcreate] at h
      cases h

theorem ensureTransferWindow_eq_error {answers : WindowAnswers} {error : String}
    (h : state.ensureTransferWindow answers = .error error) : state.transferWindow = none := by
  rw [TrayState.ensureTransferWindow] at h
  split at h
  · cases h
  · next hnone => exact hnone

theorem filter_eq_none {snapshot : Option ProductSnapshot}
    (h : snapshot.filter (hasReceiverTransfer ·) = none) {shown : ProductSnapshot}
    (hshown : snapshot = some shown) : receivedTransfer shown ≠ some (manifest, transfer) := by
  intro hreceived
  have hhas := hasReceiverTransfer_iff.mpr ⟨manifest, transfer, hreceived⟩
  rw [hshown, Option.filter_some, if_pos hhas] at h
  cases h

theorem offered_moves {before : Option TransferWindow} {shown : ProductSnapshot}
    {updated : TransferWindow} (hoffered : message.offered = some shown)
    (hhas : hasReceiverTransfer shown = true)
    (hupdate : (before.getD .create).update message.answers.setText shown = (updated, result)) :
    (before = some updated ∧ result = .ok () ∧ message.Skipped updated.generation) ∨
    ∃ manifest transfer, message.Offers shown manifest transfer ∧
      shouldPresentGeneration (before.getD .create).generation shown.transferGeneration
        transfer.state = true ∧
      Presented (before.getD .create) message.answers.setText shown.activePeerLabel
        shown.transferGeneration manifest transfer updated result ∧
      ((∀ control, message.answers.setText control = .ok ()) → result = .ok ()) := by
  rcases update_cases hupdate with ⟨rfl, hok, hskipped⟩ |
    ⟨manifest, transfer, hreceived, hshould, hpresented, hok⟩
  · obtain ⟨manifest, transfer, hreceived⟩ := hasReceiverTransfer_iff.mp hhas
    cases before with
    | none => cases hskipped manifest transfer hreceived
    | some old =>
      refine .inl ⟨rfl, hok, fun snapshot manifest transfer hoffers => ?_⟩
      obtain rfl := Option.some.inj (hoffered.symm.trans hoffers.1)
      exact hskipped manifest transfer hoffers.2
  · exact .inr ⟨manifest, transfer, ⟨hoffered, hreceived⟩, hshould, hpresented, hok⟩

theorem stay_of_filtered {before : Option TransferWindow} {snapshot : Option ProductSnapshot}
    (hoffered : message.offered = snapshot)
    (hnone : snapshot.filter (hasReceiverTransfer ·) = none) : WindowMove before message before :=
  .stay fun _ _ _ _ _ hoffers =>
    absurd hoffers.2 (filter_eq_none hnone (hoffered.symm.trans hoffers.1))

theorem stay_of_uncreated {answers : WindowAnswers} {error : String}
    (h : state.ensureTransferWindow answers = .error error) :
    WindowMove state.transferWindow message state.transferWindow := by
  refine .stay fun old hold => ?_
  rw [ensureTransferWindow_eq_error h] at hold
  cases hold

theorem refreshUi_moves (state : TrayState) (snapshot : Option ProductSnapshot)
    (answers : WindowAnswers) :
    WindowMove state.transferWindow (.timer snapshot answers)
      (state.refreshUi snapshot answers).transferWindow := by
  rw [TrayState.refreshUi]
  split
  · next hnone => exact stay_of_filtered rfl hnone
  · next shown hshown =>
    obtain ⟨rfl, hhas⟩ := Option.filter_eq_some_iff.mp hshown
    split
    · next error herror => exact stay_of_uncreated herror
    · next window hwindow =>
      obtain rfl := ensureTransferWindow_eq_ok hwindow
      have hmove : ∀ updated result, (state.transferWindow.getD .create).update answers.setText
          shown = (updated, result) → WindowMove state.transferWindow
            (.timer (some shown) answers) (some updated) := by
        intro updated result hupdate
        have hoffered : (UiMessage.timer (some shown) answers).offered = some shown := rfl
        rcases offered_moves hoffered hhas hupdate with
          ⟨hbefore, -, hskipped⟩ | ⟨manifest, transfer, hoffers, hshould, hpresented, hok⟩
        · rw [← hbefore]
          refine .stay fun old hold => ?_
          rw [hbefore] at hold
          cases hold
          exact hskipped
        · exact .present hoffers hpresented hshould hok
      split
      · next updated hupdate => exact hmove _ _ hupdate
      · next updated error hupdate => exact hmove _ _ hupdate

theorem showTransferWindow_moves (state : TrayState) (snapshot : Option ProductSnapshot)
    (answers : WindowAnswers) :
    WindowMove state.transferWindow (.tray commandTransferWindow snapshot answers)
      (state.showTransferWindow snapshot answers).transferWindow := by
  rw [TrayState.showTransferWindow]
  split
  · next hnone => exact stay_of_filtered rfl hnone
  · next shown hshown =>
    obtain ⟨rfl, hhas⟩ := Option.filter_eq_some_iff.mp hshown
    split
    · next error herror => exact stay_of_uncreated herror
    · next window hwindow =>
      obtain rfl := ensureTransferWindow_eq_ok hwindow
      have hoffered : (UiMessage.tray commandTransferWindow (some shown) answers).offered =
        some shown := rfl
      split
      · next updated hupdate =>
        rcases offered_moves hoffered hhas hupdate with
          ⟨hbefore, -, hskipped⟩ | ⟨manifest, transfer, hoffers, -, hpresented, -⟩
        · exact .reveal rfl hbefore hskipped
        · exact .summon rfl hoffers hpresented
      · next updated error hupdate =>
        rcases offered_moves hoffered hhas hupdate with
          ⟨-, hok, -⟩ | ⟨manifest, transfer, hoffers, hshould, hpresented, hok⟩
        · cases hok
        · exact .present hoffers hpresented hshould hok

@[simp] theorem productCommand_transferWindow (state : TrayState)
    (snapshot : Option ProductSnapshot) (command : ProductCommand) :
    (state.productCommand snapshot command).transferWindow = state.transferWindow := by
  rw [TrayState.productCommand]
  split <;> rfl

theorem handleCommand_transferWindow {command : Nat} (h : command ≠ commandTransferWindow)
    (state : TrayState) (snapshot : Option ProductSnapshot) (answers : WindowAnswers) :
    (state.handleCommand command snapshot answers).transferWindow = state.transferWindow := by
  rw [TrayState.handleCommand, if_neg h]
  split_ifs <;> first | rfl | exact productCommand_transferWindow ..

theorem skipped_of_offered (h : message.offered = none) (displayed : Option UInt64) :
    message.Skipped displayed := by
  intro snapshot manifest transfer hoffers
  cases h.symm.trans hoffers.1

theorem stay_of_offered {before : Option TransferWindow} (h : message.offered = none) :
    WindowMove before message before :=
  .stay fun old _ => skipped_of_offered h old.generation

theorem handleCommand_moves (command : Nat) (state : TrayState)
    (snapshot : Option ProductSnapshot) (answers : WindowAnswers) :
    WindowMove state.transferWindow (.tray command snapshot answers)
      (state.handleCommand command snapshot answers).transferWindow := by
  by_cases hcommand : command = commandTransferWindow
  · subst hcommand
    exact showTransferWindow_moves state snapshot answers
  · rw [handleCommand_transferWindow hcommand]
    exact stay_of_offered (if_neg hcommand)

def TrayState.Posts (state : TrayState) : Prop :=
  ∀ command ∈ state.posted, command = commandPause ∨ command = commandResume ∨
    command = commandCancel

theorem commandOf_trayCommands {control command : Nat}
    (h : commandOf trayCommands control = some command) :
    (control = controlPause ∧ command = commandPause) ∨
      (control = controlResume ∧ command = commandResume) ∨
      (control = controlCancel ∧ command = commandCancel) := by
  rw [commandOf] at h
  split_ifs at h with hpause hresume hcancel <;> cases h
  · exact .inl ⟨hpause, rfl⟩
  · exact .inr (.inl ⟨hresume, rfl⟩)
  · exact .inr (.inr ⟨hcancel, rfl⟩)

theorem procedure_cases (window : TransferWindow) (message : WindowMessage) :
    ((transferWindowProcedure trayCommands window message).1 = window ∨
      (transferWindowProcedure trayCommands window message).1 = window.putAway) ∧
    ∀ command, (transferWindowProcedure trayCommands window message).2 = some command →
      ∃ wparam, message = .command wparam true ∧
        commandOf trayCommands (wparam &&& 0xffff) = some command ∧
        (wparam &&& 0xffff = controlCancel → window.primaryIsClose = false) := by
  cases message with
  | command wparam delivered =>
    rw [transferWindowProcedure]
    split
    · exact ⟨.inr rfl, fun command h => by cases h⟩
    · next hopen =>
      split
      · exact ⟨.inl rfl, fun command h => by cases h⟩
      · next posted hposted =>
        refine ⟨?_, fun command h => ?_⟩
        · split
          · exact .inr rfl
          · exact .inl rfl
        · cases delivered with
          | false => cases h
          | true =>
            cases h
            refine ⟨wparam, rfl, hposted, fun hcancel => ?_⟩
            exact Bool.eq_false_iff.mpr fun hprimary => hopen ⟨hcancel, hprimary⟩
  | close => exact ⟨.inr rfl, fun command h => by cases h⟩
  | sysCommand wparam =>
    rw [transferWindowProcedure]
    split
    · exact ⟨.inr rfl, fun command h => by cases h⟩
    · exact ⟨.inl rfl, fun command h => by cases h⟩
  | other => exact ⟨.inl rfl, fun command h => by cases h⟩

theorem handle_moves (hposts : state.Posts) (message : UiMessage) :
    WindowMove state.transferWindow message (state.handle message).transferWindow := by
  cases message with
  | timer snapshot answers => exact refreshUi_moves state snapshot answers
  | tray command snapshot answers => exact handleCommand_moves command state snapshot answers
  | posted snapshot answers =>
    rw [TrayState.handle]
    split
    · exact stay_of_offered rfl
    · next command rest hqueue =>
      have hcommand : command ≠ commandTransferWindow := by
        rcases hposts command (by rw [hqueue]; exact List.mem_cons_self) with rfl | rfl | rfl <;>
          decide
      rw [handleCommand_transferWindow hcommand]
      exact stay_of_offered rfl
  | window message =>
    rw [TrayState.handle]
    split
    · exact stay_of_offered rfl
    · next window hwindow =>
      rcases (procedure_cases window message).1 with hsame | haway
      · dsimp only
        rw [hsame, ← hwindow]
        exact stay_of_offered rfl
      · dsimp only
        rw [haway]
        exact .putAway rfl haway hwindow

theorem refreshUi_commands (state : TrayState) (snapshot : Option ProductSnapshot)
    (answers : WindowAnswers) :
    (state.refreshUi snapshot answers).posted = state.posted ∧
      (state.refreshUi snapshot answers).handed = state.handed := by
  rw [TrayState.refreshUi]
  repeat' split
  all_goals exact ⟨rfl, rfl⟩

theorem showTransferWindow_commands (state : TrayState) (snapshot : Option ProductSnapshot)
    (answers : WindowAnswers) :
    (state.showTransferWindow snapshot answers).posted = state.posted ∧
      (state.showTransferWindow snapshot answers).handed = state.handed := by
  rw [TrayState.showTransferWindow]
  repeat' split
  all_goals exact ⟨rfl, rfl⟩

def commandId : ProductCommand → Nat
  | .acceptPending => commandAcceptPending
  | .pause => commandPause
  | .resume => commandResume
  | .cancel => commandCancel

theorem productCommand_commands (state : TrayState) (snapshot : Option ProductSnapshot)
    (command : ProductCommand) :
    (state.productCommand snapshot command).posted = state.posted ∧
      ∀ handed ∈ (state.productCommand snapshot command).handed,
        handed ∈ state.handed ∨ handed = command := by
  rw [TrayState.productCommand]
  split
  · exact ⟨rfl, fun handed hmem => (List.mem_append.mp hmem).imp_right List.mem_singleton.mp⟩
  · exact ⟨rfl, fun handed hmem => .inl hmem⟩

theorem handleCommand_commands (state : TrayState) (command : Nat)
    (snapshot : Option ProductSnapshot) (answers : WindowAnswers) :
    (state.handleCommand command snapshot answers).posted = state.posted ∧
      ∀ handed ∈ (state.handleCommand command snapshot answers).handed,
        handed ∈ state.handed ∨ commandId handed = command := by
  have hproduct : ∀ product, commandId product = command →
      (state.productCommand snapshot product).posted = state.posted ∧
        ∀ handed ∈ (state.productCommand snapshot product).handed,
          handed ∈ state.handed ∨ commandId handed = command := by
    intro product hid
    obtain ⟨hposted, hhanded⟩ := productCommand_commands state snapshot product
    refine ⟨hposted, fun handed hmem => (hhanded handed hmem).imp_right fun hsame => ?_⟩
    rw [hsame]
    exact hid
  rw [TrayState.handleCommand]
  split_ifs with haccept hwindow hpause hresume hcancel
  · exact hproduct _ haccept.symm
  · obtain ⟨hposted, hhanded⟩ := showTransferWindow_commands state snapshot answers
    exact ⟨hposted, fun handed hmem => .inl (hhanded ▸ hmem)⟩
  · exact hproduct _ hpause.symm
  · exact hproduct _ hresume.symm
  · exact hproduct _ hcancel.symm
  · exact ⟨rfl, fun handed hmem => .inl hmem⟩

structure Clicks (state : TrayState) (message : UiMessage) (window : TransferWindow)
    (command : Nat) : Prop where
  shown : state.transferWindow = some window
  control : ∃ wparam, message = .window (.command wparam true) ∧
    commandOf trayCommands (wparam &&& 0xffff) = some command
  live : command = commandCancel → window.primaryIsClose = false

theorem handle_commands (state : TrayState) (message : UiMessage) :
    (∀ command ∈ (state.handle message).posted,
      command ∈ state.posted ∨ ∃ window, Clicks state message window command) ∧
    ∀ handed ∈ (state.handle message).handed, handed ∈ state.handed ∨
      (∃ snapshot answers, message = .tray (commandId handed) snapshot answers) ∨
      commandId handed ∈ state.posted := by
  cases message with
  | timer snapshot answers =>
    obtain ⟨hposted, hhanded⟩ := refreshUi_commands state snapshot answers
    exact ⟨fun command hmem => .inl (hposted ▸ hmem), fun handed hmem => .inl (hhanded ▸ hmem)⟩
  | tray command snapshot answers =>
    obtain ⟨hposted, hhanded⟩ := handleCommand_commands state command snapshot answers
    refine ⟨fun command hmem => .inl (hposted ▸ hmem), fun handed hmem => ?_⟩
    refine (hhanded handed hmem).imp_right fun hid => .inl ⟨snapshot, answers, ?_⟩
    rw [hid]
  | posted snapshot answers =>
    rw [TrayState.handle]
    split
    · exact ⟨fun command hmem => .inl hmem, fun handed hmem => .inl hmem⟩
    · next command rest hqueue =>
      obtain ⟨hposted, hhanded⟩ :=
        handleCommand_commands { state with posted := rest } command snapshot answers
      rw [hqueue]
      refine ⟨fun other hmem => .inl ?_, fun handed hmem => ?_⟩
      · rw [hposted] at hmem
        exact List.mem_cons_of_mem _ hmem
      · refine (hhanded handed hmem).imp_right fun hid => .inr ?_
        rw [hid]
        exact List.mem_cons_self
  | window message =>
    rw [TrayState.handle]
    split
    · exact ⟨fun command hmem => .inl hmem, fun handed hmem => .inl hmem⟩
    · next window hwindow =>
      refine ⟨fun command hmem => ?_, fun handed hmem => .inl hmem⟩
      refine (List.mem_append.mp hmem).imp_right fun hnew => ⟨window, ?_⟩
      obtain ⟨wparam, rfl, hcommand, hlive⟩ :=
        (procedure_cases window message).2 command (Option.mem_toList.mp hnew)
      refine ⟨hwindow, ⟨wparam, rfl, hcommand⟩, fun hcancel => hlive ?_⟩
      rcases commandOf_trayCommands hcommand with ⟨-, rfl⟩ | ⟨-, rfl⟩ | ⟨hcontrol, -⟩
      · cases hcancel
      · cases hcancel
      · exact hcontrol

theorem Posts.step (h : state.Posts) (message : UiMessage) : (state.handle message).Posts := by
  intro command hmem
  rcases (handle_commands state message).1 command hmem with hold | ⟨window, hclicks⟩
  · exact h command hold
  · obtain ⟨wparam, -, hcommand⟩ := hclicks.control
    rcases commandOf_trayCommands hcommand with ⟨-, h⟩ | ⟨-, h⟩ | ⟨-, h⟩
    · exact .inl h
    · exact .inr (.inl h)
    · exact .inr (.inr h)

theorem posts_of_run (h : Run UiStep .initial messages state) : state.Posts := by
  refine h.invariant (I := TrayState.Posts) (fun hposts hstep => ?_) fun _ hmem => ?_
  · rw [hstep]
    exact Posts.step hposts _
  · exact absurd hmem List.not_mem_nil

theorem Presented.hidden_cases {window updated : TransferWindow}
    (h : Presented window setText peerLabel generation manifest transfer updated result)
    (hhidden : updated.hiddenByUser = true) :
    window.hiddenByUser = true ∧ window.generation = updated.generation := by
  rw [h.hidden, TransferWindow.enter] at hhidden
  split at hhidden
  · next hsame => exact ⟨hhidden, hsame.trans h.current.symm⟩
  · cases hhidden

structure TransferWindow.Settled (window : TransferWindow) : Prop where
  hidden : window.hiddenByUser = true → window.visible = false
  generation : window.generation.isSome = true

theorem Presented.settled {window updated : TransferWindow}
    (h : Presented window setText peerLabel generation manifest transfer updated result)
    (hhidden : window.hiddenByUser = true → window.visible = false) : updated.Settled where
  hidden hupdated := by
    by_contra hvisible
    rcases h.seen (Bool.not_eq_false _ |>.mp hvisible) with hseen | hopen
    · rw [hhidden (h.hidden_cases hupdated).1] at hseen
      cases hseen
    · rw [hupdated] at hopen
      cases hopen
  generation := by rw [h.current]; rfl

theorem showWindow_settled (h : window.generation.isSome = true) : window.showWindow.Settled :=
  ⟨fun hhidden => (by cases hhidden), h⟩

theorem WindowMove.settled {before after : Option TransferWindow}
    (h : WindowMove before message after) (hbefore : ∀ old, before = some old → old.Settled)
    (hafter : after = some window) : window.Settled := by
  have hhidden : (before.getD .create).hiddenByUser = true →
      (before.getD .create).visible = false := by
    cases before with
    | none => exact fun _ => rfl
    | some old => exact (hbefore old rfl).hidden
  cases h with
  | stay => exact hbefore window hafter
  | present _ hpresented =>
    cases hafter
    exact hpresented.settled hhidden
  | summon _ _ hpresented =>
    cases hafter
    exact showWindow_settled (hpresented.settled hhidden).generation
  | reveal _ hold =>
    cases hafter
    exact showWindow_settled (hbefore _ hold).generation
  | putAway _ _ hold =>
    cases hafter
    exact ⟨fun _ => rfl, (hbefore _ hold).generation⟩

theorem settled_of_run (h : Run UiStep .initial messages state)
    (hwindow : state.transferWindow = some window) : window.Settled := by
  induction h generalizing window with
  | nil => cases hwindow
  | @snoc labels message state state' run last ih =>
    rw [last] at hwindow
    exact (handle_moves (posts_of_run run) message).settled (fun _ => ih) hwindow

def UiMessage.KeepsAway (generation : UInt64) (message : UiMessage) : Prop :=
  ¬message.Summons ∧ ∀ snapshot manifest transfer, message.Offers snapshot manifest transfer →
    snapshot.transferGeneration = generation ∨ transfer.state = .awaitingPaste

def TransferWindow.Away (window : TransferWindow) (generation : UInt64) : Prop :=
  window.hiddenByUser = true ∧ window.visible = false ∧ window.generation = some generation

theorem WindowMove.keeps_away {after : Option TransferWindow}
    (h : WindowMove (some window) message after) (haway : window.Away generation)
    (hkeeps : message.KeepsAway generation) :
    ∃ window', after = some window' ∧ window'.Away generation := by
  obtain ⟨hhidden, hvisible, hgeneration⟩ := haway
  cases h with
  | stay => exact ⟨window, rfl, hhidden, hvisible, hgeneration⟩
  | @present updated result snapshot manifest transfer hoffers hpresented hshould hok =>
    rw [Option.getD_some] at hpresented hshould
    have hsame : snapshot.transferGeneration = generation := by
      rcases hkeeps.2 snapshot manifest transfer hoffers with hsame | hawaiting
      · exact hsame
      · rw [hgeneration, hawaiting, shouldPresentGeneration] at hshould
        simpa [eq_comm] using hshould
    have hstill : updated.hiddenByUser = true := by
      rw [hpresented.hidden, hsame, TransferWindow.enter, if_pos hgeneration]
      exact hhidden
    exact ⟨updated, rfl, hstill, (hpresented.settled fun _ => hvisible).hidden hstill,
      hpresented.current.trans (congrArg some hsame)⟩
  | summon hsummons => exact absurd hsummons hkeeps.1
  | reveal hsummons => exact absurd hsummons hkeeps.1
  | putAway _ _ hold =>
    cases hold
    exact ⟨_, rfl, rfl, rfl, hgeneration⟩

theorem stays_away_of_run {later : List UiMessage} (hposts : state.Posts)
    (h : Run UiStep state later state') (hwindow : state.transferWindow = some window)
    (haway : window.Away generation)
    (hkeeps : ∀ message ∈ later, message.KeepsAway generation) :
    ∃ window', state'.transferWindow = some window' ∧ window'.Away generation := by
  have hall : state'.Posts ∧
      ∃ window', state'.transferWindow = some window' ∧ window'.Away generation := by
    induction h with
    | nil => exact ⟨hposts, window, hwindow, haway⟩
    | @snoc labels message middle last run hstep ih =>
      obtain ⟨hmiddle, window', hsome, haway'⟩ :=
        ih fun message hmem => hkeeps message (List.mem_append_left _ hmem)
      have hmove := handle_moves hmiddle message
      rw [hsome] at hmove
      rw [hstep]
      exact ⟨Posts.step hmiddle message, hmove.keeps_away haway'
        (hkeeps message (List.mem_append_right _ (List.mem_singleton.mpr rfl)))⟩
  exact hall.2

theorem WindowMove.raises {after : Option TransferWindow} {snapshot : ProductSnapshot}
    (h : WindowMove (some window) message after) (hoffers : message.Offers snapshot manifest transfer)
    (hset : ∀ control, message.answers.setText control = .ok ()) (hsummons : ¬message.Summons)
    (hother : window.generation ≠ some snapshot.transferGeneration)
    (hactive : Active transfer.state) : ∃ window', after = some window' ∧ window'.visible = true := by
  have hshould : ∀ displayed, shouldPresentGeneration displayed snapshot.transferGeneration
      transfer.state = true := by
    intro displayed
    rw [shouldPresentGeneration, Bool.or_eq_true]
    rcases hactive with hstate | hstate
    · exact .inr (by rw [hstate]; rfl)
    · exact .inr (by rw [hstate]; rfl)
  cases h with
  | stay hskipped =>
    have hskip := hskipped window rfl snapshot manifest transfer hoffers
    rw [hshould] at hskip
    cases hskip
  | @present updated result shown manifest' transfer' hshown hpresented _ hok =>
    obtain rfl := Option.some.inj (hoffers.1.symm.trans hshown.1)
    obtain ⟨rfl, rfl⟩ := Prod.mk.inj (Option.some.inj (hoffers.2.symm.trans hshown.2))
    refine ⟨updated, rfl, (hpresented.shown (hok hset)).2 hactive ?_⟩
    rw [hpresented.hidden, Option.getD_some, TransferWindow.enter, if_neg hother]
  | summon h => exact absurd h hsummons
  | reveal h => exact absurd h hsummons
  | putAway hmessage =>
    subst hmessage
    cases hoffers.1

def PutAwayBefore (messages : List UiMessage) (window : TransferWindow) : Prop :=
  ∃ before event after middle old, messages = before ++ UiMessage.window event :: after ∧
    Run UiStep .initial before middle ∧ middle.transferWindow = some old ∧
    (transferWindowProcedure trayCommands old event).1 = old.putAway ∧
    old.generation = window.generation

theorem PutAwayBefore.snoc {old : TransferWindow} (h : PutAwayBefore messages old)
    (hsame : old.generation = window.generation) (message : UiMessage) :
    PutAwayBefore (messages ++ [message]) window := by
  obtain ⟨before, event, after, middle, shown, rfl, hrun, hshown, haway, hgeneration⟩ := h
  exact ⟨before, event, after ++ [message], middle, shown, by simp, hrun, hshown, haway,
    hgeneration.trans hsame⟩

theorem putAwayBefore_of_run (h : Run UiStep .initial messages state)
    (hwindow : state.transferWindow = some window) (hhidden : window.hiddenByUser = true) :
    PutAwayBefore messages window := by
  induction h generalizing window with
  | nil => cases hwindow
  | @snoc labels message state state' run last ih =>
    rw [last] at hwindow
    have hmove := handle_moves (posts_of_run run) message
    generalize (state.handle message).transferWindow = after at *
    cases hmove with
    | stay => exact (ih hwindow hhidden).snoc rfl message
    | @present updated result snapshot manifest transfer hoffers hpresented =>
      cases hwindow
      obtain ⟨hold, hsame⟩ := hpresented.hidden_cases hhidden
      cases hbefore : state.transferWindow with
      | none =>
        rw [hbefore] at hold
        cases hold
      | some old =>
        rw [hbefore] at hold hsame
        exact (ih hbefore hold).snoc hsame message
    | summon =>
      cases hwindow
      cases hhidden
    | reveal =>
      cases hwindow
      cases hhidden
    | @putAway old event hmessage hprocedure hold =>
      cases hwindow
      subst hmessage
      exact ⟨labels, event, [], state, old, rfl, run, hold, hprocedure, rfl⟩

theorem put_away_stays_away (h : Run UiStep .initial messages state)
    (hwindow : state.transferWindow = some window) :
    ∃ generation, window.generation = some generation ∧
      (window.hiddenByUser = true → window.visible = false ∧ PutAwayBefore messages window ∧
        ∀ later state', Run UiStep state later state' →
          (∀ message ∈ later, message.KeepsAway generation) →
            ∃ window', state'.transferWindow = some window' ∧ window'.Away generation) ∧
      ∀ snapshot manifest transfer answers,
        receivedTransfer snapshot = some (manifest, transfer) → Active transfer.state →
          snapshot.transferGeneration ≠ generation →
            (∀ control, answers.setText control = .ok ()) →
              ∃ window', (state.handle (.timer (some snapshot) answers)).transferWindow =
                some window' ∧ window'.visible = true := by
  have hposts := posts_of_run h
  obtain ⟨hinvisible, hsome⟩ := settled_of_run h hwindow
  obtain ⟨generation, hgeneration⟩ := Option.isSome_iff_exists.mp hsome
  refine ⟨generation, hgeneration, fun hhidden => ?_, ?_⟩
  · refine ⟨hinvisible hhidden, putAwayBefore_of_run h hwindow hhidden, ?_⟩
    intro later state' hlater hkeeps
    exact stays_away_of_run hposts hlater hwindow ⟨hhidden, hinvisible hhidden, hgeneration⟩ hkeeps
  · intro snapshot manifest transfer answers hreceived hactive hother hset
    have hmove := handle_moves hposts (.timer (some snapshot) answers)
    rw [hwindow] at hmove
    refine hmove.raises ⟨rfl, hreceived⟩ hset not_false (fun hsame => ?_) hactive
    exact hother (Option.some.inj (hsame.symm.trans hgeneration))

def soloSummary : ProductManifestSummary := ⟨"接收", ['a'], 1, 1, 0, 4⟩

def soloReceiving (state : ProductTransferState) : ProductSnapshot :=
  { ProductSnapshot.initial (soloSettings true) ['b'] with
    lastManifest := some soloSummary
    transfer := some { ProductTransferSnapshot.awaiting soloSummary with state := state }
    transferGeneration := 1 }

def settingAll : WindowAnswers := ⟨.ok (), fun _ => .ok ()⟩

def soloClosing : List UiMessage :=
  [.timer (some (soloReceiving .running)) settingAll, .window .close]

def handleAll (state : TrayState) (messages : List UiMessage) : TrayState :=
  messages.foldl TrayState.handle state

theorem handleAll_run (state : TrayState) (messages : List UiMessage) :
    Run UiStep state messages (handleAll state messages) := by
  induction messages generalizing state with
  | nil => exact .nil
  | cons message messages ih =>
    have hfirst : Run UiStep state [message] (state.handle message) := .single rfl
    exact hfirst.append (ih (state.handle message))

def soloReread : List UiMessage :=
  [.timer (some (soloReceiving .running)) settingAll, .window .other, .timer none settingAll]

def soloNext : ProductSnapshot := { soloReceiving .running with transferGeneration := 2 }

theorem put_away_stays_away_closed : ∃ window again raised,
    (handleAll .initial soloClosing).transferWindow = some window ∧
      window.hiddenByUser = true ∧ window.visible = false ∧ PutAwayBefore soloClosing window ∧
      (handleAll (handleAll .initial soloClosing) soloReread).transferWindow = some again ∧
      again.visible = false ∧
      ((handleAll .initial soloClosing).handle (.timer (some soloNext) settingAll)).transferWindow =
        some raised ∧ raised.visible = true := by
  have hrun := handleAll_run .initial soloClosing
  have hclosed : (handleAll .initial soloClosing).transferWindow.map
      (fun window => (window.hiddenByUser, window.generation)) = some (true, some 1) := by decide
  obtain ⟨window, hwindow, hshown⟩ := Option.map_eq_some_iff.mp hclosed
  obtain ⟨hhidden, hone⟩ := Prod.mk.inj hshown
  obtain ⟨generation, hgeneration, haway, hraises⟩ := put_away_stays_away hrun hwindow
  obtain rfl : (1 : UInt64) = generation := Option.some.inj (hone.symm.trans hgeneration)
  obtain ⟨hinvisible, hbefore, hstays⟩ := haway hhidden
  have hkeeps : ∀ message ∈ soloReread, message.KeepsAway 1 := by
    intro message hmessage
    rw [soloReread, List.mem_cons, List.mem_pair] at hmessage
    rcases hmessage with rfl | rfl | rfl
    · refine ⟨not_false, fun snapshot manifest transfer hoffers => .inl ?_⟩
      cases hoffers.1
      rfl
    · exact ⟨not_false, fun snapshot manifest transfer hoffers => nomatch hoffers.1⟩
    · exact ⟨not_false, fun snapshot manifest transfer hoffers => nomatch hoffers.1⟩
  obtain ⟨again, hagain, hkept⟩ := hstays soloReread _ (handleAll_run _ _) hkeeps
  obtain ⟨raised, hraised, hvisible⟩ := hraises soloNext soloSummary _ settingAll rfl (.inl rfl)
    (by decide) fun _ => rfl
  exact ⟨window, again, raised, hwindow, hhidden, hinvisible, hbefore, hagain, hkept.2.1, hraised,
    hvisible⟩

end ClipFerry.Tray
