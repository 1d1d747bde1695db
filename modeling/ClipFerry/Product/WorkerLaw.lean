import Mathlib.Data.List.ReduceOption
import ClipFerry.Product.OfferLaw

namespace ClipFerry.Product

open Foundation Protocol Server Settings Transition VirtualTree

def InboxPc.owes : InboxPc → Nat
  | .acknowledging _ | .posting => 1
  | _ => 0

def WorkerPc.readsEvents : WorkerPc → Bool
  | .events => true
  | _ => false

def WorkerPc.readsCommands : WorkerPc → Bool
  | .commands | .stopping => true
  | _ => false

def WorkerPc.gone : WorkerPc → Bool
  | .left => true
  | _ => false

namespace OfferSystem

def eventBox (system : OfferSystem) : Mailbox WorkerEvent where
  sent := system.sentEvents
  taken := system.handledEvents
  waiting := system.events
  calls := system.messages.count .event
  owed := system.posters.count .event + system.inbox.owes
  lapsed := system.lapsedEvents
  reading := system.worker.readsEvents
  closed := system.worker.gone

def commandBox (system : OfferSystem) : Mailbox WorkerCommand where
  sent := system.sentCommands
  taken := system.handledCommands
  waiting := system.commands
  calls := system.messages.count .command
  owed := system.posters.count .command
  lapsed := system.lapsedCommands
  reading := system.worker.readsCommands
  closed := system.worker.gone

end OfferSystem

variable {settings : AppSettings} {system system' : OfferSystem} {message : WorkerMessage}

theorem posters_erase (h : message ∈ system.posters) :
    system.posters.count message = (system.posters.erase message).count message + 1 := by
  have hpos := List.count_pos_iff.mpr h
  rw [List.count_erase_self]
  omega

theorem posters_other {other : WorkerMessage} (h : message ≠ other) :
    (system.posters.erase message).count other = system.posters.count other :=
  List.count_erase_of_ne (Ne.symm h)

theorem InboxStep.eventBox (h : InboxStep settings system system') :
    Mailbox.Step system.eventBox system'.eventBox := by
  have hinbox : ∀ {pc : InboxPc}, pc.owes = system.inbox.owes →
      Mailbox.Step system.eventBox ({ system with inbox := pc } : OfferSystem).eventBox := by
    intro pc howes
    have hbox : ({ system with inbox := pc } : OfferSystem).eventBox = system.eventBox := by
      simp [OfferSystem.eventBox, howes]
    rw [hbox]
    exact .idle
  cases h with
  | askStop => exact .idle
  | enter hpc hstop => exact hinbox (by rw [hpc]; rfl)
  | exit hpc hstop => exact hinbox (by rw [hpc]; rfl)
  | unaccepted hpc => exact hinbox (by rw [hpc]; rfl)
  | accept hpc hlink hfresh => exact @hinbox (.accepted _) (by rw [hpc]; rfl)
  | acceptOther hpc => exact hinbox (by rw [hpc]; rfl)
  | proceed hpc hstop => exact hinbox (by rw [hpc]; rfl)
  | breakOff hpc hstop => exact hinbox (by rw [hpc]; rfl)
  | untrusted hpc => exact hinbox (by rw [hpc]; rfl)
  | authenticate hpc => exact hinbox (by rw [hpc]; rfl)
  | refuse hpc hlink hclient => exact hinbox (by rw [hpc]; rfl)
  | unread hpc hlink hclient hreader hread => exact hinbox (by rw [hpc]; rfl)
  | unsent hpc hworker => exact hinbox (by rw [hpc]; rfl)
  | @receive l hpc link hlink hclient reader later hreader endpoint hread =>
    have hbox : OfferSystem.eventBox { system.sendEvent (.remoteOffer ⟨endpoint, link.client⟩) with
        inbox := .acknowledging l } = { system.eventBox with
          sent := system.eventBox.sent ++ [.remoteOffer ⟨endpoint, link.client⟩]
          waiting := system.eventBox.waiting ++ [.remoteOffer ⟨endpoint, link.client⟩]
          owed := system.eventBox.owed + 1 } := by
      simp [OfferSystem.eventBox, OfferSystem.sendEvent, InboxPc.owes, hpc]
    rw [hbox]
    exact .send _
  | acknowledge hpc hlink => exact @hinbox .posting (by rw [hpc]; rfl)
  | unacknowledged hpc hlink n =>
    exact @Mailbox.Step.lapse _ system.eventBox (system.posters.count .event)
      (by simp [OfferSystem.eventBox, InboxPc.owes, hpc])
  | post hpc =>
    have hbox : OfferSystem.eventBox { system with
        inbox := .top, messages := system.messages ++ [.event] } = { system.eventBox with
          owed := system.posters.count .event
          calls := system.eventBox.calls + 1 } := by
      simp [OfferSystem.eventBox, InboxPc.owes]
    rw [hbox]
    exact .call (by simp [OfferSystem.eventBox, InboxPc.owes, hpc])
  | unposted hpc =>
    exact @Mailbox.Step.lapse _ system.eventBox (system.posters.count .event)
      (by simp [OfferSystem.eventBox, InboxPc.owes, hpc])

theorem InboxStep.commandBox (h : InboxStep settings system system') :
    Mailbox.Step system.commandBox system'.commandBox := by
  cases h with
  | post hpc =>
    have hbox : OfferSystem.commandBox { system with
        inbox := .top, messages := system.messages ++ [.event] } = system.commandBox := by
      simp [OfferSystem.commandBox]
    rw [hbox]
    exact .idle
  | _ => exact .idle

theorem PosterStep.eventBox (h : PosterStep system system') :
    Mailbox.Step system.eventBox system'.eventBox := by
  cases h with
  | report result =>
    have hbox : OfferSystem.eventBox { system.sendEvent (.announcementResult result) with
        posters := system.posters ++ [.event] } = { system.eventBox with
          sent := system.eventBox.sent ++ [.announcementResult result]
          waiting := system.eventBox.waiting ++ [.announcementResult result]
          owed := system.eventBox.owed + 1 } := by
      simp [OfferSystem.eventBox, OfferSystem.sendEvent, Nat.add_right_comm]
    rw [hbox]
    exact .send _
  | ask command =>
    have hbox : OfferSystem.eventBox { system.sendCommand command with
        posters := system.posters ++ [.command] } = system.eventBox := by
      simp [OfferSystem.eventBox, OfferSystem.sendCommand]
    rw [hbox]
    exact .idle
  | @post message hposter =>
    by_cases hevent : message = .event
    · subst hevent
      have hbox : OfferSystem.eventBox { system with
          posters := system.posters.erase .event
          messages := system.messages ++ [.event] } = { system.eventBox with
            owed := (system.posters.erase .event).count .event + system.inbox.owes
            calls := system.eventBox.calls + 1 } := by
        simp [OfferSystem.eventBox]
      have herase := posters_erase hposter
      rw [hbox]
      refine .call ?_
      dsimp only [OfferSystem.eventBox]
      omega
    · have hbox : OfferSystem.eventBox { system with
          posters := system.posters.erase message
          messages := system.messages ++ [message] } = system.eventBox := by
        simp [OfferSystem.eventBox, posters_other hevent, hevent]
      rw [hbox]
      exact .idle
  | @unposted message hposter =>
    by_cases hevent : message = .event
    · subst hevent
      have herase := posters_erase hposter
      refine @Mailbox.Step.lapse _ system.eventBox
        ((system.posters.erase .event).count .event + system.inbox.owes) ?_
      dsimp only [OfferSystem.eventBox]
      omega
    · have hbox : OfferSystem.eventBox { system.lapse message with
          posters := system.posters.erase message } = system.eventBox := by
        cases message with
        | event => exact absurd rfl hevent
        | clipboardUpdate => simp [OfferSystem.eventBox, OfferSystem.lapse, posters_other hevent]
        | command => simp [OfferSystem.eventBox, OfferSystem.lapse, posters_other hevent]
      rw [hbox]
      exact .idle
  | clipboard =>
    have hbox : OfferSystem.eventBox { system with
        messages := system.messages ++ [.clipboardUpdate] } = system.eventBox := by
      simp [OfferSystem.eventBox]
    rw [hbox]
    exact .idle

theorem PosterStep.commandBox (h : PosterStep system system') :
    Mailbox.Step system.commandBox system'.commandBox := by
  cases h with
  | report result =>
    have hbox : OfferSystem.commandBox { system.sendEvent (.announcementResult result) with
        posters := system.posters ++ [.event] } = system.commandBox := by
      simp [OfferSystem.commandBox, OfferSystem.sendEvent]
    rw [hbox]
    exact .idle
  | ask command =>
    have hbox : OfferSystem.commandBox { system.sendCommand command with
        posters := system.posters ++ [.command] } = { system.commandBox with
          sent := system.commandBox.sent ++ [command]
          waiting := system.commandBox.waiting ++ [command]
          owed := system.commandBox.owed + 1 } := by
      simp [OfferSystem.commandBox, OfferSystem.sendCommand]
    rw [hbox]
    exact .send _
  | @post message hposter =>
    by_cases hcommand : message = .command
    · subst hcommand
      have hbox : OfferSystem.commandBox { system with
          posters := system.posters.erase .command
          messages := system.messages ++ [.command] } = { system.commandBox with
            owed := (system.posters.erase .command).count .command
            calls := system.commandBox.calls + 1 } := by
        simp [OfferSystem.commandBox]
      rw [hbox]
      exact .call (posters_erase hposter)
    · have hbox : OfferSystem.commandBox { system with
          posters := system.posters.erase message
          messages := system.messages ++ [message] } = system.commandBox := by
        simp [OfferSystem.commandBox, posters_other hcommand, hcommand]
      rw [hbox]
      exact .idle
  | @unposted message hposter =>
    by_cases hcommand : message = .command
    · subst hcommand
      exact @Mailbox.Step.lapse _ system.commandBox
        ((system.posters.erase .command).count WorkerMessage.command) (posters_erase hposter)
    · have hbox : OfferSystem.commandBox { system.lapse message with
          posters := system.posters.erase message } = system.commandBox := by
        cases message with
        | command => exact absurd rfl hcommand
        | clipboardUpdate =>
          simp [OfferSystem.commandBox, OfferSystem.lapse, posters_other hcommand]
        | event => simp [OfferSystem.commandBox, OfferSystem.lapse, posters_other hcommand]
      rw [hbox]
      exact .idle
  | clipboard =>
    have hbox : OfferSystem.commandBox { system with
        messages := system.messages ++ [.clipboardUpdate] } = system.commandBox := by
      simp [OfferSystem.commandBox]
    rw [hbox]
    exact .idle

section Run

variable {κ : Type} {toLowercase : Char → Text} {windowsText : HResult → String}
  {op : Option (SessionOp κ)} {ops : List (Option (SessionOp κ))} {session : ProductSession}

theorem WorkerStep.eventBox
    (h : WorkerStep toLowercase windowsText system op system') :
    Mailbox.Step system.eventBox system'.eventBox := by
  have hidle : system'.eventBox = system.eventBox → Mailbox.Step system.eventBox system'.eventBox :=
    fun hbox => hbox ▸ .idle
  cases h with
  | @events hpc later hmessage =>
    have hbox : OfferSystem.eventBox { system with messages := later, worker := .events } =
        { system.eventBox with calls := later.count .event, reading := true } := by
      simp [OfferSystem.eventBox, WorkerPc.readsEvents, WorkerPc.gone, hpc]
    rw [hbox]
    exact .answer (by simp [OfferSystem.eventBox, hmessage])
  | commands hpc hmessage => exact hidle (by simp [OfferSystem.eventBox, WorkerPc.readsEvents, WorkerPc.gone, hpc, hmessage])
  | clipboard hpc hmessage =>
    exact hidle (by simp [OfferSystem.eventBox, OfferSystem.perform, hmessage])
  | timer hpc => exact hidle (by simp [OfferSystem.eventBox, OfferSystem.perform])
  | event hpc hevent =>
    exact .take (by simp [OfferSystem.eventBox, WorkerPc.readsEvents, WorkerPc.gone, hpc]) hevent
  | eventsEnd hpc hempty =>
    have hbox : OfferSystem.eventBox { system with worker := .waiting, lapsedEvents := 0 } =
        { system.eventBox with reading := false, lapsed := 0 } := by
      simp [OfferSystem.eventBox, WorkerPc.readsEvents, WorkerPc.gone, hpc]
    rw [hbox]
    exact .rest hempty
  | command hpc hcommand => exact hidle (by simp [OfferSystem.eventBox, OfferSystem.perform])
  | commandsEnd hpc hempty => exact hidle (by simp [OfferSystem.eventBox, WorkerPc.readsEvents, WorkerPc.gone, hpc])
  | stop hpc hcommand => exact hidle (by simp [OfferSystem.eventBox, WorkerPc.readsEvents, WorkerPc.gone, hpc])
  | leave hpc =>
    have hbox : OfferSystem.eventBox { system with worker := .left } =
        { system.eventBox with reading := false, closed := true } := by
      simp [OfferSystem.eventBox, WorkerPc.readsEvents, WorkerPc.gone]
    rw [hbox]
    exact .close
  | quit hpc =>
    have hbox : OfferSystem.eventBox { system with worker := .left } =
        { system.eventBox with reading := false, closed := true } := by
      simp [OfferSystem.eventBox, WorkerPc.readsEvents, WorkerPc.gone]
    rw [hbox]
    exact .close

theorem WorkerStep.commandBox
    (h : WorkerStep toLowercase windowsText system op system') :
    Mailbox.Step system.commandBox system'.commandBox := by
  have hidle : system'.commandBox = system.commandBox →
      Mailbox.Step system.commandBox system'.commandBox := fun hbox => hbox ▸ .idle
  cases h with
  | events hpc hmessage => exact hidle (by simp [OfferSystem.commandBox, WorkerPc.readsCommands, WorkerPc.gone, hpc, hmessage])
  | @commands hpc later hmessage =>
    have hbox : OfferSystem.commandBox { system with messages := later, worker := .commands } =
        { system.commandBox with calls := later.count .command, reading := true } := by
      simp [OfferSystem.commandBox, WorkerPc.readsCommands, WorkerPc.gone, hpc]
    rw [hbox]
    exact .answer (by simp [OfferSystem.commandBox, hmessage])
  | clipboard hpc hmessage =>
    exact hidle (by simp [OfferSystem.commandBox, OfferSystem.perform, hmessage])
  | timer hpc => exact hidle (by simp [OfferSystem.commandBox, OfferSystem.perform])
  | event hpc hevent => exact hidle (by simp [OfferSystem.commandBox, OfferSystem.perform])
  | eventsEnd hpc hempty => exact hidle (by simp [OfferSystem.commandBox, WorkerPc.readsCommands, WorkerPc.gone, hpc])
  | command hpc hcommand =>
    exact .take (by simp [OfferSystem.commandBox, WorkerPc.readsCommands, WorkerPc.gone, hpc]) hcommand
  | commandsEnd hpc hempty =>
    have hbox : OfferSystem.commandBox { system with worker := .waiting, lapsedCommands := 0 } =
        { system.commandBox with reading := false, lapsed := 0 } := by
      simp [OfferSystem.commandBox, WorkerPc.readsCommands, WorkerPc.gone, hpc]
    rw [hbox]
    exact .rest hempty
  | @stop hpc later hcommand =>
    have hbox : OfferSystem.commandBox { system with
        worker := .stopping
        commands := later
        handledCommands := system.handledCommands ++ [.stop] } = { system.commandBox with
          taken := system.commandBox.taken ++ [.stop]
          waiting := later } := by
      simp [OfferSystem.commandBox, WorkerPc.readsCommands, WorkerPc.gone, hpc]
    rw [hbox]
    exact .take (by simp [OfferSystem.commandBox, WorkerPc.readsCommands, WorkerPc.gone, hpc]) hcommand
  | leave hpc =>
    have hbox : OfferSystem.commandBox { system with worker := .left } =
        { system.commandBox with reading := false, closed := true } := by
      simp [OfferSystem.commandBox, WorkerPc.readsCommands, WorkerPc.gone]
    rw [hbox]
    exact .close
  | quit hpc =>
    have hbox : OfferSystem.commandBox { system with worker := .left } =
        { system.commandBox with reading := false, closed := true } := by
      simp [OfferSystem.commandBox, WorkerPc.readsCommands, WorkerPc.gone]
    rw [hbox]
    exact .close

theorem OfferStep.eventBox (h : OfferStep toLowercase windowsText settings system op system') :
    Mailbox.Step system.eventBox system'.eventBox := by
  cases h with
  | tick elapsed => exact .idle
  | announcer h => cases h <;> exact .idle
  | stranger h => cases h <;> exact .idle
  | inbox h => exact h.eventBox
  | poster h => exact h.eventBox
  | worker h => exact h.eventBox

theorem OfferStep.commandBox (h : OfferStep toLowercase windowsText settings system op system') :
    Mailbox.Step system.commandBox system'.commandBox := by
  cases h with
  | tick elapsed => exact .idle
  | announcer h => cases h <;> exact .idle
  | stranger h => cases h <;> exact .idle
  | inbox h => exact h.commandBox
  | poster h => exact h.commandBox
  | worker h => exact h.commandBox

def SessionOp.handledEvent : SessionOp κ → Option WorkerEvent
  | .event received _ _ => some received
  | _ => none

def SessionOp.handledCommand : SessionOp κ → Option WorkerCommand
  | .command asked _ => some (.control asked)
  | _ => none

theorem reduceOption_quiet (ops : List (Option (SessionOp κ))) :
    (ops ++ [none]).reduceOption = ops.reduceOption := by
  rw [List.reduceOption_append]
  exact List.append_nil _

structure OfferSystem.Handled (toLowercase : Char → Text) (windowsText : HResult → String)
    (session : ProductSession) (ops : List (Option (SessionOp κ))) (system : OfferSystem) :
    Prop where
  session : SessionRun κ toLowercase windowsText session ops.reduceOption system.session
  events : ops.reduceOption.filterMap SessionOp.handledEvent = system.handledEvents
  commands : ∃ last, system.handledCommands =
      ops.reduceOption.filterMap SessionOp.handledCommand ++ last ∧
    (last = [] ∨ last = [.stop] ∧ (system.worker = .stopping ∨ system.worker = .left))

theorem OfferSystem.Handled.quiet (h : system.Handled toLowercase windowsText session ops)
    (hsession : system'.session = system.session)
    (hevents : system'.handledEvents = system.handledEvents)
    (hcommands : system'.handledCommands = system.handledCommands)
    (hworker : system.worker = .stopping ∨ system.worker = .left →
      system'.worker = .stopping ∨ system'.worker = .left) :
    system'.Handled toLowercase windowsText session (ops ++ [none]) := by
  have hops := reduceOption_quiet ops
  obtain ⟨last, hlast, hended⟩ := h.commands
  refine ⟨?_, ?_, last, ?_, ?_⟩
  · rw [hops, hsession]
    exact h.session
  · rw [hops, hevents]
    exact h.events
  · rw [hops, hcommands]
    exact hlast
  · exact hended.imp_right fun hstop => ⟨hstop.1, hworker hstop.2⟩

theorem OfferSystem.Handled.performs {op : SessionOp κ}
    (h : system.Handled toLowercase windowsText session ops)
    (hworker : system.worker ≠ .stopping ∧ system.worker ≠ .left)
    (hsession : system'.session = op.run toLowercase windowsText system.session)
    (hevents : system'.handledEvents = system.handledEvents ++ op.handledEvent.toList)
    (hcommands : system'.handledCommands = system.handledCommands ++ op.handledCommand.toList) :
    system'.Handled toLowercase windowsText session (ops ++ [some op]) := by
  have hops : (ops ++ [some op]).reduceOption = ops.reduceOption ++ [op] :=
    List.reduceOption_append _ _
  have hfound : ∀ {β : Type} (see : SessionOp κ → Option β),
      [op].filterMap see = (see op).toList := by
    intro β see
    cases hsee : see op with
    | none => simp [hsee]
    | some b => simp [hsee]
  obtain ⟨last, hlast, hended⟩ := h.commands
  have hnone : last = [] := by
    rcases hended with hnone | ⟨-, hstopping | hleft⟩
    · exact hnone
    · exact absurd hstopping hworker.1
    · exact absurd hleft hworker.2
  subst hnone
  refine ⟨?_, ?_, [], ?_, .inl rfl⟩
  · rw [hops]
    exact h.session.snoc hsession
  · rw [hops, List.filterMap_append, h.events, hevents, hfound]
  · rw [hops, List.filterMap_append, hcommands, hlast, hfound, List.append_nil, List.append_nil]

theorem WorkerStep.handled (h : system.Handled toLowercase windowsText session ops)
    (hstep : WorkerStep toLowercase windowsText system op system') :
    system'.Handled toLowercase windowsText session (ops ++ [op]) := by
  cases hstep with
  | events hpc hmessage => exact h.quiet rfl rfl rfl (by simp [hpc])
  | commands hpc hmessage => exact h.quiet rfl rfl rfl (by simp [hpc])
  | clipboard hpc hmessage =>
    exact h.performs (by simp [hpc]) rfl (List.append_nil _).symm (List.append_nil _).symm
  | timer hpc =>
    exact h.performs (by simp [hpc]) rfl (List.append_nil _).symm (List.append_nil _).symm
  | event hpc hevent => exact h.performs (by simp [hpc]) rfl rfl (List.append_nil _).symm
  | eventsEnd hpc hempty => exact h.quiet rfl rfl rfl (by simp [hpc])
  | command hpc hcommand => exact h.performs (by simp [hpc]) rfl (List.append_nil _).symm rfl
  | commandsEnd hpc hempty => exact h.quiet rfl rfl rfl (by simp [hpc])
  | stop hpc hcommand =>
    have hops := reduceOption_quiet ops
    obtain ⟨last, hlast, hended⟩ := h.commands
    have hnone : last = [] := by
      rcases hended with hnone | ⟨-, hworker⟩
      · exact hnone
      · simp [hpc] at hworker
    subst hnone
    refine ⟨hops ▸ h.session, hops ▸ h.events, [.stop], ?_, .inr ⟨rfl, .inl rfl⟩⟩
    rw [hops]
    dsimp only
    rw [hlast, List.append_nil]
  | leave hpc => exact h.quiet rfl rfl rfl fun _ => .inr rfl
  | quit hpc => exact h.quiet rfl rfl rfl fun _ => .inr rfl

theorem OfferStep.handled (h : system.Handled toLowercase windowsText session ops)
    (hstep : OfferStep toLowercase windowsText settings system op system') :
    system'.Handled toLowercase windowsText session (ops ++ [op]) := by
  cases hstep with
  | tick elapsed => exact h.quiet rfl rfl rfl fun hworker => hworker
  | announcer hstep => cases hstep <;> exact h.quiet rfl rfl rfl fun hworker => hworker
  | stranger hstep => cases hstep <;> exact h.quiet rfl rfl rfl fun hworker => hworker
  | inbox hstep => cases hstep <;> exact h.quiet rfl rfl rfl fun hworker => hworker
  | poster hstep =>
    cases hstep with
    | report result => exact h.quiet rfl rfl rfl fun hworker => hworker
    | ask command => exact h.quiet rfl rfl rfl fun hworker => hworker
    | post hposter => exact h.quiet rfl rfl rfl fun hworker => hworker
    | @unposted message hposter =>
      cases message <;> exact h.quiet rfl rfl rfl fun hworker => hworker
    | clipboard => exact h.quiet rfl rfl rfl fun hworker => hworker
  | worker hstep => exact hstep.handled h

structure OfferSystem.Halted (halted system : OfferSystem) : Prop where
  worker : system.worker = .stopping ∨ system.worker = .left
  session : system.session = halted.session
  events : system.handledEvents = halted.handledEvents
  commands : system.handledCommands = halted.handledCommands

theorem OfferSystem.Halted.same {halted : OfferSystem} (h : halted.Halted system)
    (hworker : system'.worker = system.worker) (hsession : system'.session = system.session)
    (hevents : system'.handledEvents = system.handledEvents)
    (hcommands : system'.handledCommands = system.handledCommands) : halted.Halted system' where
  worker := hworker ▸ h.worker
  session := hsession.trans h.session
  events := hevents.trans h.events
  commands := hcommands.trans h.commands

theorem WorkerStep.halted {halted : OfferSystem} (h : halted.Halted system)
    (hstep : WorkerStep toLowercase windowsText system op system') :
    op = none ∧ halted.Halted system' := by
  have hworker := h.worker
  cases hstep with
  | leave hpc => exact ⟨rfl, .inr rfl, h.session, h.events, h.commands⟩
  | events hpc | commands hpc | clipboard hpc | timer hpc | event hpc | eventsEnd hpc
  | command hpc | commandsEnd hpc | stop hpc | quit hpc => simp [hpc] at hworker

theorem OfferStep.halted {halted : OfferSystem} (h : halted.Halted system)
    (hstep : OfferStep toLowercase windowsText settings system op system') :
    op = none ∧ halted.Halted system' := by
  cases hstep with
  | tick elapsed => exact ⟨rfl, h.same rfl rfl rfl rfl⟩
  | announcer hstep => cases hstep <;> exact ⟨rfl, h.same rfl rfl rfl rfl⟩
  | stranger hstep => cases hstep <;> exact ⟨rfl, h.same rfl rfl rfl rfl⟩
  | inbox hstep => cases hstep <;> exact ⟨rfl, h.same rfl rfl rfl rfl⟩
  | poster hstep =>
    cases hstep with
    | report | ask | post | clipboard => exact ⟨rfl, h.same rfl rfl rfl rfl⟩
    | @unposted message => cases message <;> exact ⟨rfl, h.same rfl rfl rfl rfl⟩
  | worker hstep => exact hstep.halted h

theorem OfferSystem.Handled.stopped (h : system.Handled toLowercase windowsText session ops)
    (hstop : .stop ∈ system.handledCommands) :
    system.worker = .stopping ∨ system.worker = .left := by
  obtain ⟨last, hlast, rfl | ⟨-, hworker⟩⟩ := h.commands
  · rw [hlast, List.append_nil, List.mem_filterMap] at hstop
    obtain ⟨op, -, hop⟩ := hstop
    cases op <;> cases hop
  · exact hworker

end Run

end ClipFerry.Product
