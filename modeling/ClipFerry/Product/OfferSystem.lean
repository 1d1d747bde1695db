import ClipFerry.Foundation.Mailbox
import ClipFerry.Product.Announcement
import ClipFerry.Product.SessionLaw

namespace ClipFerry.Product

open Foundation Pairing Protocol Server Settings Transition VirtualTree

def announcementWindow : Nat := fromMillis 60000

def firstAnnouncementDelay : Nat := fromMillis 100

def maxAnnouncementDelay : Nat := fromMillis 2000

def recoverableAnnouncementCodes : List Int :=
  [10050, 10051, 10052, 10053, 10054, 10060, 10061, 10064, 10065]

def isRecoverableAnnouncementError (error : IoError) : Bool :=
  (match error.kind with
    | .brokenPipe | .connectionAborted | .connectionRefused | .connectionReset | .notConnected
    | .timedOut | .unexpectedEof => true
    | _ => false) ||
  error.rawOsError.any recoverableAnnouncementCodes.contains

-- `failure` is what the socket reports when the bytes end early
def readAcknowledgement (failure : IoError) (stream : ChunkReader UInt8) :
    Except IoError Unit :=
  match readExactFrom offerAck.length stream with
  | .error _ => .error failure
  | .ok (acknowledgement, _) =>
    if acknowledgement ≠ offerAck then
      .error (invalidData "peer returned an invalid offer acknowledgement")
    else .ok ()

inductive WorkerCommand where
  | control (command : ProductCommand)
  | stop

inductive WorkerMessage where
  | clipboardUpdate
  | event
  | command
deriving DecidableEq

/-! A connection to the inbox: whose certificate its client proves, and which call of the peer's
`send_announcement_recovering` made it, if one did. -/

structure OfferLink where
  client : CertificateFingerprint
  announcer : Option Nat
  toServer : List UInt8
  toClient : List UInt8
  accepted : Bool

inductive AnnouncerPc where
  | trying
  | connected (link : Nat)
  | awaiting (link : Nat)
  | failed (error : IoError)
  | retrying
  | sleeping (wakeAt : Nat)
  | returned (result : Except IoError Unit)

structure Announcer where
  endpoint : SocketAddr
  deadline : Nat
  delay : Nat
  pc : AnnouncerPc
  tries : Nat

inductive InboxPc where
  | top
  | accepting
  | accepted (link : Option Nat)
  | handshaking (link : Option Nat)
  | authenticated (link : Nat)
  | acknowledging (link : Nat)
  | posting
  | stopped
deriving DecidableEq

inductive WorkerPc where
  | waiting
  | events
  | commands
  | stopping
  | left
deriving DecidableEq

/-! A device with its inbox and its clipboard worker, and the device it takes offers from;
`posters` are the messages that other threads of the first have still to post. -/

structure OfferSystem where
  announcers : List Announcer
  links : List OfferLink
  stop : Bool
  inbox : InboxPc
  posters : List WorkerMessage
  messages : List WorkerMessage
  events : List WorkerEvent
  commands : List WorkerCommand
  worker : WorkerPc
  session : ProductSession
  now : Nat
  sentEvents : List WorkerEvent
  handledEvents : List WorkerEvent
  lapsedEvents : Nat
  sentCommands : List WorkerCommand
  handledCommands : List WorkerCommand
  lapsedCommands : Nat

namespace OfferSystem

def start (session : ProductSession) : OfferSystem where
  announcers := []
  links := []
  stop := false
  inbox := .top
  posters := []
  messages := []
  events := []
  commands := []
  worker := .waiting
  session := session
  now := 0
  sentEvents := []
  handledEvents := []
  lapsedEvents := 0
  sentCommands := []
  handledCommands := []
  lapsedCommands := 0

variable (system : OfferSystem)

def setAnnouncer (i : Nat) (announcer : Announcer) : OfferSystem :=
  { system with announcers := system.announcers.set i announcer }

def setLink (l : Nat) (link : OfferLink) : OfferSystem :=
  { system with links := system.links.set l link }

def sendEvent (event : WorkerEvent) : OfferSystem :=
  { system with
    events := system.events ++ [event]
    sentEvents := system.sentEvents ++ [event] }

def sendCommand (command : WorkerCommand) : OfferSystem :=
  { system with
    commands := system.commands ++ [command]
    sentCommands := system.sentCommands ++ [command] }

def lapse : WorkerMessage → OfferSystem
  | .clipboardUpdate => system
  | .event => { system with lapsedEvents := system.lapsedEvents + 1 }
  | .command => { system with lapsedCommands := system.lapsedCommands + 1 }

end OfferSystem

/-! `send_announcement_recovering`, in any number of threads of the peer. -/

inductive AnnouncerStep (settings : AppSettings) : OfferSystem → OfferSystem → Prop
  | announce {system : OfferSystem} (endpoint : SocketAddr) :
      AnnouncerStep settings system { system with
        announcers := system.announcers ++
          [⟨endpoint, system.now + announcementWindow, firstAnnouncementDelay, .trying, 0⟩] }
  | unconnected {system : OfferSystem} {i : Nat} {a : Announcer}
      (ha : system.announcers[i]? = some a) (hpc : a.pc = .trying) (error : IoError) :
      AnnouncerStep settings system
        (system.setAnnouncer i { a with pc := .failed error, tries := a.tries + 1 })
  | connect {system : OfferSystem} {i : Nat} {a : Announcer}
      (ha : system.announcers[i]? = some a) (hpc : a.pc = .trying) :
      AnnouncerStep settings system { system.setAnnouncer i
          { a with pc := .connected system.links.length, tries := a.tries + 1 } with
        links := system.links ++ [⟨settings.activePeer, some i, [], [], false⟩] }
  | unencodable {system : OfferSystem} {i l : Nat} {a : Announcer}
      (ha : system.announcers[i]? = some a) (hpc : a.pc = .connected l) {error : IoError}
      (hencode : encodeAnnouncement a.endpoint = .error error) :
      AnnouncerStep settings system
        (system.setAnnouncer i { a with pc := .failed error })
  | unwritten {system : OfferSystem} {i l : Nat} {a : Announcer} {link : OfferLink}
      (ha : system.announcers[i]? = some a) (hpc : a.pc = .connected l)
      (hlink : system.links[l]? = some link) {frame : List UInt8}
      (hencode : encodeAnnouncement a.endpoint = .ok frame) (n : Nat) (error : IoError) :
      AnnouncerStep settings system
        ((system.setAnnouncer i { a with pc := .failed error }).setLink l
          { link with toServer := frame.take n })
  | write {system : OfferSystem} {i l : Nat} {a : Announcer} {link : OfferLink}
      (ha : system.announcers[i]? = some a) (hpc : a.pc = .connected l)
      (hlink : system.links[l]? = some link) {frame : List UInt8}
      (hencode : encodeAnnouncement a.endpoint = .ok frame) :
      AnnouncerStep settings system
        ((system.setAnnouncer i { a with pc := .awaiting l }).setLink l
          { link with toServer := frame })
  | answered {system : OfferSystem} {i l : Nat} {a : Announcer} {link : OfferLink}
      (ha : system.announcers[i]? = some a) (hpc : a.pc = .awaiting l)
      (hlink : system.links[l]? = some link) {reader : ChunkReader UInt8}
      (hreader : reader.bytes <+: link.toClient) {failure : IoError}
      (hread : readAcknowledgement failure reader = .ok ()) :
      AnnouncerStep settings system
        (system.setAnnouncer i { a with pc := .returned (.ok ()) })
  | unanswered {system : OfferSystem} {i l : Nat} {a : Announcer} {link : OfferLink}
      (ha : system.announcers[i]? = some a) (hpc : a.pc = .awaiting l)
      (hlink : system.links[l]? = some link) {reader : ChunkReader UInt8}
      (hreader : reader.bytes <+: link.toClient) {failure error : IoError}
      (hread : readAcknowledgement failure reader = .error error) :
      AnnouncerStep settings system (system.setAnnouncer i { a with pc := .failed error })
  | retry {system : OfferSystem} {i : Nat} {a : Announcer}
      (ha : system.announcers[i]? = some a) {error : IoError} (hpc : a.pc = .failed error)
      (herror : isRecoverableAnnouncementError error = true) (hnow : system.now < a.deadline) :
      AnnouncerStep settings system (system.setAnnouncer i { a with pc := .retrying })
  | giveUp {system : OfferSystem} {i : Nat} {a : Announcer}
      (ha : system.announcers[i]? = some a) {error : IoError} (hpc : a.pc = .failed error)
      (hlast : isRecoverableAnnouncementError error = false ∨ a.deadline ≤ system.now) :
      AnnouncerStep settings system
        (system.setAnnouncer i { a with pc := .returned (.error error) })
  | sleep {system : OfferSystem} {i : Nat} {a : Announcer}
      (ha : system.announcers[i]? = some a) (hpc : a.pc = .retrying) :
      AnnouncerStep settings system (system.setAnnouncer i
        { a with pc := .sleeping (system.now + min a.delay (a.deadline - system.now)) })
  | wake {system : OfferSystem} {i : Nat} {a : Announcer}
      (ha : system.announcers[i]? = some a) {wakeAt : Nat} (hpc : a.pc = .sleeping wakeAt)
      (hnow : wakeAt ≤ system.now) :
      AnnouncerStep settings system (system.setAnnouncer i
        { a with pc := .trying, delay := min (a.delay * 2) maxAnnouncementDelay })

/-! Anyone else may connect and send anything, but proves no certificate that is not theirs. -/

inductive StrangerStep (settings : AppSettings) : OfferSystem → OfferSystem → Prop
  | connect {system : OfferSystem} {client : CertificateFingerprint}
      (hclient : client ≠ settings.activePeer) :
      StrangerStep settings system
        { system with links := system.links ++ [⟨client, none, [], [], false⟩] }
  | write {system : OfferSystem} {l : Nat} {link : OfferLink}
      (hlink : system.links[l]? = some link) (hstranger : link.announcer = none)
      (bytes : List UInt8) :
      StrangerStep settings system
        (system.setLink l { link with toServer := link.toServer ++ bytes })

/-! The thread of `OfferInbox::start`; the receiver of its events goes after the worker's loop. -/

inductive InboxStep (settings : AppSettings) : OfferSystem → OfferSystem → Prop
  | askStop {system : OfferSystem} : InboxStep settings system { system with stop := true }
  | enter {system : OfferSystem} (hpc : system.inbox = .top) (hstop : system.stop = false) :
      InboxStep settings system { system with inbox := .accepting }
  | exit {system : OfferSystem} (hpc : system.inbox = .top) (hstop : system.stop = true) :
      InboxStep settings system { system with inbox := .stopped }
  | unaccepted {system : OfferSystem} (hpc : system.inbox = .accepting) :
      InboxStep settings system { system with inbox := .top }
  | accept {system : OfferSystem} (hpc : system.inbox = .accepting) {l : Nat} {link : OfferLink}
      (hlink : system.links[l]? = some link) (hfresh : link.accepted = false) :
      InboxStep settings system { system.setLink l { link with accepted := true } with
        inbox := .accepted (some l) }
  | acceptOther {system : OfferSystem} (hpc : system.inbox = .accepting) :
      InboxStep settings system { system with inbox := .accepted none }
  | proceed {system : OfferSystem} {l : Option Nat} (hpc : system.inbox = .accepted l)
      (hstop : system.stop = false) :
      InboxStep settings system { system with inbox := .handshaking l }
  | breakOff {system : OfferSystem} {l : Option Nat} (hpc : system.inbox = .accepted l)
      (hstop : system.stop = true) :
      InboxStep settings system { system with inbox := .stopped }
  | untrusted {system : OfferSystem} {l : Option Nat} (hpc : system.inbox = .handshaking l) :
      InboxStep settings system { system with inbox := .top }
  | authenticate {system : OfferSystem} {l : Nat} (hpc : system.inbox = .handshaking (some l)) :
      InboxStep settings system { system with inbox := .authenticated l }
  | refuse {system : OfferSystem} {l : Nat} (hpc : system.inbox = .authenticated l)
      {link : OfferLink} (hlink : system.links[l]? = some link)
      (hclient : link.client ≠ settings.activePeer) :
      InboxStep settings system { system with inbox := .top }
  | unread {system : OfferSystem} {l : Nat} (hpc : system.inbox = .authenticated l)
      {link : OfferLink} (hlink : system.links[l]? = some link)
      (hclient : link.client = settings.activePeer) {reader : ChunkReader UInt8}
      (hreader : reader.bytes <+: link.toServer) {error : IoError}
      (hread : readAnnouncement reader = .error error) :
      InboxStep settings system { system with inbox := .top }
  | unsent {system : OfferSystem} {l : Nat} (hpc : system.inbox = .authenticated l)
      (hworker : system.worker = .left) : InboxStep settings system { system with inbox := .top }
  | receive {system : OfferSystem} {l : Nat} (hpc : system.inbox = .authenticated l)
      {link : OfferLink} (hlink : system.links[l]? = some link)
      (hclient : link.client = settings.activePeer) {reader later : ChunkReader UInt8}
      (hreader : reader.bytes <+: link.toServer) {endpoint : SocketAddr}
      (hread : readAnnouncement reader = .ok (endpoint, later)) :
      InboxStep settings system { system.sendEvent (.remoteOffer ⟨endpoint, link.client⟩) with
        inbox := .acknowledging l }
  | acknowledge {system : OfferSystem} {l : Nat} (hpc : system.inbox = .acknowledging l)
      {link : OfferLink} (hlink : system.links[l]? = some link) :
      InboxStep settings system { system.setLink l { link with toClient := offerAck } with
        inbox := .posting }
  | unacknowledged {system : OfferSystem} {l : Nat} (hpc : system.inbox = .acknowledging l)
      {link : OfferLink} (hlink : system.links[l]? = some link) (n : Nat) :
      InboxStep settings system
        { (system.setLink l { link with toClient := offerAck.take n }).lapse .event with
          inbox := .top }
  | post {system : OfferSystem} (hpc : system.inbox = .posting) :
      InboxStep settings system { system with
        inbox := .top
        messages := system.messages ++ [.event] }
  | unposted {system : OfferSystem} (hpc : system.inbox = .posting) :
      InboxStep settings system { system.lapse .event with inbox := .top }

/-! The other threads: `spawn_announcement`, `ProductRuntime::command` and `stop`, and the system
that tells of a changed clipboard. -/

inductive PosterStep : OfferSystem → OfferSystem → Prop
  | report {system : OfferSystem} (result : Except IoError Unit) :
      PosterStep system { system.sendEvent (.announcementResult result) with
        posters := system.posters ++ [.event] }
  | ask {system : OfferSystem} (command : WorkerCommand) :
      PosterStep system { system.sendCommand command with
        posters := system.posters ++ [.command] }
  | post {system : OfferSystem} {message : WorkerMessage} (hposter : message ∈ system.posters) :
      PosterStep system { system with
        posters := system.posters.erase message
        messages := system.messages ++ [message] }
  | unposted {system : OfferSystem} {message : WorkerMessage}
      (hposter : message ∈ system.posters) :
      PosterStep system
        { system.lapse message with posters := system.posters.erase message }
  | clipboard {system : OfferSystem} :
      PosterStep system { system with messages := system.messages ++ [.clipboardUpdate] }

section Worker

variable {κ : Type} (toLowercase : Char → Text) (windowsText : HResult → String)

def OfferSystem.perform (system : OfferSystem) (op : SessionOp κ) : OfferSystem :=
  { system with session := op.run toLowercase windowsText system.session }

-- an item is handled in one step: it has been taken, and only this thread has the session
inductive WorkerStep : OfferSystem → Option (SessionOp κ) → OfferSystem → Prop
  | events {system : OfferSystem} (hpc : system.worker = .waiting) {later : List WorkerMessage}
      (hmessage : system.messages = .event :: later) :
      WorkerStep system none { system with messages := later, worker := .events }
  | commands {system : OfferSystem} (hpc : system.worker = .waiting) {later : List WorkerMessage}
      (hmessage : system.messages = .command :: later) :
      WorkerStep system none { system with messages := later, worker := .commands }
  | clipboard {system : OfferSystem} (hpc : system.worker = .waiting) {later : List WorkerMessage}
      (hmessage : system.messages = .clipboardUpdate :: later) (observed : UInt32)
      (leaseCurrent : Bool) (capture : ClipboardCapture) (answers : PublishAnswers) :
      WorkerStep system (some (.clipboard observed leaseCurrent capture answers))
        (({ system with messages := later } : OfferSystem).perform toLowercase windowsText
          (.clipboard observed leaseCurrent capture answers : SessionOp κ))
  | timer {system : OfferSystem} (hpc : system.worker = .waiting) (outside : Outside κ)
      (now : Nat) :
      WorkerStep system (some (.timer outside now))
        (system.perform toLowercase windowsText (.timer outside now))
  | event {system : OfferSystem} (hpc : system.worker = .events) {event : WorkerEvent}
      {later : List WorkerEvent} (hevent : system.events = event :: later) (registry : Nat)
      (answers : AcceptAnswers) :
      WorkerStep system (some (.event event registry answers))
        (({ system with
            events := later
            handledEvents := system.handledEvents ++ [event] } : OfferSystem).perform toLowercase
          windowsText (.event event registry answers : SessionOp κ))
  | eventsEnd {system : OfferSystem} (hpc : system.worker = .events)
      (hempty : system.events = []) :
      WorkerStep system none { system with worker := .waiting, lapsedEvents := 0 }
  | command {system : OfferSystem} (hpc : system.worker = .commands) {command : ProductCommand}
      {later : List WorkerCommand} (hcommand : system.commands = .control command :: later)
      (answers : CommandAnswers κ) :
      WorkerStep system (some (.command command answers))
        (({ system with
            commands := later
            handledCommands := system.handledCommands ++ [.control command] } :
              OfferSystem).perform toLowercase windowsText (.command command answers))
  | commandsEnd {system : OfferSystem} (hpc : system.worker = .commands)
      (hempty : system.commands = []) :
      WorkerStep system none { system with worker := .waiting, lapsedCommands := 0 }
  | stop {system : OfferSystem} (hpc : system.worker = .commands) {later : List WorkerCommand}
      (hcommand : system.commands = .stop :: later) :
      WorkerStep system none { system with
        worker := .stopping
        commands := later
        handledCommands := system.handledCommands ++ [.stop] }
  | leave {system : OfferSystem} (hpc : system.worker = .stopping) :
      WorkerStep system none { system with worker := .left }
  | quit {system : OfferSystem} (hpc : system.worker = .waiting) :
      WorkerStep system none { system with worker := .left }

inductive OfferStep (settings : AppSettings) :
    OfferSystem → Option (SessionOp κ) → OfferSystem → Prop
  | tick {system : OfferSystem} (elapsed : Nat) :
      OfferStep settings system none { system with now := system.now + elapsed }
  | announcer {system system' : OfferSystem} (h : AnnouncerStep settings system system') :
      OfferStep settings system none system'
  | stranger {system system' : OfferSystem} (h : StrangerStep settings system system') :
      OfferStep settings system none system'
  | inbox {system system' : OfferSystem} (h : InboxStep settings system system') :
      OfferStep settings system none system'
  | poster {system system' : OfferSystem} (h : PosterStep system system') :
      OfferStep settings system none system'
  | worker {system system' : OfferSystem} {op : Option (SessionOp κ)}
      (h : WorkerStep toLowercase windowsText system op system') :
      OfferStep settings system op system'

end Worker

end ClipFerry.Product
