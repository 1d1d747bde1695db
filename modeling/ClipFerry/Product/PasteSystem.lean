import ClipFerry.Client.Credentials
import ClipFerry.Product.Control

namespace ClipFerry.Product

open VirtualTree Protocol Server Client

variable {κ : Type}

/-! A transfer registry with the calls made on its streams, and the streams the shell holds open. -/

structure Group (κ : Type) where
  client : ClientWorld κ
  streams : List Nat

-- while the worker is inside a call on a registry it handles no event and no command
structure PasteSystem (κ : Type) where
  session : ProductSession
  groups : List (Group κ)
  busy : Option (Nat × Nat)

namespace PasteSystem

def start (session : ProductSession) : PasteSystem κ := ⟨session, [], none⟩

def outside (system : PasteSystem κ) (recovery : Nat → SecureRecoverySnapshot)
    (metrics : Nat → SecureMetricsSnapshot) : Outside κ where
  registry r := ((system.groups[r]?).map (·.client.registry)).getD ⟨[], [], false, false⟩
  recovery := recovery
  metrics := metrics

-- accepting an offer makes a registry of its own
def become (system : PasteSystem κ) (session : ProductSession) : PasteSystem κ :=
  { system with
    session := session
    groups := if session.remote.any (fun lease => lease.registry = system.groups.length) = true
      then system.groups ++ [⟨.empty, []⟩] else system.groups }

def setGroup (system : PasteSystem κ) (r : Nat) (group : Group κ) : PasteSystem κ :=
  { system with groups := system.groups.set r group }

end PasteSystem

def ProductCommand.groupOp : ProductCommand → Option GroupOp
  | .acceptPending => none
  | .pause => some .pauseAll
  | .resume => some .resumeAll
  | .cancel => some .cancelAll

inductive PasteLabel (κ : Type) where
  | event (event : WorkerEvent) (answers : AcceptAnswers)
  | accept (answers : AcceptAnswers)
  | refuse (command : ProductCommand)
  | drop
  | command (command : ProductCommand)
  | finish
  | clipboard
  | timer
  | openStream (r : Nat)
  | closeStream (r s : Nat)
  | read (r s : Nat)
  | client (r : Nat) (label : ClientLabel κ)

inductive PasteStep : PasteSystem κ → PasteLabel κ → PasteSystem κ → Prop
  | event {system : PasteSystem κ} (hidle : system.busy = none) (event : WorkerEvent)
      (answers : AcceptAnswers) :
      PasteStep system (.event event answers)
        (system.become (system.session.handleEvent system.groups.length answers event))
  | accept {system : PasteSystem κ} (hidle : system.busy = none) (answers : AcceptAnswers)
      (recovery : Nat → SecureRecoverySnapshot) (metrics : Nat → SecureMetricsSnapshot) (now : Nat)
      {session : ProductSession} {result : Except IoError Unit}
      (haccept : system.session.acceptPending system.groups.length answers = (session, result)) :
      PasteStep system (.accept answers)
        (system.become ((session.recordControl result).refreshProgress
          (system.outside recovery metrics) now))
  | refuse {system : PasteSystem κ} (hidle : system.busy = none) {command : ProductCommand}
      (hcommand : command ≠ .acceptPending) (hnone : system.session.remote = none)
      (recovery : Nat → SecureRecoverySnapshot) (metrics : Nat → SecureMetricsSnapshot)
      (now : Nat) : PasteStep system (.refuse command) { system with
        session := (system.session.recordControl (.error ProductSession.noRemote)).refreshProgress
          (system.outside recovery metrics) now }
  | drop {system : PasteSystem κ} (hidle : system.busy = none) {lease : ProductRemoteLease}
      (hlease : system.session.remote = some lease) {group : Group κ}
      (hgroup : system.groups[lease.registry]? = some group)
      (hnone : group.client.registry.localProgress.startedTransfers = 0)
      (recovery : Nat → SecureRecoverySnapshot) (metrics : Nat → SecureMetricsSnapshot)
      (now : Nat) : PasteStep system .drop { system with
        session := system.session.dropLease.refreshProgress (system.outside recovery metrics) now }
  | command {system : PasteSystem κ} (hidle : system.busy = none) {lease : ProductRemoteLease}
      (hlease : system.session.remote = some lease) {group : Group κ}
      (hgroup : system.groups[lease.registry]? = some group) {command : ProductCommand}
      {op : GroupOp} (hop : command.groupOp = some op)
      (hstarted : op = .cancelAll →
        group.client.registry.localProgress.startedTransfers ≠ 0) :
      PasteStep system (.command command) { system.setGroup lease.registry { group with
          client := { group.client with threads := group.client.threads ++ [.group op .start] } }
        with busy := some (lease.registry, group.client.threads.length) }
  | finish {system : PasteSystem κ} {r t : Nat} (hbusy : system.busy = some (r, t))
      {group : Group κ} (hgroup : system.groups[r]? = some group) {op : GroupOp}
      {result : Except IoError TransferGroupStatus}
      (hdone : group.client.threads[t]? = some (.group op (.done result)))
      (recovery : Nat → SecureRecoverySnapshot) (metrics : Nat → SecureMetricsSnapshot)
      (now : Nat) : PasteStep system .finish { system with
        session := (system.session.recordControl (result.map fun _ => ())).refreshProgress
          (system.outside recovery metrics) now
        busy := none }
  | clipboard {system : PasteSystem κ} (hidle : system.busy = none) (toLowercase : Char → Text)
      (windowsText : HResult → String) (observed : UInt32) (leaseCurrent : Bool)
      (capture : ClipboardCapture) (answers : PublishAnswers) :
      PasteStep system .clipboard { system with
        session := system.session.handleClipboardUpdate toLowercase windowsText observed
          leaseCurrent capture answers }
  | timer {system : PasteSystem κ} (hidle : system.busy = none)
      (recovery : Nat → SecureRecoverySnapshot) (metrics : Nat → SecureMetricsSnapshot)
      (now : Nat) : PasteStep system .timer { system with
        session := system.session.refreshProgress (system.outside recovery metrics) now }
  | openStream {system : PasteSystem κ} {r : Nat} {group : Group κ}
      (hgroup : system.groups[r]? = some group) (hfree : group.client.RegistryFree)
      (connection : Nat) (manifest : OfferManifest) (entry : OfferManifestEntry) :
      PasteStep system (.openStream r) (system.setGroup r
        ⟨{ group.client with
            registry := group.client.registry.rememberSource (.new connection manifest entry) },
          group.streams ++ [group.client.registry.sources.length]⟩)
  | closeStream {system : PasteSystem κ} {r s : Nat} {group : Group κ}
      (hgroup : system.groups[r]? = some group) :
      PasteStep system (.closeStream r s)
        (system.setGroup r { group with streams := group.streams.erase s })
  | read {system : PasteSystem κ} {r s : Nat} {group : Group κ}
      (hgroup : system.groups[r]? = some group) (hopen : s ∈ group.streams) (offset : UInt64)
      (length : Nat) :
      PasteStep system (.read r s) (system.setGroup r { group with
        client := { group.client with
          threads := group.client.threads ++
            [.source s (.readAt offset length) (.start (.readAt offset length))] } })
  | client {system : PasteSystem κ} {r : Nat} {group : Group κ}
      (hgroup : system.groups[r]? = some group) {label : ClientLabel κ} {client : ClientWorld κ}
      {t : Nat} (hlabel : label.thread = some t)
      (hstep : ClientStep group.client label client) :
      PasteStep system (.client r label) (system.setGroup r { group with client := client })

end ClipFerry.Product
