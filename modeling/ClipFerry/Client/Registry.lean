import ClipFerry.Client.Source
import ClipFerry.Server.Requests

namespace ClipFerry.Client

open Protocol Server

variable {κ : Type}

inductive GroupOp where
  | pauseAll
  | resumeAll
  | cancelAll
  | statusAll
deriving DecidableEq

structure TransferGroupStatus where
  state : RemoteTransferState
  startedTransfers : Nat
  uniqueBytes : Nat
  readCalls : Nat
  bytesRead : Nat
  remoteAcknowledged : Bool
deriving DecidableEq

inductive GroupPc (κ : Type) where
  | start
  | scanning (todo found : List Nat)
  | cancelFlag (all : List Nat)
  | storing (all : List Nat)
  | controlling (all : List Nat) (s : Nat) (pc : SourcePc κ) (rest : List Nat)
      (total : TransferGroupStatus)
  | aggregating (all : List Nat) (s : Nat) (pc : SourcePc κ) (rest : List Nat)
      (total : TransferGroupStatus)
  | done (result : Except IoError TransferGroupStatus)

inductive Thread (κ : Type) where
  | source (s : Nat) (task : SourceTask) (pc : SourcePc κ)
  | group (op : GroupOp) (pc : GroupPc κ)

structure Registry (κ : Type) where
  sources : List (RemoteSource κ)
  remembered : List Nat
  groupPaused : Bool
  groupCancelled : Bool

structure ClientWorld (κ : Type) where
  registry : Registry κ
  threads : List (Thread κ)

def ClientWorld.empty : ClientWorld κ := ⟨⟨[], [], false, false⟩, []⟩

def u64Max : Nat := 2 ^ 64 - 1

def saturatingAdd (a b : Nat) : Nat := min (a + b) u64Max

def GroupOp.task : GroupOp → SourceTask
  | .pauseAll => .sendControl .pause
  | .resumeAll => .sendControl .resume
  | .cancelAll => .cancelLocalFirst
  | .statusAll => .status

def combineStates : RemoteTransferState → RemoteTransferState → RemoteTransferState
  | _, .cancelled | .cancelled, _ => .cancelled
  | _, .running | .running, _ => .running
  | _, .paused | .paused, _ => .paused
  | .completed, .completed => .completed

namespace Registry

variable (registry : Registry κ)

def rememberSource (source : RemoteSource κ) : Registry κ :=
  { registry with
    sources := registry.sources ++ [source]
    remembered := (registry.remembered ++ [registry.sources.length]).drop
      (registry.remembered.length + 1 - maxBeginNonces) }

def setSource (s : Nat) (source : RemoteSource κ) : Registry κ :=
  { registry with sources := registry.sources.set s source }

def readCalls (all : List Nat) : Nat :=
  (all.map fun s => (registry.sources[s]?.map (·.readCalls)).getD 0).sum

def bytesRead (all : List Nat) : Nat :=
  (all.map fun s => (registry.sources[s]?.map (·.bytesRead)).getD 0).sum

end Registry

namespace GroupOp

def zero (op : GroupOp) (all : List Nat) : TransferGroupStatus :=
  ⟨if op = .cancelAll then .cancelled else .completed, all.length, 0, 0, 0, true⟩

def startAggregate (op : GroupOp) (all : List Nat) : GroupPc κ :=
  match all with
  | [] => .done (.ok (op.zero []))
  | s :: rest => .aggregating all s (.start .status) rest (op.zero all)

def startControls (op : GroupOp) (all : List Nat) : GroupPc κ :=
  match op, all with
  | .statusAll, all => op.startAggregate all
  | _, [] => op.startAggregate []
  | _, s :: rest => .controlling all s (.start op.task) rest (op.zero all)

end GroupOp

namespace GroupPc

def afterControl (registry : Registry κ) (op : GroupOp) (all : List Nat)
    (total : TransferGroupStatus) : List Nat → GroupPc κ
  | s :: rest => .controlling all s (.start op.task) rest total
  | [] =>
    if op = .cancelAll then .done (.ok
      { total with readCalls := registry.readCalls all, bytesRead := registry.bytesRead all })
    else op.startAggregate all

def afterStatus (all : List Nat) (total : TransferGroupStatus) : List Nat → GroupPc κ
  | s :: rest => .aggregating all s (.start .status) rest total
  | [] => .done (.ok total)

def advance (registry : Registry κ) (op : GroupOp) : GroupPc κ → Option (Registry κ × GroupPc κ)
  | .start => some (registry, .scanning registry.remembered [])
  | .scanning (s :: todo) found =>
    match registry.sources[s]? with
    | none => some (registry, .scanning todo found)
    | some source =>
      if source.transferLocked = true then none
      else some (registry, .scanning todo (if source.transfer.isSome then found ++ [s] else found))
  | .scanning [] [] =>
    some (registry, .done (.error (.new .notConnected "no transfer has started")))
  | .scanning [] found =>
    some (registry, match op with
      | .cancelAll => .cancelFlag found
      | .statusAll => op.startAggregate found
      | .pauseAll | .resumeAll => .storing found)
  | .cancelFlag all => some ({ registry with groupCancelled := true }, .storing all)
  | .storing all =>
    some ({ registry with groupPaused := decide (op = .pauseAll) }, op.startControls all)
  | .controlling all _ (.done (.ok status)) rest total =>
    some (registry, afterControl registry op all
      (if op = .cancelAll then
        { total with uniqueBytes := saturatingAdd total.uniqueBytes status.uniqueBytes }
      else total) rest)
  | .controlling all s (.done (.error error)) rest total =>
    some (registry, if op = .cancelAll then
      afterControl registry op all { total with
        uniqueBytes := saturatingAdd total.uniqueBytes (registry.bytesRead [s])
        remoteAcknowledged := false } rest
      else .done (.error error))
  | .aggregating all s (.done (.ok status)) rest total =>
    some (registry, afterStatus all { total with
      state := combineStates total.state status.state
      uniqueBytes := saturatingAdd total.uniqueBytes status.uniqueBytes
      readCalls := saturatingAdd total.readCalls (registry.readCalls [s])
      bytesRead := saturatingAdd total.bytesRead (registry.bytesRead [s]) } rest)
  | .aggregating _ _ (.done (.error error)) _ _ => some (registry, .done (.error error))
  | .controlling _ _ _ _ _ | .aggregating _ _ _ _ _ | .done _ => none

def scans : GroupPc κ → Bool
  | .scanning _ _ => true
  | _ => false

end GroupPc

namespace Thread

def scans : Thread κ → Bool
  | .group _ pc => pc.scans
  | .source _ _ _ => false

def focus : Thread κ → Option (Nat × SourcePc κ)
  | .source s _ pc => some (s, pc)
  | .group _ (.controlling _ s pc _ _) | .group _ (.aggregating _ s pc _ _) => some (s, pc)
  | .group _ _ => none

def setFocus (pc : SourcePc κ) : Thread κ → Thread κ
  | .source s task _ => .source s task pc
  | .group op (.controlling all s _ rest total) => .group op (.controlling all s pc rest total)
  | .group op (.aggregating all s _ rest total) => .group op (.aggregating all s pc rest total)
  | .group op pc => .group op pc

def rpc (thread : Thread κ) : Option (Rpc κ) := thread.focus.bind fun (s, pc) => pc.rpc s

end Thread

def ClientWorld.RegistryFree (client : ClientWorld κ) : Prop :=
  ∀ thread ∈ client.threads, thread.scans = false

theorem ClientWorld.registryFree_of_all {client : ClientWorld κ}
    (h : client.threads.all (fun thread => !thread.scans) = true) : client.RegistryFree := by
  intro thread hthread
  simpa using List.all_eq_true.mp h thread hthread

inductive ClientLabel (κ : Type) where
  | spawn (thread : Thread κ)
  | remember
  | source (t : Nat)
  | group (t : Nat)
  | answer (t : Nat) (reply : Reply κ)

def ClientLabel.answered : ClientLabel κ → Bool
  | .answer _ _ => true
  | _ => false

def ClientLabel.thread : ClientLabel κ → Option Nat
  | .source t | .group t | .answer t _ => some t
  | .spawn _ | .remember => none

def Thread.Spawned : Thread κ → Prop
  | .source _ task pc => pc = .start task
  | .group _ pc => pc = .start

inductive ClientStep : ClientWorld κ → ClientLabel κ → ClientWorld κ → Prop
  | spawn {client : ClientWorld κ} {thread : Thread κ} (h : thread.Spawned) :
      ClientStep client (.spawn thread) { client with threads := client.threads ++ [thread] }
  | remember {client : ClientWorld κ} (connection : Nat) (manifest : OfferManifest)
      (entry : OfferManifestEntry) (hfree : client.RegistryFree) :
      ClientStep client .remember
        { client with registry := client.registry.rememberSource (.new connection manifest entry) }
  | source {client : ClientWorld κ} {t s : Nat} {thread : Thread κ} {pc pc' : SourcePc κ}
      {source source' : RemoteSource κ} (hthread : client.threads[t]? = some thread)
      (hfocus : thread.focus = some (s, pc)) (hsource : client.registry.sources[s]? = some source)
      (h : pc.advance client.registry.groupPaused client.registry.groupCancelled source =
        some (source', pc')) :
      ClientStep client (.source t)
        ⟨client.registry.setSource s source', client.threads.set t (thread.setFocus pc')⟩
  | group {client : ClientWorld κ} {t : Nat} {op : GroupOp} {pc pc' : GroupPc κ}
      {registry : Registry κ} (hthread : client.threads[t]? = some (.group op pc))
      (hfree : pc = .start → client.RegistryFree)
      (h : pc.advance client.registry op = some (registry, pc')) :
      ClientStep client (.group t) ⟨registry, client.threads.set t (.group op pc')⟩
  | answer {client : ClientWorld κ} {t s : Nat} {thread : Thread κ} {pc pc' : SourcePc κ}
      {source source' : RemoteSource κ} {reply : Reply κ}
      (hthread : client.threads[t]? = some thread)
      (hfocus : thread.focus = some (s, pc)) (hsource : client.registry.sources[s]? = some source)
      (h : pc.answer source reply = some (source', pc')) :
      ClientStep client (.answer t reply)
        ⟨client.registry.setSource s source', client.threads.set t (thread.setFocus pc')⟩

end ClipFerry.Client
