import Mathlib.Logic.Function.Basic
import Mathlib.Logic.Relation
import ClipFerry.Client.Credentials
import ClipFerry.Client.LocalProgress

namespace ClipFerry.Client

open VirtualTree Protocol Server Transition

variable {κ : Type}

/-! local_progress and current_file_progress hold the registry lock from their first step on, and
take the transfer lock of each source they look at. -/

inductive UiOp where
  | localProgress
  | currentFileProgress
deriving DecidableEq

inductive UiPc where
  | locking (op : UiOp)
  | counting (todo : List Nat) (started : Nat)
  | finding (todo : List Nat)
  | falling (todo : List Nat)
  | counted (progress : TransferLocalProgress)
  | found (file : Option (Text × Nat × UInt64))

def RemoteSource.fileProgress (source : RemoteSource κ) : Text × Nat × UInt64 :=
  (source.fileName, min source.bytesRead source.size.toNat, source.size)

namespace UiPc

def advance (registry : Registry κ) : UiPc → Option UiPc
  | .locking .localProgress => some (.counting registry.remembered 0)
  | .locking .currentFileProgress => some (.finding registry.remembered.reverse)
  | .counting (s :: todo) started =>
    match registry.sources[s]? with
    | none => some (.counting todo started)
    | some source =>
      if source.transferLocked = true then none
      else some (.counting todo (if source.hasStarted = true then started + 1 else started))
  | .counting [] started =>
    some (.counted { registry.localProgress with startedTransfers := started })
  | .finding (s :: todo) =>
    match registry.sources[s]? with
    | none => some (.finding todo)
    | some source =>
      if source.transferLocked = true then none
      else some (if source.hasStarted = true ∧ source.completionSent = false then
        .found (some source.fileProgress) else .finding todo)
  | .finding [] => some (.falling registry.remembered.reverse)
  | .falling (s :: todo) =>
    match registry.sources[s]? with
    | none => some (.falling todo)
    | some source =>
      if source.transferLocked = true then none
      else some (if source.hasStarted = true then .found (some source.fileProgress)
        else .falling todo)
  | .falling [] => some (.found none)
  | .counted _ | .found _ => none

def scans : UiPc → Bool
  | .counting _ _ | .finding _ | .falling _ => true
  | _ => false

def finished : UiPc → Bool
  | .counted _ | .found _ => true
  | _ => false

def visits : UiPc → Option Nat
  | .counting todo _ | .finding todo | .falling todo => todo.head?
  | _ => none

end UiPc

def GroupPc.visits : GroupPc κ → Option Nat
  | .scanning todo _ => todo.head?
  | _ => none

inductive ConnectionSlot where
  | data
  | control
deriving DecidableEq

def Rpc.connectionSlot : Rpc κ → ConnectionSlot
  | .readRange _ _ _ => .data
  | .beginTransfer _ | .control _ _ _ | .status _ => .control

/-! The calls on one registry. A command holds the lock of its connection while it connects, sends
and waits for the response; it lets go of it between two attempts. -/

structure Calls (κ : Type) where
  client : ClientWorld κ
  ui : List UiPc
  slot : Nat → ConnectionSlot → Option Nat

inductive CallLabel (κ : Type) where
  | client (l : ClientLabel κ)
  | enter (op : UiOp)
  | ui (k : Nat)
  | acquire (t : Nat)
  | release (t : Nat)

namespace Calls

def start : Calls κ := ⟨.empty, [], fun _ _ => none⟩

def wants (calls : Calls κ) (t : Nat) : Option (Nat × ConnectionSlot) := do
  let thread ← calls.client.threads[t]?
  let (s, pc) ← thread.focus
  let rpc ← pc.rpc s
  let source ← calls.client.registry.sources[s]?
  return (source.client, rpc.connectionSlot)

def RegistryFree (calls : Calls κ) : Prop :=
  calls.client.RegistryFree ∧ ∀ pc ∈ calls.ui, pc.scans = false

def locksRegistry (calls : Calls κ) : ClientLabel κ → Bool
  | .remember => true
  | .group t => match calls.client.threads[t]? with
    | some (.group _ .start) => true
    | _ => false
  | _ => false

def setSlot (calls : Calls κ) (n : Nat) (c : ConnectionSlot) (holder : Option Nat) : Calls κ :=
  { calls with slot := Function.update calls.slot n (Function.update (calls.slot n) c holder) }

inductive Step : Calls κ → CallLabel κ → Calls κ → Prop
  | client {calls : Calls κ} {l : ClientLabel κ} {client : ClientWorld κ}
      (hl : l.answered = false) (hfree : calls.locksRegistry l = true → calls.RegistryFree)
      (h : ClientStep calls.client l client) :
      Step calls (.client l) { calls with client := client }
  | answer {calls : Calls κ} {t n : Nat} {c : ConnectionSlot} {reply : Reply κ} {client : ClientWorld κ}
      (hwants : calls.wants t = some (n, c)) (hholds : calls.slot n c = some t)
      (h : ClientStep calls.client (.answer t reply) client) :
      Step calls (.client (.answer t reply)) ({ calls with client := client }.setSlot n c none)
  | giveUp {calls : Calls κ} {t n : Nat} {c : ConnectionSlot} (error : IoError) {client : ClientWorld κ}
      (hwants : calls.wants t = some (n, c)) (hidle : calls.slot n c ≠ some t)
      (h : ClientStep calls.client (.answer t (.failed error)) client) :
      Step calls (.client (.answer t (.failed error))) { calls with client := client }
  | enter {calls : Calls κ} (op : UiOp) :
      Step calls (.enter op) { calls with ui := calls.ui ++ [.locking op] }
  | ui {calls : Calls κ} {k : Nat} {pc pc' : UiPc} (hpc : calls.ui[k]? = some pc)
      (hfree : pc.scans = false → calls.RegistryFree)
      (h : pc.advance calls.client.registry = some pc') :
      Step calls (.ui k) { calls with ui := calls.ui.set k pc' }
  | acquire {calls : Calls κ} {t n : Nat} {c : ConnectionSlot} (hwants : calls.wants t = some (n, c))
      (hfree : calls.slot n c = none) : Step calls (.acquire t) (calls.setSlot n c (some t))
  | release {calls : Calls κ} {t n : Nat} {c : ConnectionSlot} (hwants : calls.wants t = some (n, c))
      (hholds : calls.slot n c = some t) : Step calls (.release t) (calls.setSlot n c none)

end Calls

inductive Actor where
  | thread (t : Nat)
  | ui (k : Nat)
deriving DecidableEq

def Actor.step : Actor → CallLabel κ
  | .thread t => .client (.group t)
  | .ui k => .ui k

namespace Calls

variable (calls : Calls κ)

def WantsRegistry : Actor → Prop
  | .thread t => ∃ op, calls.client.threads[t]? = some (.group op .start)
  | .ui k => ∃ op, calls.ui[k]? = some (.locking op)

def HoldsRegistry : Actor → Prop
  | .thread t => ∃ thread, calls.client.threads[t]? = some thread ∧ thread.scans = true
  | .ui k => ∃ pc, calls.ui[k]? = some pc ∧ pc.scans = true

def Visits (s : Nat) : Actor → Prop
  | .thread t => ∃ op pc, calls.client.threads[t]? = some (.group op pc) ∧ pc.visits = some s
  | .ui k => ∃ pc, calls.ui[k]? = some pc ∧ pc.visits = some s

def WantsTransfer (s : Nat) (a : Actor) : Prop :=
  calls.Visits s a ∨ ∃ t, a = .thread t ∧ ((∃ purpose, calls.client.At t s (.lockTransfer purpose)) ∨
    calls.client.At t s (.start .cancelLocalFirst))

inductive Waits : Actor → Actor → Prop
  | registry {a b : Actor} (hwants : calls.WantsRegistry a) (hholds : calls.HoldsRegistry b) :
      Waits a b
  | transfer {a : Actor} {t s : Nat} {purpose : Purpose} (hwants : calls.WantsTransfer s a)
      (hholds : calls.client.At t s (.beginning purpose)) : Waits a (.thread t)
  | slot {t u n : Nat} {c : ConnectionSlot} (hwants : calls.wants t = some (n, c))
      (hholds : calls.slot n c = some u) (htu : t ≠ u) : Waits (.thread t) (.thread u)

def Proceeds (a : Actor) : Prop := ∃ calls', Step calls a.step calls'

def Networked : Actor → Prop
  | .thread t => ∃ s pc, calls.client.At t s pc ∧ pc.rpc s ≠ none
  | .ui _ => False

def Immediate : Actor → Prop
  | .thread t => ∃ pc, calls.client.threads[t]? = some (.group .cancelAll pc) ∧
    match pc with
    | .start | .scanning _ _ | .cancelFlag _ => True
    | _ => False
  | .ui k => ∃ pc, calls.ui[k]? = some pc ∧ pc.finished = false

end Calls

end ClipFerry.Client
