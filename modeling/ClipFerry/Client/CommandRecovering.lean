import ClipFerry.Client.Connection
import ClipFerry.Protocol.Offer

namespace ClipFerry.Client

open Protocol Transition

structure SecureRecoveryPolicy where
  maxElapsed : Nat
  initialBackoff : Nat
  maxBackoff : Nat

structure SecureRecoveryMetrics where
  transientFailures : Nat
  reconnectAttempts : Nat
  recoveredCommands : Nat
  exhaustedCommands : Nat
  activeRecoveries : Nat
deriving DecidableEq

structure RecoveringCall where
  opcode : Opcode
  payload : List UInt8
  hasInterrupted : Bool
  hasSuspended : Bool

abbrev CommandResult := Except IoError (List UInt8)

inductive RecoveryPhase where
  | enter
  | direct
  | top
  | gate (pausedAt : Nat)
  | gateCheck (pausedAt : Nat)
  | gateLeave (pausedAt : Nat)
  | check
  | attempt
  | failed (error : IoError)
  | backoff (error : IoError)
  | sleep (error : IoError) (wakeAt : Nat)
  | sleepCheck (error : IoError) (wakeAt : Nat)
  | slept (error : IoError)
  | returned (result : CommandResult)

structure RecoveryHistory where
  began : Nat
  sent : List (Opcode × List UInt8)
  outcomes : List CommandResult
  sawInterrupted : Bool
  suspendedFor : Nat
  charged : Nat
  overflowed : Bool

structure RecoveryWorld where
  phase : RecoveryPhase
  deadline : Nat
  delay : Nat
  attempts : Nat
  guarded : Bool
  now : Nat
  interrupted : Bool
  suspended : Bool
  metrics : SecureRecoveryMetrics
  history : RecoveryHistory

inductive RecoveryLabel where
  | tick (elapsed : Nat)
  | interrupt (set : Bool)
  | suspend (set : Bool)
  | move
  | outcome (result : CommandResult)
  | exhaust

def recoveryCancelled : IoError := .new .interrupted "secure network recovery was cancelled"

def recoveryExhausted (attempts : Nat) (error : IoError) : IoError :=
  .new .timedOut ("secure network recovery exhausted after " ++ toString attempts
    ++ " reconnect attempts: " ++ error.message)

def isTransient : CommandResult → Bool
  | .ok _ => false
  | .error error => isRecoverableNetworkError error

namespace RecoveryPhase

def result : RecoveryPhase → Option CommandResult
  | .returned result => some result
  | _ => none

def charges : RecoveryPhase → Bool
  | .enter | .gate _ | .gateCheck _ | .gateLeave _ | .returned _ => false
  | _ => true

end RecoveryPhase

namespace RecoveringCall

def seesInterrupted (call : RecoveringCall) (w : RecoveryWorld) : Bool :=
  call.hasInterrupted && w.interrupted

def seesSuspended (call : RecoveringCall) (w : RecoveryWorld) : Bool :=
  call.hasSuspended && w.suspended

end RecoveringCall

namespace RecoveryWorld

def start (now : Nat) (interrupted suspended : Bool) (metrics : SecureRecoveryMetrics) :
    RecoveryWorld :=
  ⟨.enter, 0, 0, 0, false, now, interrupted, suspended, metrics,
    ⟨now, [], [], false, 0, 0, false⟩⟩

def elapse (w : RecoveryWorld) (call : RecoveringCall) (elapsed : Nat) : RecoveryWorld :=
  { w with
    now := w.now + elapsed
    history := { w.history with
      suspendedFor := w.history.suspendedFor + if call.seesSuspended w then elapsed else 0
      charged := w.history.charged +
        if call.seesSuspended w && w.phase.charges then elapsed else 0 } }

def extend (w : RecoveryWorld) (start length fallback : Nat) (phase : RecoveryPhase) :
    RecoveryWorld :=
  { w with
    phase := phase
    deadline := (checkedAddInstant start length).getD fallback
    history := { w.history with
      overflowed := w.history.overflowed || (checkedAddInstant start length).isNone } }

def beginAttempt (w : RecoveryWorld) (call : RecoveringCall) (phase : RecoveryPhase) :
    RecoveryWorld :=
  { w with
    phase := phase
    history := { w.history with sent := w.history.sent ++ [(call.opcode, call.payload)] } }

def note (w : RecoveryWorld) (result : CommandResult) : RecoveryWorld :=
  { w with history := { w.history with outcomes := w.history.outcomes ++ [result] } }

def beginRecovery (w : RecoveryWorld) : RecoveryWorld :=
  { w with
    guarded := true
    metrics := { w.metrics with
      transientFailures := w.metrics.transientFailures + 1
      activeRecoveries := w.metrics.activeRecoveries + (!w.guarded).toNat } }

def leave (w : RecoveryWorld) (result : CommandResult) : RecoveryWorld :=
  { w with
    phase := .returned result
    guarded := false
    metrics := { w.metrics with
      activeRecoveries := w.metrics.activeRecoveries - w.guarded.toNat } }

def cancel (w : RecoveryWorld) : RecoveryWorld :=
  { w.leave (.error recoveryCancelled) with
    history := { w.history with sawInterrupted := true } }

def succeed (w : RecoveryWorld) (response : List UInt8) : RecoveryWorld :=
  { w.leave (.ok response) with
    metrics := { (w.leave (.ok response)).metrics with
      recoveredCommands := w.metrics.recoveredCommands + (decide (w.attempts ≠ 0)).toNat } }

def exhaust (w : RecoveryWorld) (error : IoError) : RecoveryWorld :=
  { w.leave (.error (recoveryExhausted w.attempts error)) with
    metrics := { (w.leave (.error (recoveryExhausted w.attempts error))).metrics with
      exhaustedCommands := w.metrics.exhaustedCommands + 1 } }

def reconnect (w : RecoveryWorld) (error : IoError) : RecoveryWorld :=
  { w with
    phase := .backoff error
    attempts := min (w.attempts + 1) (2 ^ 64 - 1)
    metrics := { w.metrics with reconnectAttempts := w.metrics.reconnectAttempts + 1 } }

end RecoveryWorld

/-! The moves of one call; the clock and the two flags change between any two of them. -/

inductive RecoveryStep (policy : SecureRecoveryPolicy) (call : RecoveringCall) :
    RecoveryWorld → RecoveryLabel → RecoveryWorld → Prop
  | tick {w : RecoveryWorld} (elapsed : Nat) :
      RecoveryStep policy call w (.tick elapsed) (w.elapse call elapsed)
  | interrupt {w : RecoveryWorld} (set : Bool) :
      RecoveryStep policy call w (.interrupt set) { w with interrupted := set }
  | suspend {w : RecoveryWorld} (set : Bool) :
      RecoveryStep policy call w (.suspend set) { w with suspended := set }
  | direct {w : RecoveryWorld} (hphase : w.phase = .enter) (hwindow : policy.maxElapsed = 0) :
      RecoveryStep policy call w .move (w.beginAttempt call .direct)
  | directOutcome {w : RecoveryWorld} (hphase : w.phase = .direct) (result : CommandResult) :
      RecoveryStep policy call w (.outcome result) ((w.note result).leave result)
  | enter {w : RecoveryWorld} (hphase : w.phase = .enter) (hwindow : policy.maxElapsed ≠ 0) :
      RecoveryStep policy call w .move
        { w.extend w.now policy.maxElapsed w.now .top with delay := policy.initialBackoff }
  | first {w : RecoveryWorld} (hphase : w.phase = .top) (hattempts : w.attempts = 0) :
      RecoveryStep policy call w .move { w with phase := .check }
  | gate {w : RecoveryWorld} (hphase : w.phase = .top) (hattempts : w.attempts ≠ 0) :
      RecoveryStep policy call w .move { w with phase := .gate w.now }
  | shut {w : RecoveryWorld} {pausedAt : Nat} (hphase : w.phase = .gate pausedAt)
      (hsuspended : call.seesSuspended w = true) :
      RecoveryStep policy call w .move { w with phase := .gateCheck pausedAt }
  | wait {w : RecoveryWorld} {pausedAt : Nat} (hphase : w.phase = .gateCheck pausedAt)
      (hinterrupted : call.seesInterrupted w = false) :
      RecoveryStep policy call w .move { w with phase := .gate pausedAt }
  | opened {w : RecoveryWorld} {pausedAt : Nat} (hphase : w.phase = .gate pausedAt)
      (hsuspended : call.seesSuspended w = false) :
      RecoveryStep policy call w .move { w with phase := .gateLeave pausedAt }
  | resume {w : RecoveryWorld} {pausedAt : Nat} (hphase : w.phase = .gateLeave pausedAt) :
      RecoveryStep policy call w .move (w.extend w.deadline (w.now - pausedAt) w.deadline .check)
  | cancel {w : RecoveryWorld}
      (hphase : w.phase = .check ∨ (∃ pausedAt, w.phase = .gateCheck pausedAt) ∨
        ∃ error wakeAt, w.phase = .sleepCheck error wakeAt)
      (hinterrupted : call.seesInterrupted w = true) :
      RecoveryStep policy call w .move w.cancel
  | attempt {w : RecoveryWorld} (hphase : w.phase = .check)
      (hinterrupted : call.seesInterrupted w = false) :
      RecoveryStep policy call w .move (w.beginAttempt call .attempt)
  | succeed {w : RecoveryWorld} (hphase : w.phase = .attempt) (response : List UInt8) :
      RecoveryStep policy call w (.outcome (.ok response))
        ((w.note (.ok response)).succeed response)
  | refuse {w : RecoveryWorld} (hphase : w.phase = .attempt) {error : IoError}
      (herror : isRecoverableNetworkError error = false) :
      RecoveryStep policy call w (.outcome (.error error))
        ((w.note (.error error)).leave (.error error))
  | fail {w : RecoveryWorld} (hphase : w.phase = .attempt) {error : IoError}
      (herror : isRecoverableNetworkError error = true) :
      RecoveryStep policy call w (.outcome (.error error))
        { (w.note (.error error)).beginRecovery with phase := .failed error }
  | exhaust {w : RecoveryWorld} {error : IoError}
      (hphase : w.phase = .failed error ∨ w.phase = .slept error)
      (hdeadline : w.deadline ≤ w.now) :
      RecoveryStep policy call w .exhaust (w.exhaust error)
  | reconnect {w : RecoveryWorld} {error : IoError} (hphase : w.phase = .failed error)
      (hdeadline : w.now < w.deadline) :
      RecoveryStep policy call w .move (w.reconnect error)
  | backoff {w : RecoveryWorld} {error : IoError} (hphase : w.phase = .backoff error) :
      RecoveryStep policy call w .move { w with
        phase := .sleep error (min ((checkedAddInstant w.now w.delay).getD w.deadline) w.deadline) }
  | drowse {w : RecoveryWorld} {error : IoError} {wakeAt : Nat}
      (hphase : w.phase = .sleep error wakeAt) (hearly : w.now < wakeAt) :
      RecoveryStep policy call w .move { w with phase := .sleepCheck error wakeAt }
  | sleepOn {w : RecoveryWorld} {error : IoError} {wakeAt : Nat}
      (hphase : w.phase = .sleepCheck error wakeAt) (hinterrupted : call.seesInterrupted w = false) :
      RecoveryStep policy call w .move { w with phase := .sleep error wakeAt }
  | awake {w : RecoveryWorld} {error : IoError} {wakeAt : Nat}
      (hphase : w.phase = .sleep error wakeAt) (hlate : wakeAt ≤ w.now) :
      RecoveryStep policy call w .move { w with phase := .slept error }
  | again {w : RecoveryWorld} {error : IoError} (hphase : w.phase = .slept error)
      (hdeadline : w.now < w.deadline) :
      RecoveryStep policy call w .move
        { w with phase := .top, delay := min (w.delay * 2) policy.maxBackoff }

end ClipFerry.Client
