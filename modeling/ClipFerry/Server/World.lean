import ClipFerry.Foundation.Transition
import ClipFerry.Server.Requests

namespace ClipFerry.Server

open Protocol Foundation Transition

/-! Every rule of `Turn` is one critical section of a call, or one step outside the locks. -/

inductive Turn (server : ServerState) (view : View) (free : Prop) :
    Request → Pc → List Update → Pc → Prop
  | authorize {request us next}
      (h : server.ensurePeerAllowed view request.peer request.authorized = (us, next)) :
      Turn server view free request .authorize us next
  | revoke {request} (hfree : free) : Turn server view free request .revoke []
      (.cancelling (ServerState.peerTransfers view.shared request.peer))
  | cancelNext {request todo i} (hi : i ∈ todo) :
      Turn server view free request (.cancelling todo) [.cancel i] (.cancelling (todo.erase i))
  | revoked {request} :
      Turn server view free request (.cancelling []) [] (.done (.error .denied))
  | sample {peer offerId fileId nonce us next}
      (h : server.beginSample view offerId fileId = (us, next)) :
      Turn server view free (.beginTransfer peer offerId fileId nonce) .sample us next
  | admission {peer offerId fileId nonce now us next} (hfree : free)
      (h : ServerState.beginAdmit view peer offerId fileId nonce now = (us, next)) :
      Turn server view free (.beginTransfer peer offerId fileId nonce) (.admission now) us next
  | count {request now todo active i} (hi : i ∈ todo) :
      Turn server view free request (.counting now todo active) []
        (.counting now (todo.erase i) (active + (view.shared.isActive i).toNat))
  | create {peer offerId fileId nonce now active us next}
      (drawn : Option (ProtocolId × Secret × Secret))
      (h : server.beginCreate view peer offerId fileId nonce now active drawn = (us, next)) :
      Turn server view free (.beginTransfer peer offerId fileId nonce) (.counting now [] active)
        us next
  | lookup {request credentials us next} (hfree : free)
      (hcredentials : request.credentials = some credentials)
      (h : ServerState.authenticatedSession view request credentials = (us, next)) :
      Turn server view free request .lookup us next
  | control {peer credentials sequence opcode i session us next}
      (hsession : view.shared.sessions[i]? = some session)
      (h : ServerState.control session i sequence opcode = (us, next)) :
      Turn server view free (.control peer credentials sequence opcode) (.apply i) us next
  | status {peer credentials i session} (hsession : view.shared.sessions[i]? = some session) :
      Turn server view free (.status peer credentials) (.apply i) []
        (.done (.ok (.status session.inner.status)))
  | gate {peer credentials offset requested i session us next}
      (hsession : view.shared.sessions[i]? = some session)
      (h : server.readRangeGate view peer session i = (us, next)) :
      Turn server view free (.readRange peer credentials offset requested) (.gate i) us next
  | wake {peer credentials offset requested i session us next} (timedOut : Bool)
      (hsession : view.shared.sessions[i]? = some session)
      (h : server.readRangeWake view peer session i timedOut = (us, next)) :
      Turn server view free (.readRange peer credentials offset requested) (.waiting i) us next
  | recheck {peer credentials offset requested i us next}
      (h : server.ensurePeerAllowed view peer (.fetch i) = (us, next)) :
      Turn server view free (.readRange peer credentials offset requested) (.recheck i) us next
  | fetch {peer credentials offset requested i session us next} (attempt : Nat)
      (hsession : view.shared.sessions[i]? = some session)
      (h : server.readRangeFetch session.fileId i offset requested attempt = (us, next)) :
      Turn server view free (.readRange peer credentials offset requested) (.fetch i) us next
  | finish {peer credentials offset requested i read bytes session us next}
      (hsession : view.shared.sessions[i]? = some session)
      (h : server.readRangeFinish view peer session i offset read bytes = (us, next)) :
      Turn server view free (.readRange peer credentials offset requested) (.finish i read bytes)
        us next

def Pc.holdsServerLock : Pc → Bool
  | .cancelling _ | .counting _ _ _ => true
  | _ => false

structure Call where
  request : Request
  pc : Pc

structure World extends View where
  calls : List Call

def World.start (now : Nat) (trusted : CertificateFingerprint → Bool) : World :=
  ⟨⟨.empty, now, trusted⟩, []⟩

def World.ServerLockFree (w : World) : Prop := ∀ call ∈ w.calls, call.pc.holdsServerLock = false

theorem World.serverLockFree_of_all {w : World}
    (h : w.calls.all (fun call => !call.pc.holdsServerLock) = true) : w.ServerLockFree := by
  intro call hcall
  simpa using List.all_eq_true.mp h call hcall

inductive Label where
  | clock
  | trust
  | invoke (request : Request)
  | cleanup (now : Nat)
  | turn (call : Nat) (updates : List Update)

def Label.updates : Label → List Update
  | .cleanup now => [.prune now]
  | .turn _ updates => updates
  | _ => []

inductive Step (server : ServerState) : World → Label → World → Prop
  | clock {w : World} {now : Nat} (h : w.now ≤ now) : Step server w .clock { w with now := now }
  | trust {w : World} (trusted : CertificateFingerprint → Bool) :
      Step server w .trust { w with trusted := trusted }
  | invoke {w : World} (request : Request) :
      Step server w (.invoke request) { w with calls := w.calls ++ [⟨request, request.entry⟩] }
  | cleanup {w : World} {now : Nat} (h : now ≤ w.now) (hfree : w.ServerLockFree) :
      Step server w (.cleanup now) { w with shared := w.shared.run (.prune now) }
  | turn {w : World} {k : Nat} {call : Call} {us : List Update} {next : Pc}
      (hcall : w.calls[k]? = some call)
      (h : Turn server w.toView w.ServerLockFree call.request call.pc us next) :
      Step server w (.turn k us)
        { w with
          shared := us.foldl Shared.run w.shared
          calls := w.calls.set k { call with pc := next } }

theorem Step.shared_eq {server : ServerState} {w w' : World} {l : Label}
    (h : Step server w l w') : w'.shared = l.updates.foldl Shared.run w.shared := by
  cases h <;> rfl

theorem Step.session {server : ServerState} {w w' : World} {l : Label} (h : Step server w l w')
    {i : Nat} {session : TransferSession} (hsession : w.shared.sessions[i]? = some session) :
    w'.shared.sessions[i]? =
      some { session with inner := innerAfter i l.updates session.inner } := by
  rw [h.shared_eq]
  exact Shared.foldl_session hsession l.updates

theorem session_of_run {server : ServerState} {w w' : World} {ls : List Label}
    (h : Run (Step server) w ls w') {i : Nat} {session : TransferSession}
    (hsession : w.shared.sessions[i]? = some session) :
    w'.shared.sessions[i]? =
      some { session with inner := innerAfter i (ls.flatMap Label.updates) session.inner } := by
  induction h with
  | nil => exact hsession
  | snoc _ last ih =>
    rw [last.session ih, List.flatMap_append, List.flatMap_singleton, innerAfter_append]

theorem Step.now_le {server : ServerState} {w w' : World} {l : Label} (h : Step server w l w') :
    w.now ≤ w'.now := by
  cases h with
  | clock h => exact h
  | trust | invoke | cleanup | turn => exact Nat.le_refl _

end ClipFerry.Server
