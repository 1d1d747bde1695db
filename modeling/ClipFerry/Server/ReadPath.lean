import ClipFerry.Server.Capacity
import ClipFerry.Server.CallTrace

namespace ClipFerry.Server

open Protocol Foundation Transition

variable {server : ServerState} {w w' : World} {l : Label} {ls : List Label} {i k : Nat}

namespace Shared

variable {shared : Shared}

def coverageOf (shared : Shared) (i : Nat) : RangeCoverage :=
  (shared.sessions[i]?.map (·.inner.coverage)).getD .empty

def SameProgress (shared shared' : Shared) : Prop :=
  shared'.metrics.servedBytes = shared.metrics.servedBytes ∧
    ∀ i, shared'.coverageOf i = shared.coverageOf i

theorem SameProgress.refl (shared : Shared) : SameProgress shared shared := ⟨rfl, fun _ => rfl⟩

theorem SameProgress.trans {s t u : Shared} (h : SameProgress s t) (h' : SameProgress t u) :
    SameProgress s u :=
  ⟨h'.1.trans h.1, fun i => (h'.2 i).trans (h.2 i)⟩

theorem coverageOf_modifyInner {f : TransferInner → TransferInner} (shared : Shared) (j : Nat) :
    (shared.modifyInner i f).coverageOf j =
      ((shared.sessions[j]?.map fun session =>
        if i = j then (f session.inner).coverage else session.inner.coverage)).getD .empty := by
  rw [coverageOf, modifyInner, List.getElem?_modify]
  cases shared.sessions[j]? with
  | none => simp
  | some session => by_cases h : i = j <;> simp [h]

theorem sameProgress_modifyInner {f : TransferInner → TransferInner}
    (hf : ∀ inner, (f inner).coverage = inner.coverage) :
    SameProgress shared (shared.modifyInner i f) := by
  refine ⟨rfl, fun j => ?_⟩
  rw [coverageOf_modifyInner, coverageOf]
  congr 2
  funext session
  rw [hf, ite_self]

theorem sameProgress_create (nonce : Secret) (session : TransferSession) :
    SameProgress shared (shared.create nonce session) := by
  refine ⟨rfl, fun j => ?_⟩
  simp only [coverageOf, create, List.getElem?_append]
  split
  · rfl
  · rename_i hge
    rw [List.getElem?_eq_none (Nat.le_of_not_lt hge), List.getElem?_singleton]
    split <;> rfl

theorem sameProgress_run {u : Update} (h : ∀ i offset read, u ≠ .serve i offset read) :
    SameProgress shared (shared.run u) := by
  cases u with
  | deny | replay | beginRead | prune now => exact ⟨rfl, fun _ => rfl⟩
  | create nonce session => exact sameProgress_create nonce session
  | control i sequence opcode => exact sameProgress_modifyInner fun _ => rfl
  | cancel i =>
    apply sameProgress_modifyInner
    intro inner
    rw [TransferInner.cancel]
    split <;> rfl
  | serve i offset read => exact absurd rfl (h i offset read)

theorem sameProgress_foldl {us : List Update}
    (h : ∀ i offset read, Update.serve i offset read ∉ us) :
    SameProgress shared (us.foldl run shared) := by
  induction us generalizing shared with
  | nil => exact .refl shared
  | cons u us ih =>
    have hu : SameProgress shared (shared.run u) :=
      sameProgress_run fun i offset read heq => h i offset read (by simp [heq])
    exact hu.trans (ih fun i offset read hmem => h i offset read (List.mem_cons_of_mem _ hmem))

end Shared

theorem Step.sameProgress (h : Step server w l w')
    (hl : ∀ i offset read, Update.serve i offset read ∉ l.updates) :
    w.shared.SameProgress w'.shared := by
  rw [h.shared_eq]
  exact Shared.sameProgress_foldl hl

def Resumed (i : Nat) (w w' : World) : Prop :=
  w.shared.stateOf i = some .paused ∧ w'.shared.stateOf i = some .running

def StepWithoutResume (server : ServerState) (i : Nat) (w : World) (l : Label) (w' : World) :
    Prop :=
  Step server w l w' ∧ ¬Resumed i w w'

def TurnKeepsProgress (k : Nat) (w : World) (l : Label) (w' : World) : Prop :=
  (∃ us, l = .turn k us) → w.shared.SameProgress w'.shared

def Stopped (shared : Shared) (i : Nat) : Prop :=
  shared.stateOf i = some .paused ∨ shared.stateOf i = some .cancelled

def Pc.Withheld (i : Nat) : Pc → Prop
  | .gate j | .waiting j => j = i
  | .done (.error _) => True
  | .done (.ok (.range _ bytes)) => bytes = []
  | _ => False

def Pc.Refused (i : Nat) : Pc → Prop
  | .gate j | .waiting j => j = i
  | .done (.error _) => True
  | _ => False

section Turns

variable {view : View} {free : Prop} {request : Request} {pc next : Pc} {us : List Update}

theorem gate_withheld {peer : CertificateFingerprint} {session : TransferSession}
    (hsession : view.shared.sessions[i]? = some session) (hstop : Stopped view.shared i)
    (h : server.readRangeGate view peer session i = (us, next)) :
    next.Withheld i ∧ ∀ j offset read, Update.serve j offset read ∉ us := by
  rw [Stopped, Shared.stateOf_eq hsession] at hstop
  rcases readRangeGate_cases h with ⟨rfl, -, rfl⟩ | ⟨rfl, _, rfl⟩ | ⟨rfl, rfl, -⟩ |
    ⟨-, -, hpaused, hcancelled⟩
  · exact ⟨trivial, by simp⟩
  · exact ⟨trivial, by simp⟩
  · exact ⟨rfl, by simp⟩
  · rcases hstop with hstop | hstop
    · exact absurd (Option.some.inj hstop) hpaused
    · exact absurd (Option.some.inj hstop) hcancelled

theorem Turn.withheld (h : Turn server view free request pc us next) (hpc : pc.Withheld i)
    (hstop : Stopped view.shared i) :
    next.Withheld i ∧ ∀ j offset read, Update.serve j offset read ∉ us := by
  cases h with
  | gate hsession h =>
    obtain rfl := hpc
    exact gate_withheld hsession hstop h
  | wake timedOut hsession h =>
    obtain rfl := hpc
    rcases readRangeWake_cases h with ⟨rfl, -, rfl⟩ | h
    · exact ⟨rfl, by simp⟩
    · exact gate_withheld hsession hstop h
  | authorize | revoke | cancelNext | revoked | sample | admission | count | create | lookup | control
  | status | recheck | fetch | finish => cases hpc

theorem gate_refused {peer : CertificateFingerprint} {session : TransferSession}
    (hsession : view.shared.sessions[i]? = some session)
    (hstop : view.shared.stateOf i = some .cancelled)
    (h : server.readRangeGate view peer session i = (us, next)) :
    next.Refused i ∧ ∀ j offset read, Update.serve j offset read ∉ us := by
  rw [Shared.stateOf_eq hsession] at hstop
  have hstop := Option.some.inj hstop
  rcases readRangeGate_cases h with ⟨rfl, -, rfl⟩ | ⟨rfl, _, rfl⟩ | ⟨-, -, hpaused⟩ |
    ⟨-, -, -, hcancelled⟩
  · exact ⟨trivial, by simp⟩
  · exact ⟨trivial, by simp⟩
  · rw [hstop] at hpaused
    cases hpaused
  · exact absurd hstop hcancelled

theorem Turn.refused (h : Turn server view free request pc us next) (hpc : pc.Refused i)
    (hstop : view.shared.stateOf i = some .cancelled) :
    next.Refused i ∧ ∀ j offset read, Update.serve j offset read ∉ us := by
  cases h with
  | gate hsession h =>
    obtain rfl := hpc
    exact gate_refused hsession hstop h
  | wake timedOut hsession h =>
    obtain rfl := hpc
    rcases readRangeWake_cases h with ⟨-, hpaused, -⟩ | h
    · rw [Shared.stateOf_eq hsession, hpaused] at hstop
      cases hstop
    · exact gate_refused hsession hstop h
  | authorize | revoke | cancelNext | revoked | sample | admission | count | create | lookup | control
  | status | recheck | fetch | finish => cases hpc

end Turns

theorem StepWithoutResume.stopped (h : StepWithoutResume server i w l w')
    (hstop : Stopped w.shared i) : Stopped w'.shared i := by
  obtain ⟨hstep, hresume⟩ := h
  rcases hstop with hpaused | hcancelled
  · obtain ⟨b, hb, rfl | hmoves⟩ := hstep.stateOf hpaused
    · exact .inl hb
    · cases hmoves with
      | resume => exact absurd ⟨hpaused, hb⟩ hresume
      | cancel => exact .inr hb
  · exact .inr (hstep.terminal hcancelled rfl)

theorem run_keepsProgress {step : World → Label → World → Prop} {S : Shared → Prop}
    {P : Pc → Prop} (hstep : ∀ {w l w'}, step w l w' → Step server w l w')
    (hstop : ∀ {w l w'}, step w l w' → S w.shared → S w'.shared)
    (hturn : ∀ {view free request pc us next}, Turn server view free request pc us next → P pc →
      S view.shared → P next ∧ ∀ j offset read, Update.serve j offset read ∉ us)
    (h : Run step w ls w') {request : Request} {pc : Pc}
    (hcall : w.calls[k]? = some ⟨request, pc⟩) (hpc : P pc) (hs : S w.shared) :
    Run (TurnKeepsProgress k) w ls w' ∧ S w'.shared ∧
      ∃ pc', w'.calls[k]? = some ⟨request, pc'⟩ ∧ P pc' := by
  induction h with
  | nil => exact ⟨.nil, hs, pc, hcall, hpc⟩
  | @snoc labels l t u run last ih =>
    obtain ⟨hrun, hs, pc', hcall', hpc'⟩ := ih
    by_cases hl : ∃ us, l = .turn k us
    · obtain ⟨us, rfl⟩ := hl
      obtain ⟨next, hnext, hdone⟩ := (hstep last).turn_cases hcall'
      obtain ⟨hnextpc, hserve⟩ := hturn hnext hpc' hs
      exact ⟨.snoc hrun fun _ => (hstep last).sameProgress hserve, hstop last hs, next, hdone,
        hnextpc⟩
    · refine ⟨.snoc hrun fun h => absurd h hl, hstop last hs, pc', ?_, hpc'⟩
      exact (hstep last).call_kept hcall' fun us heq => hl ⟨us, heq⟩

theorem paused_read_withholds (h : Run (StepWithoutResume server i) w ls w')
    {request : Request} (hcall : w.calls[k]? = some ⟨request, .gate i⟩)
    (hstop : Stopped w.shared i) :
    Run (TurnKeepsProgress k) w ls w' ∧ ∀ status bytes,
      w'.calls[k]? = some ⟨request, .done (.ok (.range status bytes))⟩ → bytes = [] := by
  obtain ⟨hrun, -, pc', hcall', hpc'⟩ := run_keepsProgress (S := (Stopped · i))
    (P := Pc.Withheld i) (fun h => h.1) StepWithoutResume.stopped Turn.withheld h hcall rfl hstop
  refine ⟨hrun, fun status bytes hdone => ?_⟩
  rw [hcall'] at hdone
  cases hdone
  exact hpc'

theorem cancelled_read_refused (h : Run (Step server) w ls w') {request : Request}
    (hcall : w.calls[k]? = some ⟨request, .gate i⟩)
    (hstop : w.shared.stateOf i = some .cancelled) :
    Run (TurnKeepsProgress k) w ls w' ∧ ∀ result,
      w'.calls[k]? = some ⟨request, .done result⟩ → ∃ status, result = .error status := by
  obtain ⟨hrun, -, pc', hcall', hpc'⟩ := run_keepsProgress
    (S := (·.stateOf i = some .cancelled)) (P := Pc.Refused i) id
    (fun h hs => h.terminal hs rfl) Turn.refused h hcall rfl hstop
  refine ⟨hrun, fun result hdone => ?_⟩
  rw [hcall'] at hdone
  cases hdone
  cases result with
  | error status => exact ⟨status, rfl⟩
  | ok answer => exact absurd hpc' id

theorem finish_refused {peer : CertificateFingerprint} {credentials : TransferCredentials}
    {offset requested read : Nat} {bytes : List UInt8} {session : TransferSession}
    {us : List Update} (h : Step server w (.turn k us) w')
    (hcall : w.calls[k]? =
      some ⟨.readRange peer credentials offset requested, .finish i read bytes⟩)
    (hsession : w.shared.sessions[i]? = some session)
    (hstop : session.inner.state = .cancelled ∨ session.expiresAt ≤ w.now ∨
      server.peerIsAllowed w.toView peer = false) :
    w.shared.SameProgress w'.shared ∧ ∃ status, w'.calls[k]? =
      some ⟨.readRange peer credentials offset requested, .done (.error status)⟩ := by
  obtain ⟨next, hturn, hdone⟩ := h.turn_cases hcall
  cases hturn with
  | finish hfound hfinish =>
    rw [hsession] at hfound
    obtain rfl := Option.some.inj hfound
    rcases readRangeFinish_cases hfinish with ⟨rfl, -, rfl⟩ | ⟨rfl, status, rfl⟩ |
      ⟨-, hallowed, hlive, hstate, -⟩
    · exact ⟨h.sameProgress (by simp [Label.updates]), _, hdone⟩
    · exact ⟨h.sameProgress (by simp [Label.updates]), _, hdone⟩
    · rcases hstop with hcancelled | hexpired | hdenied
      · exact absurd hcancelled hstate
      · exact absurd hexpired (Nat.not_le.mpr hlive)
      · rw [hallowed] at hdenied
        cases hdenied

def ServerState.SourcesBounded (server : ServerState) : Prop :=
  ∀ fileId source, server.offered.source fileId = some source → source.Bounded

theorem ReadBy.length {request : Request} {read : Nat} {bytes : List UInt8}
    (h : ReadBy server request read bytes) (hbounded : server.SourcesBounded) :
    bytes.length = read := by
  obtain ⟨peer, credentials, offset, requested, source, entry, -, hsource, -, attempt, buffer,
    hread, rfl⟩ := h
  have hle := hbounded _ _ hsource attempt offset _ read buffer hread
  rw [List.length_take, buffer.property, Nat.min_eq_left hle]

theorem coverageOf_serve {shared : Shared} {session : TransferSession} {offset read : Nat}
    (hsession : shared.sessions[i]? = some session) (j : Nat) :
    (shared.run (.serve i offset read)).coverageOf j =
      if j = i then (shared.coverageOf i).note offset read else shared.coverageOf j := by
  have hmodify := Shared.coverageOf_modifyInner (i := i)
    (f := (·.serve offset read)) shared j
  refine hmodify.trans ?_
  by_cases h : j = i
  · subst h
    simp [Shared.coverageOf, hsession, TransferInner.serve]
  · simp [Shared.coverageOf, h, Ne.symm h]

structure Served (w w' : World) (k i offset read : Nat) (request : Request)
    (status : TransferStatus) (bytes : List UInt8) : Prop where
  answered : At k request (.done (.ok (.range status bytes))) w'
  returned : bytes.length = read
  served : w'.shared.metrics.servedBytes = w.shared.metrics.servedBytes + read
  noted : ∀ j, w'.shared.coverageOf j =
    if j = i then (w.shared.coverageOf i).note offset read else w.shared.coverageOf j

theorem progress_only_when_served {now : Nat} {trusted : CertificateFingerprint → Bool}
    (hbounded : server.SourcesBounded) (hrun : Run (Step server) (World.start now trusted) ls w)
    (h : Step server w l w') : w.shared.SameProgress w'.shared ∨
      ∃ k us i peer credentials offset requested read status bytes, l = .turn k us ∧
        Served w w' k i offset read (.readRange peer credentials offset requested) status
          bytes := by
  have hcases := h
  cases h with
  | clock | trust | invoke | cleanup =>
    exact .inl (hcases.sameProgress (by simp [Label.updates]))
  | @turn k call us next hcall hturn =>
    obtain ⟨request, pc⟩ := call
    cases hturn.effect with
    | none | deny | replay | beginRead | prune | pruneReplay | create | control | revoke
    | refuse => exact .inl (hcases.sameProgress (by simp [Label.updates]))
    | @serve peer credentials offset requested i read bytes session hrequest hpc hsession hallowed
        hlive hstate hnext =>
      have hrequest : request = .readRange peer credentials offset requested := hrequest
      have hpc : pc = .finish i read bytes := hpc
      subst hrequest hpc hnext
      have htraced := traced_of_run hrun hcall rfl
      refine .inr ⟨k, _, i, peer, credentials, offset, requested, read,
        (session.inner.serve offset read).status, bytes, rfl, ?_, ?_, ?_, ?_⟩
      · exact List.getElem?_set_self (List.getElem?_eq_some_iff.mp hcall).1
      · exact htraced.2.length hbounded
      · rfl
      · exact fun j => coverageOf_serve hsession j

theorem no_bytes_after_stop {now : Nat} {trusted : CertificateFingerprint → Bool}
    (hbounded : server.SourcesBounded) (hrun : Run (Step server) (World.start now trusted) ls w) :
    (∀ i k request ls₁ w₁ ls₂ w₂, w.shared.stateOf i = some .paused →
      Run (StepWithoutResume server i) w ls₁ w₁ → At k request (.gate i) w₁ →
      Run (StepWithoutResume server i) w₁ ls₂ w₂ →
        Run (TurnKeepsProgress k) w₁ ls₂ w₂ ∧ ∀ status bytes,
          At k request (.done (.ok (.range status bytes))) w₂ → bytes = []) ∧
    (∀ i k request ls₁ w₁ ls₂ w₂, w.shared.stateOf i = some .cancelled →
      Run (Step server) w ls₁ w₁ → At k request (.gate i) w₁ → Run (Step server) w₁ ls₂ w₂ →
        Run (TurnKeepsProgress k) w₁ ls₂ w₂ ∧ ∀ result,
          At k request (.done result) w₂ → ∃ status, result = .error status) ∧
    (∀ i k peer credentials offset requested read bytes session us w',
      At k (.readRange peer credentials offset requested) (.finish i read bytes) w →
      w.shared.sessions[i]? = some session →
      session.inner.state = .cancelled ∨ session.expiresAt ≤ w.now ∨
        server.peerIsAllowed w.toView peer = false →
      Step server w (.turn k us) w' → w.shared.SameProgress w'.shared ∧ ∃ status,
        At k (.readRange peer credentials offset requested) (.done (.error status)) w') ∧
    (∀ l w', Step server w l w' → w.shared.SameProgress w'.shared ∨
      ∃ k us i peer credentials offset requested read status bytes, l = .turn k us ∧
        Served w w' k i offset read (.readRange peer credentials offset requested) status
          bytes) := by
  refine ⟨?_, ?_, ?_, ?_⟩
  · intro i k request ls₁ w₁ ls₂ w₂ hpaused hbefore hcall hafter
    have hstopped : Stopped w₁.shared i :=
      hbefore.invariant (I := fun w => Stopped w.shared i) (fun hs h => h.stopped hs) (.inl hpaused)
    exact paused_read_withholds hafter hcall hstopped
  · intro i k request ls₁ w₁ ls₂ w₂ hcancelled hbefore hcall hafter
    exact cancelled_read_refused hafter hcall (terminal_of_run hbefore hcancelled rfl)
  · intro i k peer credentials offset requested read bytes session us w' hcall hsession hstop hstep
    exact finish_refused hstep hcall hsession hstop
  · intro l w' hstep
    exact progress_only_when_served hbounded hrun hstep

theorem soloServer_bounded : soloServer.SourcesBounded := by
  intro fileId source hsource
  rw [SecureOfferedFile.source, soloServer] at hsource
  by_cases hfile : fileId = repeatedId 1
  · rw [hfile, AList.lookup_insert] at hsource
    obtain rfl := Option.some.inj hsource
    exact memorySource_bounded _
  · rw [AList.lookup_insert_ne hfile] at hsource
    cases hsource

def soloPause : Request := .control soloPeer (soloSession.credentials 0) 1 .pause

def soloRead : Request := .readRange soloPeer (soloSession.credentials 0) 0 5

theorem soloPausedRead_run : ∃ ls w ls₁ w₁ ls₂ w₂,
    Run (Step soloServer) soloStart ls w ∧ w.shared.stateOf 0 = some .paused ∧
    Run (StepWithoutResume soloServer 0) w ls₁ w₁ ∧ At 2 soloRead (.gate 0) w₁ ∧
    Run (StepWithoutResume soloServer 0) w₁ ls₂ w₂ ∧
    At 2 soloRead (.done (.ok (.range ⟨.paused, 0⟩ []))) w₂ :=
  ⟨_, _, _, _, _, _, soloBegin_run
    |>.snoc (.invoke soloPause)
    |>.snoc (.turn (k := 1) rfl (.authorize rfl))
    |>.snoc (.turn (k := 1) rfl (.lookup (World.serverLockFree_of_all rfl) rfl rfl))
    |>.snoc (.turn (k := 1) rfl (.control rfl rfl)), rfl,
    (Run.single ⟨.invoke soloRead, fun h => nomatch h.2⟩)
    |>.snoc ⟨.turn (k := 2) rfl (.authorize rfl), fun h => nomatch h.2⟩
    |>.snoc ⟨.turn (k := 2) rfl (.lookup (World.serverLockFree_of_all rfl) rfl rfl),
      fun h => nomatch h.2⟩, rfl,
    (Run.single ⟨.turn (k := 2) rfl (.gate rfl rfl), fun h => nomatch h.2⟩)
    |>.snoc ⟨.turn (k := 2) rfl (.wake true rfl rfl), fun h => nomatch h.2⟩, rfl⟩

theorem no_bytes_after_stop_paused : ∃ ls₂ w₁ w₂, At 2 soloRead (.gate 0) w₁ ∧
    Run (TurnKeepsProgress 2) w₁ ls₂ w₂ ∧ ∀ status bytes,
      At 2 soloRead (.done (.ok (.range status bytes))) w₂ → bytes = [] := by
  obtain ⟨ls, w, ls₁, w₁, ls₂, w₂, hrun, hpaused, hbefore, hgate, hafter, -⟩ := soloPausedRead_run
  obtain ⟨hwithheld, -⟩ := no_bytes_after_stop soloServer_bounded hrun
  exact ⟨ls₂, w₁, w₂, hgate,
    hwithheld 0 2 soloRead ls₁ w₁ ls₂ w₂ hpaused hbefore hgate hafter⟩

end ClipFerry.Server
