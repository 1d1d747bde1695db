import ClipFerry.Server.Authorization
import ClipFerry.Server.ReadPath
import ClipFerry.Server.RetryingClient

namespace ClipFerry.Server

open Protocol Foundation Transition

variable {server : ServerState} {w w' : World} {l : Label} {ls : List Label} {i k offset requested
  read : Nat} {credentials : TransferCredentials}

structure Execution (server : ServerState) (credentials : TransferCredentials)
    (offset requested k i read : Nat) (w w' : World) : Prop where
  reading : ∃ peer bytes,
    At k (.readRange peer credentials offset requested) (.finish i read bytes) w
  noted : Step server w (.turn k [.serve i offset read]) w'

theorem Execution.coverageOf
    (h : Execution server credentials offset requested k i read w w') :
    w'.shared.coverageOf i = (w.shared.coverageOf i).note offset read := by
  obtain ⟨peer, bytes, hcall⟩ := h.reading
  obtain ⟨next, hturn, -⟩ := h.noted.turn_cases hcall
  cases hturn with
  | finish hsession =>
    rw [h.noted.shared_eq]
    exact (coverageOf_serve hsession i).trans (if_pos rfl)

theorem coverageOf_cases (h : Step server w l w') (i : Nat) :
    w'.shared.coverageOf i = w.shared.coverageOf i ∨
      ∃ credentials offset requested k read,
        Execution server credentials offset requested k i read w w' := by
  have hstep := h
  cases h with
  | clock | trust | invoke | cleanup =>
    exact .inl ((hstep.sameProgress (by simp [Label.updates])).2 i)
  | @turn k call us next hcall hturn =>
    obtain ⟨request, pc⟩ := call
    cases hturn.effect with
    | none | deny | replay | beginRead | prune | pruneReplay | create | control | revoke
    | refuse => exact .inl ((hstep.sameProgress (by simp [Label.updates])).2 i)
    | @serve peer credentials offset requested j read bytes session hrequest hpc hsession =>
      obtain rfl : request = .readRange peer credentials offset requested := hrequest
      obtain rfl : pc = .finish j read bytes := hpc
      by_cases hj : i = j
      · subst hj
        exact .inr ⟨credentials, offset, requested, k, read, ⟨peer, bytes, hcall⟩, hstep⟩
      · refine .inl ?_
        rw [hstep.shared_eq]
        exact (coverageOf_serve hsession i).trans (if_neg hj)

theorem wellFormed_of_run {now : Nat} {trusted : CertificateFingerprint → Bool}
    (h : Run (Step server) (World.start now trusted) ls w) (i : Nat) :
    (w.shared.coverageOf i).WellFormed := by
  refine h.invariant (I := fun w => (w.shared.coverageOf i).WellFormed) ?_
    RangeCoverage.empty_wellFormed
  intro w l w' hw hstep
  rcases coverageOf_cases hstep i with hsame | ⟨_, offset, _, _, read, hexecution⟩
  · rwa [hsame]
  · rw [hexecution.coverageOf]
    exact hw.note offset read

theorem knows_of_run {a b : Nat} (h : Run (Step server) w ls w')
    (hw : (w.shared.coverageOf i).WellFormed) (hknows : (w.shared.coverageOf i).Knows a b) :
    (w'.shared.coverageOf i).Knows a b := by
  have hboth : (w'.shared.coverageOf i).WellFormed ∧ (w'.shared.coverageOf i).Knows a b := by
    refine h.invariant
      (I := fun w => (w.shared.coverageOf i).WellFormed ∧ (w.shared.coverageOf i).Knows a b) ?_
      ⟨hw, hknows⟩
    rintro w l w' ⟨hw, hknows⟩ hstep
    rcases coverageOf_cases hstep i with hsame | ⟨_, offset, _, _, read, hexecution⟩
    · rw [hsame]
      exact ⟨hw, hknows⟩
    · rw [hexecution.coverageOf]
      exact ⟨hw.note offset read, hknows.note hw offset read⟩
  exact hboth.2

theorem repeated_execution {now : Nat} {trusted : CertificateFingerprint → Bool}
    (hrun : Run (Step server) (World.start now trusted) ls w) {w₁ w₂ w₃ : World}
    {ls' : List Label} {k' read' requested' : Nat} {other : TransferCredentials}
    (hfirst : Execution server credentials offset requested k i read w w₁)
    (hbetween : Run (Step server) w₁ ls' w₂)
    (hagain : Execution server other offset requested' k' i read' w₂ w₃) (hle : read' ≤ read) :
    w₃.shared.coverageOf i = w₂.shared.coverageOf i := by
  have hw₁ := wellFormed_of_run (hrun.snoc hfirst.noted) i
  have hw₂ := wellFormed_of_run ((hrun.snoc hfirst.noted).append hbetween) i
  have hknown : (w₁.shared.coverageOf i).Knows offset (offset + read) := by
    rw [hfirst.coverageOf]
    exact RangeCoverage.note_knows (wellFormed_of_run hrun i) offset read
  have hstill := knows_of_run hbetween hw₁ hknown
  rw [hagain.coverageOf]
  exact RangeCoverage.note_known hw₂ (hstill.mono (Nat.add_le_add_left hle offset))

theorem Execution.readBy {now : Nat} {trusted : CertificateFingerprint → Bool}
    (hrun : Run (Step server) (World.start now trusted) ls w)
    (h : Execution server credentials offset requested k i read w w') : ∃ bytes source entry,
      FromSource server credentials.fileId offset requested read bytes source entry := by
  obtain ⟨peer, bytes, hcall⟩ := h.reading
  obtain ⟨-, _, _, _, _, source, entry, heq, hfrom⟩ := traced_of_run hrun hcall rfl
  cases heq
  exact ⟨bytes, source, entry, hfrom⟩

theorem steady_execution {now : Nat} {trusted : CertificateFingerprint → Bool}
    (hrun : Run (Step server) (World.start now trusted) ls w) {w₁ w₂ w₃ : World}
    {ls' : List Label} {k' read' : Nat}
    (hfirst : Execution server credentials offset requested k i read w w₁)
    (hbetween : Run (Step server) w₁ ls' w₂)
    (hagain : Execution server credentials offset requested k' i read' w₂ w₃)
    (hsteady : ∀ source, server.offered.source credentials.fileId = some source →
      source.Steady) : read' = read := by
  obtain ⟨_, source, entry, hsource, hentry, attempt, buffer, hread, -⟩ := hfirst.readBy hrun
  obtain ⟨_, source', entry', hsource', hentry', attempt', buffer', hread', -⟩ :=
    hagain.readBy ((hrun.snoc hfirst.noted).append hbetween)
  rw [hsource] at hsource'
  rw [hentry] at hentry'
  obtain rfl := Option.some.inj hsource'
  obtain rfl := Option.some.inj hentry'
  exact hsteady source hsource attempt' attempt _ _ _ _ _ _ hread' hread

def AppliedOnce (i : Nat) (us : List Update) (command : Nat × Opcode) : Prop :=
  (appliedControls i us).count command = 1

def AnsweredOnce (i : Nat) (us : List Update) (command : Nat × Opcode)
    (result : WireResult Answer) : Prop :=
  ((∃ answer, result = .ok answer) ∧ AppliedOnce i us command) ∨
    result = .error .denied ∨ result = .error .expired

theorem dialogue_answered {now : Nat} {trusted : CertificateFingerprint → Bool}
    {session : TransferSession} {d : Dialogue} {as : List Action}
    (hrun : Run (Step server) (World.start now trusted) ls w)
    (hsession : w.shared.sessions[i]? = some session) (hfresh : session.inner = .fresh)
    (hid : session.transferId = credentials.transferId)
    (hcapability : session.capability = credentials.capability)
    (hunsent : ∀ call ∈ w.calls, Copied credentials [] call.request)
    (hdialogue : Run (DialogueStep server credentials) ⟨w, [], []⟩ as d)
    (hids : d.world.shared.transferIds.Nodup) :
    (∀ (n : Nat) result, d.client.answers[n]? = some result → ∃ command,
      d.client.issued[n]? = some command ∧
        AnsweredOnce i (as.flatMap Action.updates) command result) ∧
    (∀ k request sequence opcode result, At k request (.done result) d.world →
      Bears credentials request sequence opcode →
      d.client.issued.getLast? = some (sequence, opcode) →
        AnsweredOnce i (as.flatMap Action.updates) (sequence, opcode) result) := by
  have hagreed := agreed_of_dialogue hrun hsession hfresh hid hcapability hunsent hdialogue hids
  obtain ⟨_, -, -, -, hlog⟩ := hagreed.session
  refine ⟨?_, ?_⟩
  · intro n result hresult
    obtain ⟨command, hissued, ⟨hok, hmem⟩ | hrest⟩ := hagreed.answers n result hresult
    · exact ⟨command, hissued, .inl ⟨hok, hlog.once hmem⟩⟩
    · exact ⟨command, hissued, .inr hrest⟩
  · intro k request sequence opcode result hcall hbears hcurrent
    rcases hagreed.outcomes k request sequence opcode result hcall hbears with ⟨hok, hmem⟩ |
      hdenied | hexpired | ⟨-, later, hlater, hlt⟩
    · exact .inl ⟨hok, hlog.once hmem⟩
    · exact .inr (.inl hdenied)
    · exact .inr (.inr hexpired)
    · exact (Nat.not_lt.mpr (hagreed.issued.le_last hcurrent hlater) hlt).elim

theorem begin_answered {now : Nat} {trusted : CertificateFingerprint → Bool} {nonce : Secret}
    (hrun : Run (Step server) (World.start now trusted) ls w) (hunseen : Unseen nonce w)
    {ls' : List Label} (hrun' : Run (Step server) w ls' w')
    (hids : w'.shared.transferIds.Nodup) (hlimit : w'.now < w.now + server.transferTtl) :
    createdCount nonce ls' ≤ 1 ∧ ∀ credentials, Begun nonce w' credentials →
      createdCount nonce ls' = 1 ∧ ∃ created, Created ls' nonce created ∧
        ∀ other, Begun nonce w' other → SameTransfer other (created.credentials 0) := by
  rcases begin_retried hrun hunseen hrun' hids hlimit with hun | ⟨created, hsettled⟩
  · refine ⟨hun.none ▸ Nat.zero_le _, ?_⟩
    intro credentials hbegun
    exact (hun.unbegun credentials hbegun).elim
  · refine ⟨Nat.le_of_eq hsettled.once, ?_⟩
    intro credentials hbegun
    exact ⟨hsettled.once, created, hsettled.paired.1, hsettled.same⟩

theorem retried_commands_once {now : Nat} {trusted : CertificateFingerprint → Bool}
    (hrun : Run (Step server) (World.start now trusted) ls w) :
    (∀ i session, w.shared.sessions[i]? = some session → ∃ before w₀ after,
      ls = before ++ after ∧ Run (Step server) (World.start now trusted) before w₀ ∧
      Run (Step server) w₀ after w ∧
      w₀.shared.sessions[i]? = some { session with inner := .fresh } ∧
      ControlLog i (after.flatMap Label.updates) session.inner) ∧
    (∀ i session credentials as d, w.shared.sessions[i]? = some session →
      session.inner = .fresh → session.transferId = credentials.transferId →
      session.capability = credentials.capability →
      (∀ call ∈ w.calls, Copied credentials [] call.request) →
      Run (DialogueStep server credentials) ⟨w, [], []⟩ as d →
      d.world.shared.transferIds.Nodup →
        (∀ (n : Nat) result, d.client.answers[n]? = some result → ∃ command,
          d.client.issued[n]? = some command ∧
            AnsweredOnce i (as.flatMap Action.updates) command result) ∧
        ∀ k request sequence opcode result, At k request (.done result) d.world →
          Bears credentials request sequence opcode →
          d.client.issued.getLast? = some (sequence, opcode) →
            AnsweredOnce i (as.flatMap Action.updates) (sequence, opcode) result) ∧
    (∀ nonce ls' w', Unseen nonce w → Run (Step server) w ls' w' →
      w'.shared.transferIds.Nodup → w'.now < w.now + server.transferTtl →
        createdCount nonce ls' ≤ 1 ∧ ∀ credentials, Begun nonce w' credentials →
          createdCount nonce ls' = 1 ∧ ∃ created, Created ls' nonce created ∧
            ∀ other, Begun nonce w' other → SameTransfer other (created.credentials 0)) ∧
    (∀ credentials offset requested i k k' read read' ls' w₁ w₂ w₃,
      Execution server credentials offset requested k i read w w₁ →
      Run (Step server) w₁ ls' w₂ →
      Execution server credentials offset requested k' i read' w₂ w₃ →
      (read' ≤ read ∨ ∀ source, server.offered.source credentials.fileId = some source →
        source.Steady) →
        w₃.shared.coverageOf i = w₂.shared.coverageOf i) := by
  refine ⟨?_, ?_, ?_, ?_⟩
  · intro i session hsession
    obtain ⟨before, w₀, after, rfl, hbefore, hafter, hfresh⟩ := created_of_run hrun hsession
    refine ⟨before, w₀, after, rfl, hbefore, hafter, hfresh, ?_⟩
    have hlog := controlLog_of_run hafter hfresh rfl
    rw [session_of_run hafter hfresh] at hsession
    have hinner := congrArg TransferSession.inner (Option.some.inj hsession)
    exact hinner ▸ hlog
  · intro i session credentials as d hsession hfresh hid hcapability hunsent hdialogue hids
    exact dialogue_answered hrun hsession hfresh hid hcapability hunsent hdialogue hids
  · intro nonce ls' w' hunseen hrun' hids hlimit
    exact begin_answered hrun hunseen hrun' hids hlimit
  · intro credentials offset requested i k k' read read' ls' w₁ w₂ w₃ hfirst hbetween hagain hread
    apply repeated_execution hrun hfirst hbetween hagain
    rcases hread with hle | hsteady
    · exact hle
    · exact Nat.le_of_eq (steady_execution hrun hfirst hbetween hagain hsteady)

theorem soloPause_copied : Copied (soloSession.credentials 0) [(1, .pause)] soloPause := by
  intro peer other sequence opcode hrequest _
  cases hrequest
  exact ⟨rfl, List.mem_singleton.mpr rfl⟩

theorem soloPause_dialogue : ∃ as d status, Run
    (DialogueStep soloServer (soloSession.credentials 0)) ⟨soloBegun, [], []⟩ as d ∧
    d.client.issued[0]? = some (1, .pause) ∧
    d.client.answers[0]? = some (.ok (.status status)) ∧ d.world.shared.transferIds.Nodup :=
  ⟨_, _, _, (Run.single (@DialogueStep.issue soloServer (soloSession.credentials 0)
      ⟨soloBegun, [], []⟩ 1 .pause rfl Nat.one_pos (fun _ h => nomatch h) rfl))
    |>.snoc (.server (.invoke soloPause) fun _ h => Label.invoke.inj h ▸ soloPause_copied)
    |>.snoc (.server (.turn (k := 1) rfl (.authorize rfl)) fun _ h => nomatch h)
    |>.snoc (.server (.turn (k := 1) rfl
      (.lookup (World.serverLockFree_of_all rfl) rfl rfl)) fun _ h => nomatch h)
    |>.snoc (.server (.turn (k := 1) rfl (.control rfl rfl)) fun _ h => nomatch h)
    |>.snoc (.receive (k := 1) Nat.one_pos rfl rfl ⟨soloPeer, _, rfl, rfl⟩), rfl, rfl,
    List.nodup_singleton _⟩

theorem retried_commands_once_pause : ∃ (as : List Action) (status : TransferStatus),
    AnsweredOnce 0 (as.flatMap Action.updates) (1, .pause) (.ok (.status status)) ∧
    createdCount (repeatedSecret 5) soloBeginLabels = 1 := by
  obtain ⟨as, d, status, hdialogue, hissued, hanswer, hids⟩ := soloPause_dialogue
  obtain ⟨-, hcontrols, -, -⟩ := retried_commands_once soloBegin_run
  obtain ⟨-, -, hbegins, -⟩ := @retried_commands_once soloServer soloStart [] 0 (fun _ => true) .nil
  have hunsent : ∀ call ∈ soloBegun.calls,
      Copied (soloSession.credentials 0) [] call.request := by
    intro call hcall peer other sequence opcode hrequest
    cases List.mem_singleton.mp hcall
    cases hrequest
  obtain ⟨command, hcommand, honce⟩ :=
    (hcontrols 0 soloSession (soloSession.credentials 0) as d rfl rfl rfl rfl hunsent hdialogue
      hids).1 0 _ hanswer
  rw [hissued] at hcommand
  obtain rfl := Option.some.inj hcommand
  have hbegun : Begun (repeatedSecret 5) soloBegun (soloSession.credentials 0) :=
    ⟨0, soloPeer, repeatedId 0, repeatedId 1, rfl⟩
  obtain ⟨-, hcreated⟩ := hbegins (repeatedSecret 5) soloBeginLabels soloBegun
    ⟨rfl, fun call hcall => nomatch hcall⟩ soloBegin_run (List.nodup_singleton _) (by decide)
  exact ⟨as, status, honce, (hcreated _ hbegun).1⟩

/-! A source with short reads: the first attempt returns one byte, the next one two, and so on. -/

def slowSource (bytes : List UInt8) : ReadAtSource where
  len := .ofNat bytes.length
  readAt attempt offset length :=
    ((memorySource bytes).readAt attempt offset length).map fun out =>
      (min (attempt + 1) out.1, out.2)

def slowServer : ServerState :=
  { soloServer with offered.sources := AList.insert (repeatedId 1) (slowSource [1, 2, 3, 4, 5]) ∅ }

theorem slowBegin_run : Run (Step slowServer) soloStart soloBeginLabels soloBegun := by
  have h := (Run.single (@Step.invoke slowServer soloStart soloBegin))
    |>.snoc (.turn (k := 0) rfl (.authorize rfl))
    |>.snoc (.turn (k := 0) rfl (.sample rfl))
    |>.snoc (.turn (k := 0) rfl (.admission (World.serverLockFree_of_all rfl) rfl))
    |>.snoc (.turn (k := 0) rfl (.create soloDraw rfl))
  exact h

def soloReadTurns (k read : Nat) : List Label :=
  [.invoke soloFirstRead, .turn k [], .turn k [.beginRead], .turn k [], .turn k [], .turn k [],
    .turn k [.serve 0 0 read]]

theorem resent_read_grows : ∃ w,
    Run (Step slowServer) soloStart (soloBeginLabels ++ soloReadTurns 1 1 ++ soloReadTurns 2 2) w ∧
    At 1 soloFirstRead (.done (.ok (.range ⟨.running, 1⟩ [1]))) w ∧
    At 2 soloFirstRead (.done (.ok (.range ⟨.running, 2⟩ [1, 2]))) w :=
  ⟨_, slowBegin_run
    |>.snoc (.invoke soloFirstRead)
    |>.snoc (.turn (k := 1) rfl (.authorize rfl))
    |>.snoc (.turn (k := 1) rfl (.lookup (World.serverLockFree_of_all rfl) rfl rfl))
    |>.snoc (.turn (k := 1) rfl (.gate rfl rfl))
    |>.snoc (.turn (k := 1) rfl (.recheck rfl))
    |>.snoc (.turn (k := 1) rfl (.fetch 0 rfl rfl))
    |>.snoc (.turn (k := 1) rfl (.finish rfl rfl))
    |>.snoc (.invoke soloFirstRead)
    |>.snoc (.turn (k := 2) rfl (.authorize rfl))
    |>.snoc (.turn (k := 2) rfl (.lookup (World.serverLockFree_of_all rfl) rfl rfl))
    |>.snoc (.turn (k := 2) rfl (.gate rfl rfl))
    |>.snoc (.turn (k := 2) rfl (.recheck rfl))
    |>.snoc (.turn (k := 2) rfl (.fetch 1 rfl rfl))
    |>.snoc (.turn (k := 2) rfl (.finish rfl rfl)), rfl, rfl⟩

theorem expired_dialogue : ∃ as d, Run
    (DialogueStep soloServer (soloSession.credentials 0)) ⟨soloBegun, [], []⟩ as d ∧
    d.client.issued[0]? = some (1, .pause) ∧ d.client.answers[0]? = some (.error .expired) ∧
    appliedControls 0 (as.flatMap Action.updates) = [] :=
  ⟨_, _, (Run.single (@DialogueStep.issue soloServer (soloSession.credentials 0)
      ⟨soloBegun, [], []⟩ 1 .pause rfl Nat.one_pos (fun _ h => nomatch h) rfl))
    |>.snoc (.server (.clock (Nat.zero_le (fromMillis 1000))) fun _ h => nomatch h)
    |>.snoc (.server (.invoke soloPause) fun _ h => Label.invoke.inj h ▸ soloPause_copied)
    |>.snoc (.server (.turn (k := 1) rfl (.authorize rfl)) fun _ h => nomatch h)
    |>.snoc (.server (.turn (k := 1) rfl
      (.lookup (World.serverLockFree_of_all rfl) rfl rfl)) fun _ h => nomatch h)
    |>.snoc (.receive (k := 1) Nat.one_pos rfl rfl ⟨soloPeer, _, rfl, rfl⟩), rfl, rfl, rfl⟩

theorem retries_refused_or_grown :
    (∃ as d, Run (DialogueStep soloServer (soloSession.credentials 0)) ⟨soloBegun, [], []⟩ as d ∧
      d.client.issued[0]? = some (1, .pause) ∧ d.client.answers[0]? = some (.error .expired) ∧
      appliedControls 0 (as.flatMap Action.updates) = []) ∧
    ∃ w, Run (Step slowServer) soloStart
        (soloBeginLabels ++ soloReadTurns 1 1 ++ soloReadTurns 2 2) w ∧
      At 1 soloFirstRead (.done (.ok (.range ⟨.running, 1⟩ [1]))) w ∧
      At 2 soloFirstRead (.done (.ok (.range ⟨.running, 2⟩ [1, 2]))) w :=
  ⟨expired_dialogue, resent_read_grows⟩

end ClipFerry.Server
