import ClipFerry.Server.BeginRetry
import ClipFerry.Server.CallTrace
import ClipFerry.Server.ControlLog

namespace ClipFerry.Server

open Protocol Foundation Transition

/-! A client of one session: it issues the next control once the last one is answered. Copies of
what it issued reach the server at any time, any number of times and in any order. -/

structure ControlClient where
  issued : List (Nat × Opcode)
  answers : List (WireResult Answer)

structure Dialogue where
  world : World
  client : ControlClient

inductive Action where
  | server (label : Label)
  | issue
  | receive

def Action.labels : Action → List Label
  | server label => [label]
  | issue | receive => []

def Action.updates : Action → List Update
  | server label => label.updates
  | issue | receive => []

def Bears (credentials : TransferCredentials) (request : Request) (sequence : Nat)
    (opcode : Opcode) : Prop :=
  ∃ peer other, request = .control peer other sequence opcode ∧
    other.capability = credentials.capability

def Copied (credentials : TransferCredentials) (issued : List (Nat × Opcode))
    (request : Request) : Prop :=
  ∀ peer other sequence opcode, request = .control peer other sequence opcode →
    other.capability = credentials.capability →
      other.transferId = credentials.transferId ∧ (sequence, opcode) ∈ issued

inductive DialogueStep (server : ServerState) (credentials : TransferCredentials) :
    Dialogue → Action → Dialogue → Prop
  | server {d : Dialogue} {l : Label} {w : World} (h : Step server d.world l w)
      (hcopy : ∀ request, l = .invoke request → Copied credentials d.client.issued request) :
      DialogueStep server credentials d (.server l) { d with world := w }
  | issue {d : Dialogue} {sequence : Nat} {opcode : Opcode} (hcontrol : opcode.isControl = true)
      (hpositive : 0 < sequence) (hnext : ∀ command ∈ d.client.issued, command.1 < sequence)
      (hanswered : d.client.answers.length = d.client.issued.length) :
      DialogueStep server credentials d .issue
        { d with client.issued := d.client.issued ++ [(sequence, opcode)] }
  | receive {d : Dialogue} {k : Nat} {request : Request} {sequence : Nat} {opcode : Opcode}
      {result : WireResult Answer}
      (hwaiting : d.client.answers.length < d.client.issued.length)
      (hcall : At k request (.done result) d.world)
      (hcurrent : d.client.issued.getLast? = some (sequence, opcode))
      (hbears : Bears credentials request sequence opcode) :
      DialogueStep server credentials d .receive
        { d with client.answers := d.client.answers ++ [result] }

variable {server : ServerState} {start w w' : World} {l : Label} {ls : List Label} {i j k : Nat}
  {credentials other : TransferCredentials} {request : Request} {pc next : Pc}
  {us : List Update} {view : View} {free : Prop} {session : TransferSession}

theorem Turn.control_done {peer : CertificateFingerprint} {sequence : Nat} {opcode : Opcode}
    {result : WireResult Answer}
    (h : Turn server view free (.control peer other sequence opcode) pc us (.done result)) :
    result = .error .denied ∨ result = .error .expired ∨
      ∃ i session, pc = .apply i ∧ view.shared.sessions[i]? = some session ∧
        ServerState.control session i sequence opcode = (us, .done result) := by
  generalize hnext : Pc.done result = next at h
  cases h with
  | authorize h =>
    subst hnext
    rcases ensurePeerAllowed_cases h with ⟨-, -, heq⟩ | ⟨-, -, heq⟩ <;> cases heq
  | revoke | cancelNext | count => cases hnext
  | revoked =>
    cases hnext
    exact .inl rfl
  | lookup hfree hcredentials h =>
    subst hnext
    rcases authenticatedSession_cases h with ⟨-, status, heq, rfl | rfl⟩ | ⟨_, _, -, -, -, -, h⟩
    · cases heq
      exact .inl rfl
    · cases heq
      exact .inr (.inl rfl)
    · rcases authenticated_cases h with ⟨-, heq, -⟩ | ⟨-, heq⟩ <;> cases heq
  | control hsession h =>
    subst hnext
    exact .inr (.inr ⟨_, _, rfl, hsession, h⟩)

theorem nodup_of_run (h : Run (Step server) w ls w') (hids : w'.shared.transferIds.Nodup) :
    w.shared.transferIds.Nodup := by
  induction h with
  | nil => exact hids
  | snoc _ last ih => exact ih (last.transferIds_nodup hids)

theorem session_of_transferId {shared : Shared} (hids : shared.transferIds.Nodup)
    {one two : TransferSession} (hi : shared.sessions[i]? = some one)
    (hj : shared.sessions[j]? = some two) (heq : one.transferId = two.transferId) : i = j := by
  obtain ⟨hilt, hione⟩ := List.getElem?_eq_some_iff.mp hi
  obtain ⟨hjlt, hjtwo⟩ := List.getElem?_eq_some_iff.mp hj
  have hilt' : i < shared.transferIds.length := by simpa [Shared.transferIds] using hilt
  have hjlt' : j < shared.transferIds.length := by simpa [Shared.transferIds] using hjlt
  have hsame : shared.transferIds[i] = shared.transferIds[j] := by
    simp only [Shared.transferIds, List.getElem_map, hione, hjtwo, heq]
  exact hids.getElem_inj_iff.mp hsame

theorem Granted.names {now : Nat} {trusted : CertificateFingerprint → Bool}
    (h : Granted server (World.start now trusted) k request credentials i ls w)
    (hids : w.shared.transferIds.Nodup) (hsession : w.shared.sessions[i]? = some session) :
    session.transferId = credentials.transferId ∧
      session.capability = credentials.capability := by
  obtain ⟨before, u, after, -, hbefore, hafter, -, ⟨granted, hgranted⟩, -⟩ := h
  obtain ⟨htable, -⟩ := nonceTable_of_run hbefore (nodup_of_run hafter hids)
  obtain ⟨nonce, created, ⟨-, -, j, inner, htransfer, hfound⟩, hid⟩ :=
    htable.begun credentials.transferId i hgranted.listed
  rw [hid, hgranted.listed] at htransfer
  obtain rfl := Option.some.inj htransfer
  rw [hgranted.found] at hfound
  obtain rfl := Option.some.inj hfound
  rw [session_of_run hafter hgranted.found] at hsession
  obtain rfl := Option.some.inj hsession
  exact ⟨hid, hgranted.capability⟩

structure Issued (issued : List (Nat × Opcode)) : Prop where
  control : ∀ command ∈ issued, command.2.isControl = true
  positive : ∀ command ∈ issued, 0 < command.1
  increasing : issued.Pairwise fun c d => c.1 < d.1

structure Agreed (i : Nat) (credentials : TransferCredentials) (us : List Update)
    (d : Dialogue) : Prop where
  session : ∃ session, d.world.shared.sessions[i]? = some session ∧
    session.transferId = credentials.transferId ∧ session.capability = credentials.capability ∧
    ControlLog i us session.inner
  issued : Issued d.client.issued
  copies : ∀ call ∈ d.world.calls, Copied credentials d.client.issued call.request
  applied : ∀ command ∈ appliedControls i us, command ∈ d.client.issued
  turns : d.client.answers.length ≤ d.client.issued.length ∧
    d.client.issued.length ≤ d.client.answers.length + 1
  outcomes : ∀ k request sequence opcode result, At k request (.done result) d.world →
    Bears credentials request sequence opcode →
      ((∃ answer, result = .ok answer) ∧ (sequence, opcode) ∈ appliedControls i us) ∨
      result = .error .denied ∨ result = .error .expired ∨
      (result = .error .replay ∧ ∃ later ∈ d.client.issued, sequence < later.1)
  answers : ∀ (n : Nat) result, d.client.answers[n]? = some result → ∃ command,
    d.client.issued[n]? = some command ∧
      (((∃ answer, result = .ok answer) ∧ command ∈ appliedControls i us) ∨
        result = .error .denied ∨ result = .error .expired)

theorem Issued.snoc {issued : List (Nat × Opcode)} (h : Issued issued) {sequence : Nat}
    {opcode : Opcode} (hcontrol : opcode.isControl = true) (hpositive : 0 < sequence)
    (hnext : ∀ command ∈ issued, command.1 < sequence) : Issued (issued ++ [(sequence, opcode)]) := by
  refine ⟨?_, ?_, ?_⟩
  · intro command hcommand
    rcases List.mem_append.mp hcommand with hold | hnew
    · exact h.control command hold
    · rwa [List.mem_singleton.mp hnew]
  · intro command hcommand
    rcases List.mem_append.mp hcommand with hold | hnew
    · exact h.positive command hold
    · rwa [List.mem_singleton.mp hnew]
  · refine List.pairwise_append.mpr ⟨h.increasing, List.pairwise_singleton _ _, ?_⟩
    intro c hc d hd
    rw [List.mem_singleton.mp hd]
    exact hnext c hc

theorem Issued.unique {issued : List (Nat × Opcode)} (h : Issued issued) {sequence : Nat}
    {one two : Opcode} (hone : (sequence, one) ∈ issued) (htwo : (sequence, two) ∈ issued) :
    one = two := by
  have hdistinct : (issued.map Prod.fst).Nodup :=
    List.pairwise_map.mpr (h.increasing.imp fun hlt => Nat.ne_of_lt hlt)
  exact (Prod.ext_iff.mp (List.inj_on_of_nodup_map hdistinct hone htwo rfl)).2

theorem Issued.le_last {issued : List (Nat × Opcode)} (h : Issued issued)
    {last command : Nat × Opcode} (hlast : issued.getLast? = some last)
    (hcommand : command ∈ issued) : command.1 ≤ last.1 := by
  obtain ⟨front, rfl⟩ := List.getLast?_eq_some_iff.mp hlast
  rcases List.mem_append.mp hcommand with hfront | hend
  · exact Nat.le_of_lt ((List.pairwise_append.mp h.increasing).2.2 command hfront last (by simp))
  · rw [List.mem_singleton.mp hend]

theorem appliedControls_append (i : Nat) (us vs : List Update) :
    appliedControls i (us ++ vs) = appliedControls i us ++ appliedControls i vs :=
  List.filterMap_append

theorem Copied.issue {issued : List (Nat × Opcode)} (h : Copied credentials issued request)
    (command : Nat × Opcode) : Copied credentials (issued ++ [command]) request := by
  intro peer other sequence opcode hrequest hcapability
  obtain ⟨hid, hissued⟩ := h peer other sequence opcode hrequest hcapability
  exact ⟨hid, List.mem_append_left _ hissued⟩

theorem Agreed.issue {d : Dialogue} (h : Agreed i credentials us d) {sequence : Nat}
    {opcode : Opcode} (hcontrol : opcode.isControl = true) (hpositive : 0 < sequence)
    (hnext : ∀ command ∈ d.client.issued, command.1 < sequence)
    (hanswered : d.client.answers.length = d.client.issued.length) :
    Agreed i credentials us
      { d with client.issued := d.client.issued ++ [(sequence, opcode)] } := by
  refine ⟨h.session, h.issued.snoc hcontrol hpositive hnext, ?_, ?_, ?_, ?_, ?_⟩
  · intro call hcall
    exact (h.copies call hcall).issue _
  · intro command hcommand
    exact List.mem_append_left _ (h.applied command hcommand)
  · simp only [List.length_append, List.length_singleton]
    omega
  · intro k request sequence op result hcall hbears
    rcases h.outcomes k request sequence op result hcall hbears with hok | hdenied | hexpired |
      ⟨hreplay, later, hlater, hlt⟩
    · exact .inl hok
    · exact .inr (.inl hdenied)
    · exact .inr (.inr (.inl hexpired))
    · exact .inr (.inr (.inr ⟨hreplay, later, List.mem_append_left _ hlater, hlt⟩))
  · intro n result hresult
    obtain ⟨command, hissued, hcases⟩ := h.answers n result hresult
    refine ⟨command, ?_, hcases⟩
    rw [List.getElem?_append_left (List.getElem?_eq_some_iff.mp hissued).1, hissued]

theorem Agreed.receive {d : Dialogue} (h : Agreed i credentials us d) {sequence : Nat}
    {opcode : Opcode} {result : WireResult Answer}
    (hwaiting : d.client.answers.length < d.client.issued.length)
    (hcall : At k request (.done result) d.world)
    (hcurrent : d.client.issued.getLast? = some (sequence, opcode))
    (hbears : Bears credentials request sequence opcode) :
    Agreed i credentials us { d with client.answers := d.client.answers ++ [result] } := by
  have hturns := h.turns
  refine ⟨h.session, h.issued, h.copies, h.applied, ?_, h.outcomes, ?_⟩
  · simp only [List.length_append, List.length_singleton]
    omega
  · intro n answer hanswer
    rw [List.getElem?_append] at hanswer
    split at hanswer
    · exact h.answers n answer hanswer
    · rename_i hn
      have hlt := (List.getElem?_eq_some_iff.mp hanswer).1
      rw [List.length_singleton] at hlt
      have hn : n = d.client.issued.length - 1 := by omega
      rw [show n - d.client.answers.length = 0 by omega] at hanswer
      obtain rfl := Option.some.inj hanswer
      refine ⟨(sequence, opcode), by rw [hn, ← List.getLast?_eq_getElem?, hcurrent], ?_⟩
      rcases h.outcomes k request sequence opcode result hcall hbears with hok | hdenied |
        hexpired | ⟨-, later, hlater, hlt⟩
      · exact .inl hok
      · exact .inr (.inl hdenied)
      · exact .inr (.inr hexpired)
      · exact (Nat.not_lt.mpr (h.issued.le_last hcurrent hlater) hlt).elim

theorem mem_appliedControls_left {command : Nat × Opcode} (h : command ∈ appliedControls i us)
    (vs : List Update) : command ∈ appliedControls i (us ++ vs) := by
  rw [appliedControls_append]
  exact List.mem_append_left _ h

theorem apply_names {now : Nat} {trusted : CertificateFingerprint → Bool}
    (hrun : Run (Step server) (World.start now trusted) ls w) (hids : w.shared.transferIds.Nodup)
    (hcall : At k request (.apply j) w) (hcredentials : request.credentials = some other)
    (hsession : w.shared.sessions[j]? = some session) :
    session.transferId = other.transferId ∧ session.capability = other.capability :=
  Granted.names (traced_of_run hrun hcall hcredentials) hids hsession

theorem ControlLog.control_done {sequence : Nat} {opcode : Opcode} {result : WireResult Answer}
    (hlog : ControlLog i us session.inner) {issued : List (Nat × Opcode)} (hissued : Issued issued)
    (hmem : (sequence, opcode) ∈ issued)
    (happlied : ∀ command ∈ appliedControls i us, command ∈ issued) {vs : List Update}
    (h : ServerState.control session i sequence opcode = (vs, .done result)) :
    ((∃ answer, result = .ok answer) ∧ (sequence, opcode) ∈ appliedControls i (us ++ vs)) ∨
      (result = .error .replay ∧ ∃ later ∈ issued, sequence < later.1) := by
  rcases control_cases h with ⟨hsequence, hopcode, rfl, hnext⟩ | ⟨hle, rfl, hother, hnext⟩ |
    ⟨hnew, rfl, hnext | ⟨hinvalid, -⟩⟩
  · cases hnext
    refine .inl ⟨⟨_, rfl⟩, mem_appliedControls_left ?_ _⟩
    rcases hlog.latest with ⟨-, hnone⟩ | ⟨⟨s, op⟩, hlatest, hs, hop⟩
    · rw [hnone] at hopcode
      cases hopcode
    · rw [hop] at hopcode
      cases hopcode
      rwa [hsequence, hs]
  · cases hnext
    refine .inr ⟨rfl, ?_⟩
    rcases hlog.latest with ⟨hzero, -⟩ | ⟨⟨s, op⟩, hlatest, hs, hop⟩
    · have hpositive := hissued.positive _ hmem
      omega
    · have hlater := happlied _ hlatest
      rcases Nat.lt_or_eq_of_le (hs ▸ hle) with hlt | heq
      · exact ⟨_, hlater, hlt⟩
      · obtain rfl : sequence = s := heq
        obtain rfl := hissued.unique hmem hlater
        exact (hother ⟨hs.symm, hop⟩).elim
  · cases hnext
    refine .inl ⟨⟨_, rfl⟩, ?_⟩
    rw [appliedControls_append]
    exact List.mem_append_right _ (by simp [appliedControls, Update.applied])
  · rw [hissued.control _ hmem] at hinvalid
    cases hinvalid

theorem Agreed.outcome {now : Nat} {trusted : CertificateFingerprint → Bool} {d : Dialogue}
    (hrun : Run (Step server) (World.start now trusted) ls d.world)
    (hids : d.world.shared.transferIds.Nodup) (h : Agreed i credentials us d)
    (hstep : Step server d.world l w) {sequence : Nat} {opcode : Opcode}
    {result : WireResult Answer} (hcall : At k request (.done result) w)
    (hbears : Bears credentials request sequence opcode) :
    ((∃ answer, result = .ok answer) ∧ (sequence, opcode) ∈ appliedControls i (us ++ l.updates)) ∨
      result = .error .denied ∨ result = .error .expired ∨
      (result = .error .replay ∧ ∃ later ∈ d.client.issued, sequence < later.1) := by
  obtain ⟨peer, other, rfl, hcapability⟩ := id hbears
  rcases hstep.call_cases hcall with ⟨hsame, -⟩ | ⟨-, request', -, heq⟩ |
    ⟨⟨request', pc⟩, vs, next, rfl, hbefore, hturn, heq⟩
  · rcases h.outcomes k _ sequence opcode result hsame hbears with ⟨hok, hmem⟩ | hrest
    · exact .inl ⟨hok, mem_appliedControls_left hmem _⟩
    · exact .inr hrest
  · cases heq
  · cases heq
    rcases hturn.control_done with rfl | rfl | ⟨j, session, rfl, hsession, hdone⟩
    · exact .inr (.inl rfl)
    · exact .inr (.inr (.inl rfl))
    · obtain ⟨hid, hmem⟩ := h.copies _ (List.mem_of_getElem? hbefore) peer other sequence opcode
        rfl hcapability
      obtain ⟨found, hfound, hfoundId, -, hlog⟩ := h.session
      have hnames := apply_names hrun hids hbefore rfl hsession
      obtain rfl := session_of_transferId hids hfound hsession
        (hfoundId.trans (hid.symm.trans hnames.1.symm))
      rw [hsession] at hfound
      obtain rfl := Option.some.inj hfound
      rcases hlog.control_done h.issued hmem h.applied hdone with hok | hreplay
      · exact .inl hok
      · exact .inr (.inr (.inr hreplay))

theorem Agreed.serve {now : Nat} {trusted : CertificateFingerprint → Bool} {d : Dialogue}
    (hrun : Run (Step server) (World.start now trusted) ls d.world)
    (hids : d.world.shared.transferIds.Nodup) (h : Agreed i credentials us d)
    (hstep : Step server d.world l w)
    (hcopy : ∀ request, l = .invoke request → Copied credentials d.client.issued request) :
    Agreed i credentials (us ++ l.updates) { d with world := w } := by
  obtain ⟨session, hsession, hid, hcapability, hlog⟩ := h.session
  refine ⟨⟨_, hstep.session hsession, hid, hcapability, hstep.controlLog hsession hlog⟩,
    h.issued, ?_, ?_, h.turns, ?_, ?_⟩
  · intro call hcall
    obtain ⟨k, hk⟩ := List.getElem?_of_mem hcall
    rcases hstep.call_cases hk with ⟨hsame, -⟩ | ⟨-, request, hl, rfl⟩ |
      ⟨before, vs, next, -, hbefore, -, rfl⟩
    · exact h.copies call (List.mem_of_getElem? hsame)
    · exact hcopy request hl
    · exact h.copies before (List.mem_of_getElem? hbefore)
  · intro command hcommand
    rw [appliedControls_append] at hcommand
    rcases List.mem_append.mp hcommand with hold | hnew
    · exact h.applied command hold
    · obtain ⟨u, hu, happlied⟩ := List.mem_filterMap.mp hnew
      obtain ⟨k, peer, other, found, -, hcall, hfound, -⟩ := hstep.applied_new hu happlied
      have hnames := apply_names hrun hids hcall rfl hfound
      rw [hsession] at hfound
      obtain rfl := Option.some.inj hfound
      exact (h.copies _ (List.mem_of_getElem? hcall) peer other command.1 command.2 rfl
        (hnames.2.symm.trans hcapability)).2
  · intro k request sequence opcode result hcall hbears
    exact h.outcome hrun hids hstep hcall hbears
  · intro n result hresult
    obtain ⟨command, hissued, ⟨hok, hmem⟩ | hrest⟩ := h.answers n result hresult
    · exact ⟨command, hissued, .inl ⟨hok, mem_appliedControls_left hmem _⟩⟩
    · exact ⟨command, hissued, .inr hrest⟩

theorem server_of_dialogue {d d' : Dialogue} {as : List Action}
    (h : Run (DialogueStep server credentials) d as d') :
    Run (Step server) d.world (as.flatMap Action.labels) d'.world := by
  induction h with
  | nil => exact .nil
  | snoc _ last ih =>
    rw [List.flatMap_append, List.flatMap_singleton]
    cases last with
    | server hstep => exact ih.snoc hstep
    | issue | receive =>
      rw [Action.labels, List.append_nil]
      exact ih

theorem agreed_of_dialogue {now : Nat} {trusted : CertificateFingerprint → Bool}
    {ls₀ : List Label} {w₀ : World} {d : Dialogue} {as : List Action}
    (hrun₀ : Run (Step server) (World.start now trusted) ls₀ w₀)
    (hsession : w₀.shared.sessions[i]? = some session) (hfresh : session.inner = .fresh)
    (hid : session.transferId = credentials.transferId)
    (hcapability : session.capability = credentials.capability)
    (hunsent : ∀ call ∈ w₀.calls, Copied credentials [] call.request)
    (hrun : Run (DialogueStep server credentials) ⟨w₀, [], []⟩ as d)
    (hids : d.world.shared.transferIds.Nodup) :
    Agreed i credentials (as.flatMap Action.updates) d := by
  induction hrun with
  | nil =>
    refine ⟨⟨session, hsession, hid, hcapability, hfresh ▸ .fresh i⟩, ⟨?_, ?_, .nil⟩, hunsent, ?_, ?_, ?_, ?_⟩
    · intro command hcommand
      cases hcommand
    · intro command hcommand
      cases hcommand
    · intro command hcommand
      cases hcommand
    · exact ⟨Nat.le_refl _, Nat.zero_le _⟩
    · rintro k _ sequence opcode result hcall ⟨peer, other, rfl, hbears⟩
      obtain ⟨-, hmem⟩ :=
        hunsent _ (List.mem_of_getElem? hcall) peer other sequence opcode rfl hbears
      cases hmem
    · intro n result hresult
      cases hresult
  | snoc run last ih =>
    rw [List.flatMap_append, List.flatMap_singleton]
    cases last with
    | server hstep hcopy =>
      have hids' := hstep.transferIds_nodup hids
      exact (ih hids').serve (hrun₀.append (server_of_dialogue run)) hids' hstep hcopy
    | issue hcontrol hpositive hnext hanswered =>
      rw [Action.updates, List.append_nil]
      exact (ih hids).issue hcontrol hpositive hnext hanswered
    | receive hwaiting hcall hcurrent hbears =>
      rw [Action.updates, List.append_nil]
      exact (ih hids).receive hwaiting hcall hcurrent hbears

theorem ControlLog.once {command : Nat × Opcode} {inner : TransferInner}
    (h : ControlLog i us inner) (hmem : command ∈ appliedControls i us) :
    (appliedControls i us).count command = 1 := by
  refine List.count_eq_one_of_mem (h.increasing.imp fun hlt heq => ?_) hmem
  rw [heq] at hlt
  exact Nat.lt_irrefl _ hlt

end ClipFerry.Server
