import ClipFerry.Server.SentBytes

namespace ClipFerry.Server

open Intervals Protocol Transition

namespace RangeCoverage

variable {coverage : RangeCoverage} {bytes : Finset Nat} {start length : Nat}

def noteAll (notes : List (Nat × Nat)) : RangeCoverage :=
  notes.foldl (fun coverage n => coverage.note n.1 n.2) empty

def noted (notes : List (Nat × Nat)) : Finset Nat := points (notes.map fun n => (n.1, n.1 + n.2))

structure Tracks (coverage : RangeCoverage) (bytes : Finset Nat) : Prop where
  wellFormed : coverage.WellFormed
  ranges : coverage.saturated = false → points coverage.ranges = bytes
  atMost : coverage.uniqueBytes ≤ bytes.card

theorem empty_tracks : empty.Tracks ∅ := ⟨empty_wellFormed, fun _ => rfl, Nat.le_refl _⟩

theorem WellFormed.count (wf : coverage.WellFormed) (h : coverage.saturated = false) :
    coverage.uniqueBytes = (points coverage.ranges).card := by
  rw [wf.exact h, wf.normal.card_points]
  rfl

theorem points_mergedWith (wf : coverage.WellFormed) (hpos : 0 < length) :
    points (mergedWith coverage.ranges start (start + length)) =
      points coverage.ranges ∪ Finset.Ico start (start + length) := by
  ext x
  rw [mem_points, (mergedWith_spec wf hpos).2, Finset.mem_union, mem_points, Finset.mem_Ico]

theorem note_saturated (h : coverage.saturated = true) : coverage.note start length = coverage :=
  if_pos (.inl h)

theorem uniqueBytes_le_note (wf : coverage.WellFormed) (start length : Nat) :
    coverage.uniqueBytes ≤ (coverage.note start length).uniqueBytes := by
  have hwf := wf.note start length
  rcases note_cases coverage start length with ⟨-, heq⟩ |
    ⟨-, -, ⟨-, heq⟩ | ⟨-, heq⟩⟩ | ⟨hsat, hpos, -, -, heq⟩
  · rw [heq]
  · rw [heq]
  · rw [heq]
  · rw [wf.count hsat, hwf.count (by rw [heq])]
    rw [heq, points_mergedWith wf hpos]
    exact Finset.card_le_card Finset.subset_union_left

theorem Tracks.note (h : coverage.Tracks bytes) (start length : Nat) :
    (coverage.note start length).Tracks (bytes ∪ Finset.Ico start (start + length)) := by
  have hwf := h.wellFormed.note start length
  have hgrows : bytes.card ≤ (bytes ∪ Finset.Ico start (start + length)).card :=
    Finset.card_le_card Finset.subset_union_left
  rcases note_cases coverage start length with ⟨hskip, heq⟩ |
    ⟨-, -, ⟨-, heq⟩ | ⟨-, heq⟩⟩ | ⟨hsat, hpos, -, -, heq⟩
  · rw [heq]
    refine ⟨h.wellFormed, fun hsat => ?_, h.atMost.trans hgrows⟩
    have hlength : length = 0 := hskip.resolve_left (by rw [hsat]; exact Bool.false_ne_true)
    rw [h.ranges hsat, hlength, Nat.add_zero, Finset.Ico_self, Finset.union_empty]
  · rw [heq] at hwf ⊢
    exact ⟨hwf, nofun, h.atMost.trans hgrows⟩
  · rw [heq] at hwf ⊢
    exact ⟨hwf, nofun, h.atMost.trans hgrows⟩
  · have hsame := @points_mergedWith coverage start length h.wellFormed hpos
    rw [h.ranges hsat] at hsame
    have hcount := hwf.count (by rw [heq])
    rw [heq] at hwf hcount ⊢
    exact ⟨hwf, fun _ => hsame, by rw [hcount, hsame]⟩

theorem noteAll_tracks (notes : List (Nat × Nat)) : (noteAll notes).Tracks (noted notes) := by
  induction notes using List.reverseRecOn with
  | nil => exact empty_tracks
  | append_singleton notes n ih =>
    have hnoted : noted (notes ++ [n]) = noted notes ∪ Finset.Ico n.1 (n.1 + n.2) := by
      rw [noted, List.map_append, points_append]
      exact congrArg (_ ∪ ·) (Finset.union_empty _)
    rw [noteAll, List.foldl_concat, hnoted]
    exact ih.note n.1 n.2

theorem WellFormed.totalLength_lt (wf : coverage.WellFormed) :
    totalLength coverage.ranges < u64Limit := by
  have hsubset : points coverage.ranges ⊆ Finset.range (u64Limit - 1) := by
    intro x hx
    have hlt := wf.covered_below (mem_points.mp hx)
    rw [Finset.mem_range]
    omega
  have hcard := Finset.card_le_card hsubset
  rw [wf.normal.card_points, Finset.card_range] at hcard
  exact Nat.lt_of_le_of_lt hcard (by decide)

theorem uniqueBytes_note_lt (wf : coverage.WellFormed) (h : coverage.uniqueBytes < u64Limit)
    (start length : Nat) : (coverage.note start length).uniqueBytes < u64Limit := by
  have hlt := (wf.note start length).totalLength_lt
  rcases note_cases coverage start length with ⟨-, heq⟩ |
    ⟨-, -, ⟨-, heq⟩ | ⟨-, heq⟩⟩ | ⟨-, -, -, -, heq⟩
  · rwa [heq]
  · rwa [heq]
  · rwa [heq]
  · rw [heq] at hlt ⊢
    exact hlt

theorem Tracks.covered (h : coverage.Tracks bytes)
    (hcovered : ∀ x, start ≤ x → x < start + length → x ∈ bytes) :
    coverage.note start length = coverage := by
  apply note_known h.wellFormed
  cases hsat : coverage.saturated with
  | true => exact .inl hsat
  | false =>
    refine .inr fun x hle hlt => ?_
    rw [← mem_points, h.ranges hsat]
    exact hcovered x hle hlt

theorem foldl_saturated (h : coverage.saturated = true) (notes : List (Nat × Nat)) :
    notes.foldl (fun coverage n => coverage.note n.1 n.2) coverage = coverage := by
  induction notes with
  | nil => rfl
  | cons n notes ih =>
    rw [List.foldl_cons, note_saturated h]
    exact ih

theorem merge_any_order {ranges sorted : List (Nat × Nat)} {stop : Nat}
    (hproper : ∀ r ∈ ranges ++ [(start, stop)], r.1 < r.2)
    (hperm : sorted.Perm (ranges ++ [(start, stop)]))
    (hsorted : sorted.Pairwise fun r s => r.1 ≤ s.1) :
    merge sorted = mergedWith ranges start stop := by
  obtain ⟨hnormal, hcovers⟩ := merge_normal hsorted fun r hr => hproper r (hperm.mem_iff.mp hr)
  obtain ⟨hnormal', hcovers'⟩ := merge_sortByStart hproper
  apply hnormal.ext hnormal'
  intro x
  rw [hcovers, hcovers', Covers.perm hperm]

theorem mem_noted {notes : List (Nat × Nat)} {x : Nat} :
    x ∈ noted notes ↔ ∃ n ∈ notes, n.1 ≤ x ∧ x < n.1 + n.2 := by
  rw [noted, mem_points, Covers]
  simp only [List.mem_map, exists_exists_and_eq_and]

theorem noteAll_concat (notes : List (Nat × Nat)) (n : Nat × Nat) :
    noteAll (notes ++ [n]) = (noteAll notes).note n.1 n.2 := List.foldl_concat ..

theorem uniqueBytes_le {notes : List (Nat × Nat)} {size : Nat}
    (h : ∀ n ∈ notes, n.2 = 0 ∨ n.1 + n.2 ≤ size) : (noteAll notes).uniqueBytes ≤ size := by
  have hsubset : noted notes ⊆ Finset.range size := by
    intro x hx
    obtain ⟨n, hn, hle, hlt⟩ := mem_noted.mp hx
    have hwithin := h n hn
    rw [Finset.mem_range]
    omega
  have hcard := Finset.card_le_card hsubset
  rw [Finset.card_range] at hcard
  exact (noteAll_tracks notes).atMost.trans hcard

end RangeCoverage

def ServerState.fileSize (server : ServerState) (fileId : ProtocolId) : Nat :=
  match server.offered.manifestEntry fileId with
  | none => 0
  | some entry => entry.descriptor.size.toNat

def TransferSession.NotedWithin (session : TransferSession) (size : Nat) : Prop :=
  ∃ notes, session.inner.coverage = RangeCoverage.noteAll notes ∧
    ∀ n ∈ notes, n.2 = 0 ∨ n.1 + n.2 ≤ size

def Shared.NotedWithin (size : ProtocolId → Nat) (shared : Shared) : Prop :=
  ∀ (i : Nat) (session : TransferSession), shared.sessions[i]? = some session →
    session.NotedWithin (size session.fileId)

def Clamped (size : ProtocolId → Nat) (shared : Shared) : Update → Prop
  | .serve i offset read => ∃ session, shared.sessions[i]? = some session ∧
      (read = 0 ∨ offset + read ≤ size session.fileId)
  | _ => True

variable {server : ServerState} {w w' : World} {l : Label} {ls : List Label} {now : Nat}
  {trusted : CertificateFingerprint → Bool} {size : ProtocolId → Nat} {shared : Shared}
  {u : Update} {us : List Update}

theorem Clamped.run (h : Clamped size shared u) (v : Update) :
    Clamped size (shared.run v) u := by
  cases u with
  | serve i offset read =>
    obtain ⟨session, hsession, hrange⟩ := h
    exact ⟨_, Shared.run_session hsession v, hrange⟩
  | deny | replay | beginRead | prune now | create nonce session | control i sequence opcode
  | cancel i => trivial

theorem TransferSession.NotedWithin.fresh {session : TransferSession} {size : Nat}
    (h : session.inner = .fresh) : session.NotedWithin size := ⟨[], by rw [h]; rfl, nofun⟩

theorem Shared.NotedWithin.run (h : shared.NotedWithin size) (hu : Clamped size shared u) :
    (shared.run u).NotedWithin size := by
  intro j session' hsession'
  rcases Shared.session_origin hsession' with ⟨session, hsession, rfl⟩ | ⟨-, hfresh⟩
  · obtain ⟨notes, hnotes, hwithin⟩ := h j session hsession
    by_cases hserve : u.isServe = false
    · exact ⟨notes, (Update.onInner_coverage hserve j session.inner).trans hnotes, hwithin⟩
    · cases u with
      | serve i offset read =>
        obtain ⟨served, hserved, hrange⟩ := hu
        by_cases hsame : i = j
        · subst hsame
          obtain rfl := Option.some.inj (hserved.symm.trans hsession)
          refine ⟨notes ++ [(offset, read)], ?_, ?_⟩
          · rw [RangeCoverage.noteAll_concat, ← hnotes, Update.onInner, if_pos rfl]
            rfl
          · intro n hn
            rcases List.mem_append.mp hn with hn | hn
            · exact hwithin n hn
            · obtain rfl := List.mem_singleton.mp hn
              exact hrange
        · exact ⟨notes, by rw [Update.onInner, if_neg hsame]; exact hnotes, hwithin⟩
      | deny | replay | beginRead | prune now | create nonce session | control i sequence opcode
      | cancel i => exact absurd rfl hserve
  · exact .fresh hfresh

theorem Shared.NotedWithin.foldl (h : shared.NotedWithin size)
    (hclamped : ∀ u ∈ us, Clamped size shared u) : (us.foldl Shared.run shared).NotedWithin size := by
  induction us generalizing shared with
  | nil => exact h
  | cons u us ih =>
    exact ih (h.run (hclamped u (.head _))) fun v hv => (hclamped v (.tail _ hv)).run u

theorem Step.clamped (hbounded : server.SourcesBounded)
    (hrun : Run (Step server) (World.start now trusted) ls w) (h : Step server w l w')
    {u : Update} (hu : u ∈ l.updates) : Clamped server.fileSize w.shared u := by
  cases u with
  | serve i offset read =>
    obtain ⟨session, peer, credentials, requested, bytes, hsession, hfile, hread⟩ :=
      h.serve_read hrun hu
    obtain ⟨peer, credentials, offset, requested, source, entry, hrequest, hsource, hentry,
      attempt, buffer, hread, -⟩ := hread
    cases hrequest
    have hle := hbounded _ _ hsource attempt offset _ read buffer hread
    refine ⟨session, hsession, ?_⟩
    rw [hfile, ServerState.fileSize, hentry]
    dsimp only
    omega
  | deny | replay | beginRead | prune now | create nonce session | control i sequence opcode
  | cancel i => trivial

theorem noted_within (hbounded : server.SourcesBounded)
    (hrun : Run (Step server) (World.start now trusted) ls w) :
    w.shared.NotedWithin server.fileSize := by
  induction hrun with
  | nil =>
    intro i session hsession
    cases hsession
  | snoc hrun last ih =>
    rw [last.shared_eq]
    exact ih.foldl fun u hu => last.clamped hbounded hrun hu

open RangeCoverage in
theorem coverage_counts_distinct_bytes (hbounded : server.SourcesBounded)
    (hrun : Run (Step server) (World.start now trusted) ls w) :
    (∀ notes start length,
      ((noteAll notes).saturated = false →
        (∀ r ∈ (noteAll notes).ranges, r.1 < r.2) ∧
        ((noteAll notes).ranges.Pairwise fun r s => r.2 < s.1) ∧
        (∀ x, Covers (noteAll notes).ranges x ↔ ∃ n ∈ notes, n.1 ≤ x ∧ x < n.1 + n.2) ∧
        (noteAll notes).uniqueBytes = (noted notes).card ∧
        totalLength (noteAll notes).ranges < u64Limit ∧
        ∀ sorted, 0 < length →
          sorted.Perm ((noteAll notes).ranges ++ [(start, start + length)]) →
          (sorted.Pairwise fun r s => r.1 ≤ s.1) →
            merge sorted = mergedWith (noteAll notes).ranges start (start + length)) ∧
      (noteAll notes).uniqueBytes ≤ (noteAll (notes ++ [(start, length)])).uniqueBytes ∧
      ((noteAll notes).saturated = true →
        (noteAll notes).uniqueBytes ≤ (noted notes).card ∧
        ∀ more, noteAll (notes ++ more) = noteAll notes) ∧
      ((∀ x, start ≤ x → x < start + length → x ∈ noted notes) →
        noteAll (notes ++ [(start, length)]) = noteAll notes)) ∧
    ∀ (i : Nat) (session : TransferSession), w.shared.sessions[i]? = some session →
      (∃ notes, session.inner.coverage = noteAll notes) ∧
      session.inner.coverage.uniqueBytes ≤ server.fileSize session.fileId := by
  refine ⟨fun notes start length => ?_, fun i session hsession => ?_⟩
  · have htracks := noteAll_tracks notes
    have hwf := htracks.wellFormed
    rw [noteAll_concat]
    refine ⟨fun hsat => ⟨hwf.normal.proper, hwf.normal.apart, fun x => ?_, ?_,
      hwf.totalLength_lt, fun sorted hpos hperm hsorted => ?_⟩, uniqueBytes_le_note hwf start length,
      fun hsat => ⟨htracks.atMost, fun more => ?_⟩, htracks.covered⟩
    · rw [← mem_points, htracks.ranges hsat, mem_noted]
    · rw [hwf.count hsat, htracks.ranges hsat]
    · refine merge_any_order (fun r hr => ?_) hperm hsorted
      rcases List.mem_append.mp hr with hr | hr
      · exact hwf.normal.proper r hr
      · rw [List.mem_singleton.mp hr]
        exact Nat.lt_add_of_pos_right hpos
    · rw [noteAll, List.foldl_append]
      exact foldl_saturated hsat more
  · obtain ⟨notes, hnotes, hwithin⟩ := noted_within hbounded hrun i session hsession
    refine ⟨⟨notes, hnotes⟩, ?_⟩
    rw [hnotes]
    exact uniqueBytes_le hwithin

theorem coverage_counts_distinct_bytes_solo : ∃ (w : World) (session : TransferSession),
    w.shared.sessions[0]? = some session ∧
    session.inner.coverage.uniqueBytes ≤ soloServer.fileSize session.fileId ∧
    (RangeCoverage.noteAll [(0, 3), (2, 3)]).uniqueBytes =
      (RangeCoverage.noted [(0, 3), (2, 3)]).card := by
  obtain ⟨hnotes, hsessions⟩ := coverage_counts_distinct_bytes soloServer_bounded soloBegin_run
  obtain ⟨hexact, -⟩ := hnotes [(0, 3), (2, 3)] 0 0
  obtain ⟨-, -, -, hcount, -⟩ := hexact rfl
  exact ⟨soloBegun, soloSession, rfl, (hsessions 0 soloSession rfl).2, hcount⟩

end ClipFerry.Server
