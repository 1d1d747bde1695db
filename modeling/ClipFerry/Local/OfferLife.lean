import ClipFerry.Local.SourceLaw
import ClipFerry.Local.StartedOffer

namespace ClipFerry.Local

open VirtualTree Transition Checked

variable {world world' : OfferWorld} {label : OfferLabel} {labels : List OfferLabel} {s : Nat}
  {source : StableFileSource} {offer : LocalFileOffer}

theorem sources_offerEntries (expiresAt files : Nat) (tree : List FileSnapshot) :
    (offerEntries files tree).filterMap (·.source) =
      List.range' files (treeSources expiresAt tree).length := by
  induction tree generalizing files with
  | nil => rfl
  | cons snapshot rest ih =>
    cases hdir : snapshot.isDirectory with
    | true =>
      have hsources : treeSources expiresAt (snapshot :: rest) = treeSources expiresAt rest := by
        simp [treeSources, hdir]
      rw [offerEntries, if_pos hdir, hsources]
      exact ih files
    | false =>
      have hsources : treeSources expiresAt (snapshot :: rest) =
          .new snapshot expiresAt :: treeSources expiresAt rest := by
        simp [treeSources, hdir]
      rw [offerEntries, if_neg (by simp [hdir]), hsources, List.length_cons, List.range'_succ]
      exact congrArg (files :: ·) (ih (files + 1))

theorem created_source {world created : LocalWorld}
    {guid : Except HResult (List.Vector UInt8 16)} {tree : FileTreeSnapshot} {ttl : Nat}
    (h : world.createTree guid tree ttl = .ok (offer, created)) (hnew : world.sources.length ≤ s)
    (hsource : created.sources[s]? = some source) :
    s ∈ offer.sources ∧ ∃ snapshot, source = .new snapshot offer.expiresAt := by
  obtain ⟨-, hentries, rfl⟩ := LocalWorld.createTree_cases h
  rw [List.getElem?_append_right hnew] at hsource
  obtain ⟨hlt, -⟩ := List.getElem?_eq_some_iff.mp hsource
  constructor
  · rw [LocalFileOffer.sources, hentries, sources_offerEntries offer.expiresAt,
      List.mem_range'_1]
    omega
  · obtain ⟨snapshot, -, hsnapshot⟩ := List.mem_map.mp (List.mem_of_getElem? hsource)
    exact ⟨snapshot, hsnapshot.symm⟩

theorem kept_source {world created : LocalWorld}
    {guid : Except HResult (List.Vector UInt8 16)} {tree : FileTreeSnapshot} {ttl : Nat}
    (h : world.createTree guid tree ttl = .ok (offer, created))
    (hold : s < world.sources.length) : created.sources[s]? = world.sources[s]? := by
  obtain ⟨-, -, rfl⟩ := LocalWorld.createTree_cases h
  exact List.getElem?_append_left hold

theorem OfferStep.projects (h : OfferStep world label world')
    (hsource : world.sources[s]? = some source) :
    ∃ labels source', world'.sources[s]? = some source' ∧
      Run SourceStep (world.life s source) labels (world'.life s source') := by
  cases h with
  | publishTree hidle hcreate =>
    have hlt := (List.getElem?_eq_some_iff.mp hsource).1
    exact ⟨[], source, (kept_source hcreate hlt).trans hsource, .nil⟩
  | refuse => exact ⟨[], source, hsource, .nil⟩
  | revokeCurrent => exact ⟨[], source, hsource, .nil⟩
  | @revokeNext next =>
    by_cases hs : next = s
    · refine ⟨[.revoke], source.revoke, ?_, .single .revoke⟩
      simp [hs, hsource]
    · refine ⟨[], source, ?_, .nil⟩
      simp [hs, hsource]
  | @call j k before after call hbefore hcall =>
    by_cases hs : j = s
    · subst hs
      obtain rfl := Option.some.inj (hsource.symm.trans hbefore)
      have hlt := (List.getElem?_eq_some_iff.mp hsource).1
      refine ⟨[.call k], after, List.getElem?_set_self hlt, ?_⟩
      have hstep : SourceStep (world.life j source) (.call k) _ := .call hcall
      change Run SourceStep _ _ ⟨after, Function.update world.calls j _ j, world.disk, world.now⟩
      rw [Function.update_self]
      exact .single hstep
    · refine ⟨[], source, ?_, ?_⟩
      · simp only [List.getElem?_set_ne hs]
        exact hsource
      · change Run SourceStep _ _
          ⟨source, Function.update world.calls j _ s, world.disk, world.now⟩
        rw [Function.update_of_ne (Ne.symm hs)]
        exact .nil
  | change disk => exact ⟨[.change], source, hsource, .single (.change disk)⟩
  | elapse duration => exact ⟨[.elapse], source, hsource, .single (.elapse duration)⟩

theorem projects_run (h : Run OfferStep world labels world')
    (hsource : world.sources[s]? = some source) :
    ∃ labels source', world'.sources[s]? = some source' ∧
      Run SourceStep (world.life s source) labels (world'.life s source') := by
  induction h with
  | nil => exact ⟨[], source, hsource, .nil⟩
  | snoc _ last ih =>
    obtain ⟨labels, middle, hmiddle, hrun⟩ := ih
    obtain ⟨labels', source', hsource', hrun'⟩ := last.projects hmiddle
    exact ⟨labels ++ labels', source', hsource', hrun.append hrun'⟩

structure OfferWorld.Kept (world : OfferWorld) : Prop where
  alive : ∀ s source, world.sources[s]? = some source → (world.life s source).Alive
  fresh : ∀ s, world.sources.length ≤ s → world.calls s = fun _ => .idle
  current : ∀ s source, world.sources[s]? = some source → source.revoked = false →
    s ∈ world.currentSources ∨ s ∈ world.revoking

theorem OfferWorld.Kept.start (disk : Disk) : (OfferWorld.start disk).Kept where
  alive _ _ hsource := nomatch hsource
  fresh _ _ := rfl
  current _ _ hsource := nomatch hsource

theorem OfferStep.sources_length (h : OfferStep world label world') :
    world.sources.length ≤ world'.sources.length := by
  cases h with
  | publishTree _ hcreate =>
    obtain ⟨-, -, rfl⟩ := LocalWorld.createTree_cases hcreate
    exact List.length_append ▸ Nat.le_add_right _ _
  | refuse | revokeCurrent | change | elapse => exact Nat.le_refl _
  | revokeNext => exact (List.length_modify _ _ _).ge
  | call => exact List.length_set.ge

theorem OfferStep.fresh (h : OfferStep world label world') (hs : world'.sources.length ≤ s) :
    world'.calls s = world.calls s := by
  cases h with
  | publishTree | refuse | revokeCurrent | revokeNext | change | elapse => rfl
  | @call j _ _ _ _ hsource =>
    have hlt := (List.getElem?_eq_some_iff.mp hsource).1
    have hne : s ≠ j := by
      rintro rfl
      simp only [List.length_set] at hs
      omega
    exact Function.update_of_ne hne _ _

theorem OfferStep.appears (h : OfferStep world label world') (hnew : world.sources.length ≤ s)
    (hsource : world'.sources[s]? = some source) :
    s ∈ world'.currentSources ∧ world'.calls s = world.calls s ∧
      ∃ snapshot expiresAt, source = .new snapshot expiresAt := by
  have hlt := (List.getElem?_eq_some_iff.mp hsource).1
  cases h with
  | publishTree _ hcreate =>
    obtain ⟨hmem, snapshot, hsnapshot⟩ := created_source hcreate hnew hsource
    exact ⟨hmem, rfl, snapshot, _, hsnapshot⟩
  | refuse | revokeCurrent | change | elapse => exact absurd hlt (Nat.not_lt.mpr hnew)
  | revokeNext =>
    rw [List.length_modify] at hlt
    exact absurd hlt (Nat.not_lt.mpr hnew)
  | call =>
    rw [List.length_set] at hlt
    exact absurd hlt (Nat.not_lt.mpr hnew)

theorem OfferStep.current (h : OfferStep world label world')
    (hsource : world'.sources[s]? = some source) (hfree : source.revoked = false)
    (hbefore : s ∈ world.currentSources ∨ s ∈ world.revoking) :
    s ∈ world'.currentSources ∨ s ∈ world'.revoking := by
  cases h with
  | publishTree hidle | revokeCurrent hidle =>
    rw [hidle] at hbefore
    exact .inr (hbefore.resolve_right List.not_mem_nil)
  | refuse | call | change | elapse => exact hbefore
  | @revokeNext next rest hrevoking =>
    rw [hrevoking, List.mem_cons] at hbefore
    rcases hbefore with hcurrent | rfl | hrest
    · exact .inl hcurrent
    · simp only [List.getElem?_modify_eq] at hsource
      obtain ⟨before, -, rfl⟩ := Option.map_eq_some_iff.mp hsource
      cases hfree
    · exact .inr hrest

theorem OfferWorld.Kept.step (h : world.Kept) (hstep : OfferStep world label world') :
    world'.Kept := by
  refine ⟨fun s source hsource => ?_, fun s hs => ?_, fun s source hsource hfree => ?_⟩
  · rcases Nat.lt_or_ge s world.sources.length with hold | hnew
    · obtain ⟨labels, source', hsource', hrun⟩ :=
        hstep.projects (List.getElem?_eq_getElem hold)
      obtain rfl := Option.some.inj (hsource.symm.trans hsource')
      exact hrun.invariant (I := SourceLife.Alive) SourceLife.Alive.step
        (h.alive s _ (List.getElem?_eq_getElem hold))
    · obtain ⟨-, hcalls, snapshot, expiresAt, rfl⟩ := hstep.appears hnew hsource
      have hidle := hcalls.trans (h.fresh s hnew)
      rw [SourceLife.Alive, OfferWorld.life, hidle]
      exact .start snapshot expiresAt
  · exact (hstep.fresh hs).trans (h.fresh s (Nat.le_trans hstep.sources_length hs))
  · rcases Nat.lt_or_ge s world.sources.length with hold | hnew
    · obtain ⟨labels, source', hsource', hrun⟩ :=
        hstep.projects (List.getElem?_eq_getElem hold)
      obtain rfl := Option.some.inj (hsource.symm.trans hsource')
      have halive := h.alive s _ (List.getElem?_eq_getElem hold)
      refine hstep.current hsource hfree (h.current s _ (List.getElem?_eq_getElem hold) ?_)
      cases hbefore : (world.sources[s]).revoked with
      | false => rfl
      | true =>
        have hrevoked : source.revoked = true := (keeps_of_run hrun halive).revoked hbefore
        rw [hrevoked] at hfree
        cases hfree
    · exact .inl (hstep.appears hnew hsource).1

theorem OfferWorld.kept_of_run {disk : Disk} (h : Run OfferStep (.start disk) labels world) :
    world.Kept :=
  h.invariant (I := OfferWorld.Kept) OfferWorld.Kept.step (.start disk)

theorem source_life {disk : Disk} (h : Run OfferStep (.start disk) labels world) :
    (world.revoking = [] → ∀ s source, world.sources[s]? = some source → source.revoked = false →
      ∃ offer, world.registry.current = some offer ∧ s ∈ offer.sources) ∧
    ∀ s source, world.sources[s]? = some source →
      (∀ k bytes, (world.calls s k).length ≠ 0 →
        (world.calls s k).phase = .returned (.ok bytes) →
          FullRead source.snapshot (world.calls s k).offset (world.calls s k).length
            (world.calls s k).before (world.calls s k).after bytes) ∧
      ∀ labels' world', Run OfferStep world labels' world' →
        ∃ source', world'.sources[s]? = some source' ∧
          (source.state = .unstarted ∨ source'.state = source.state) ∧
          (∀ code, source.state = .failed code → ∀ k result, (world'.calls s k).length ≠ 0 →
            (world'.calls s k).phase = .returned result → result = .error code) ∧
          (∀ context, source.state = .active context → ∀ revoked now, ∃ sourceLabels,
            (∀ label ∈ sourceLabels, label.isGate = false) ∧
              Run SourceStep ((world.life s source).withGate revoked now) sourceLabels
                ((world'.life s source').withGate revoked now)) ∧
          (source.revoked = true ∨ source.expiresAt ≤ world.now →
            (∀ k, (world.calls s k).length = 0) → ∀ k bytes,
              (world'.calls s k).phase = .returned (.ok bytes) → bytes = []) := by
  have hkept := OfferWorld.kept_of_run h
  refine ⟨fun hidle s source hsource hfree => ?_, fun s source hsource =>
    ⟨fun k bytes hlength hreturned => ?_, fun labels' world' hlater => ?_⟩⟩
  · have hcurrent := hkept.current s source hsource hfree
    rw [hidle] at hcurrent
    have hmem := hcurrent.resolve_right List.not_mem_nil
    rw [OfferWorld.currentSources] at hmem
    cases hregistry : world.registry.current with
    | none =>
      rw [hregistry] at hmem
      cases hmem
    | some offer =>
      rw [hregistry] at hmem
      exact ⟨offer, rfl, hmem⟩
  · exact (hkept.alive s source hsource).full hreturned hlength
  · have halive := hkept.alive s source hsource
    obtain ⟨sourceLabels, source', hsource', hrun⟩ := projects_run hlater hsource
    have hkeeps := keeps_of_run hrun halive
    have halive' := hrun.invariant (I := SourceLife.Alive) SourceLife.Alive.step halive
    refine ⟨source', hsource', hkeeps.decided, fun code hfailed k result hlength hreturned => ?_,
      fun context hactive revoked now => ⟨_, ?_, ungated_run hrun halive hactive revoked now⟩,
      fun hgone huntouched k bytes hreturned => ?_⟩
    · exact halive'.failed (hkeeps.failed hfailed) hreturned hlength
    · intro label hlabel
      simpa using (List.mem_filter.mp hlabel).2
    · have hbarred : (world.life s source).Barred := CallsKept.barred halive hgone huntouched
      exact (barred_run hrun halive hbarred).nothing_read halive' hreturned

def soloTree : FileTreeSnapshot := ⟨[soloFile 'a' 1]⟩

theorem whole_read_run : ∃ (labels : List OfferLabel) (world : OfferWorld)
    (source : StableFileSource), Run OfferStep (.start soloDisk) labels world ∧
      world.sources[0]? = some source ∧ source.snapshot = soloFile 'a' 1 ∧
      (world.calls 0 0).offset = 0 ∧ (world.calls 0 0).length = 5 ∧
      (world.calls 0 0).phase = .returned (.ok [1, 2]) :=
  ⟨_, _, _, (Run.single (.publishTree rfl
      (show LocalWorld.empty.createTree (.ok (repeatedGuid 1)) soloTree 9 = .ok (_, _) from rfl)))
    |>.snoc (.call (s := 0) (k := 0) rfl (.begin 0 (show 5 ≠ 0 by decide)))
    |>.snoc (.call (s := 0) (k := 0) rfl (.enter rfl (by intro k; cases k <;> rfl)))
    |>.snoc (.call (s := 0) (k := 0) rfl (.unrevoked rfl rfl))
    |>.snoc (.call (s := 0) (k := 0) rfl (.inTime rfl (by decide)))
    |>.snoc (.call (s := 0) (k := 0) rfl (.opened rfl))
    |>.snoc (.call (s := 0) (k := 0) rfl (.verify rfl))
    |>.snoc (.call (s := 0) (k := 0) rfl (.read rfl))
    |>.snoc (.call (s := 0) (k := 0) rfl (.finish rfl)), rfl, rfl, rfl, rfl, rfl⟩

theorem source_life_whole : ∃ world : OfferWorld,
    (world.calls 0 0).phase = .returned (.ok [1, 2]) ∧
      (soloFile 'a' 1).Seen (world.calls 0 0).before ∧
      (soloFile 'a' 1).Seen (world.calls 0 0).after := by
  obtain ⟨labels, world, source, hrun, hsource, hsnapshot, hoffset, hlength, hreturned⟩ :=
    whole_read_run
  obtain ⟨hfull, -⟩ := (source_life hrun).2 0 source hsource
  have hread := hfull 0 [1, 2] (by rw [hlength]; decide) hreturned
  rw [hsnapshot, hoffset] at hread
  exact ⟨world, hreturned, hread.before, hread.after (by decide) (by decide)⟩

end ClipFerry.Local
