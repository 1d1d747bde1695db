import ClipFerry.Settings.Reconcile
import ClipFerry.Settings.SettingsReplacement

namespace ClipFerry.Settings

open Device Foundation Protocol Server Transition VirtualTree

structure Orderly (world : SettingsWorld) (k : Nat) (event : Option SaveEvent) : Prop where
  alone : event = some .opened → ∀ j, (world.calls j).writing = none
  whole : event ≠ some .notWritten
  fresh : event = some .opened → ∀ peer existing settings save,
    world.calls k = .discovery peer (.saving existing settings save) → world.last ≠ none →
    ∃ loaded current, existing = some loaded ∧ storedSettings world.stored = .ok current ∧
      current.activePeer = loaded.activePeer ∧ current.autoReceive = loaded.autoReceive

def OrderlyStep (world : SettingsWorld) (label : Nat × Option SaveEvent) (world' : SettingsWorld) :
    Prop :=
  Orderly world label.1 label.2 ∧ SettingsStep world label world'

variable {stored stored' : Stored} {call call' : SettingsCall} {event : Option SaveEvent}
  {world world' : SettingsWorld} {peers : Nat → Option DiscoveredPeer} {settings : AppSettings}
  {loadPeer : LoadPeer} {peer : DiscoveredPeer}

theorem SaveStep.quiet_or_writes {save save' : SavePhase} {event : SaveEvent}
    (h : SaveStep loadPeer settings (stored, save) event (stored', save'))
    (hwhole : event ≠ .notWritten) :
    (stored' = stored ∧ (∀ written, save ≠ .writing written) ∧ (∀ written, save' ≠ .writing written) ∧
      save' ≠ .syncing) ∨
    (event = .opened ∧ save = .opening ∧ save' = .writing 0 ∧ stored' = some []) ∨
    ∃ contents written count, save = .writing written ∧ stored = some contents ∧
      stored' = some (overlay 0 contents written ((settings.bytes.drop written).take count)) ∧
      ((written + count < settings.bytes.length ∧ save' = .writing (written + count)) ∨
        (written + count = settings.bytes.length ∧ save' = .syncing)) := by
  cases h with
  | refused | validated | notOpened | synced | notSynced => exact .inl ⟨rfl, nofun, nofun, nofun⟩
  | opened => exact .inr (.inl ⟨rfl, rfl, rfl, rfl⟩)
  | wrote count hcount hmore => exact .inr (.inr ⟨_, _, count, rfl, rfl, rfl, .inl ⟨hmore, rfl⟩⟩)
  | wroteAll count hcount hall => exact .inr (.inr ⟨_, _, count, rfl, rfl, rfl, .inr ⟨hall, rfl⟩⟩)
  | notWritten => exact absurd rfl hwhole

structure Quiet (stored : Stored) (call : SettingsCall) (stored' : Stored) (call' : SettingsCall) :
    Prop where
  stored : stored' = stored
  before : call.writing = none
  after : call'.writing = none
  last : ∀ last, SettingsWorld.lastAfter last call' = last

structure Truncates (call : SettingsCall) (event : Option SaveEvent) (stored' : Stored)
    (call' : SettingsCall) (settings : AppSettings) : Prop where
  event : event = some .opened
  before : call.saving = some (settings, .opening)
  after : call'.writing = some (settings, 0)
  stored : stored' = some []
  last : ∀ last, SettingsWorld.lastAfter last call' = last

structure Writes (stored : Stored) (call : SettingsCall) (stored' : Stored) (call' : SettingsCall)
    (settings : AppSettings) (contents : List UInt8) (written count : Nat) : Prop where
  before : call.writing = some (settings, written)
  stored : stored = some contents
  stored' : stored' = some (overlay 0 contents written ((settings.bytes.drop written).take count))
  after : (written + count < settings.bytes.length ∧
      call'.writing = some (settings, written + count) ∧
      ∀ last, SettingsWorld.lastAfter last call' = last) ∨
    (written + count = settings.bytes.length ∧ call'.writing = none ∧
      ∀ last, SettingsWorld.lastAfter last call' =
        if call.found = none then some settings else last)

theorem writing_of_saving {save : SavePhase} (h : call.saving = some (settings, save)) :
    call.writing = save.written.map fun written => (settings, written) := by
  rw [SettingsCall.writing, h]
  rfl

theorem written_eq_none {save : SavePhase} (h : ∀ written, save ≠ .writing written) :
    save.written = none := by
  cases save with
  | writing written => exact absurd rfl (h written)
  | validating | opening | syncing | finished => rfl

theorem saving_cases {save save' : SavePhase} {event : SaveEvent}
    (hbefore : call.saving = some (settings, save)) (hafter : call'.saving = some (settings, save'))
    (h : SaveStep loadPeer settings (stored, save) event (stored', save'))
    (hwhole : event ≠ .notWritten)
    (hlast : save' ≠ .syncing → ∀ last, SettingsWorld.lastAfter last call' = last)
    (hsyncing : save' = .syncing → ∀ last, SettingsWorld.lastAfter last call' =
      if call.found = none then some settings else last) :
    Quiet stored call stored' call' ∨ Truncates call (some event) stored' call' settings ∨
      ∃ contents written count, Writes stored call stored' call' settings contents written count := by
  have hbefore' := writing_of_saving hbefore
  have hafter' := writing_of_saving hafter
  rcases h.quiet_or_writes hwhole with ⟨rfl, hone, htwo, hthree⟩ | ⟨rfl, rfl, rfl, rfl⟩ |
    ⟨contents, written, count, rfl, rfl, rfl, hrest⟩
  · refine .inl ⟨rfl, ?_, ?_, hlast hthree⟩
    · rw [hbefore', written_eq_none hone]
      rfl
    · rw [hafter', written_eq_none htwo]
      rfl
  · exact .inr (.inl ⟨rfl, hbefore, hafter', rfl, hlast nofun⟩)
  · refine .inr (.inr ⟨contents, written, count, hbefore', rfl, rfl, ?_⟩)
    rcases hrest with ⟨hmore, rfl⟩ | ⟨hall, rfl⟩
    · exact .inl ⟨hmore, hafter', hlast nofun⟩
    · exact .inr ⟨hall, hafter', hsyncing rfl⟩

theorem SettingsCallStep.cases (h : SettingsCallStep (stored, call) event (stored', call'))
    (hwhole : event ≠ some .notWritten) :
    Quiet stored call stored' call' ∨
      (∃ settings, Truncates call event stored' call' settings) ∨
      ∃ settings contents written count,
        Writes stored call stored' call' settings contents written count := by
  cases h with
  | @user _ _ settings save save' event loadPeer h =>
    have hbefore : (SettingsCall.user settings save).saving = some (settings, save) := rfl
    have hafter : (SettingsCall.user settings save').saving = some (settings, save') := rfl
    have hcases := saving_cases hbefore hafter h (fun hevent => hwhole (congrArg some hevent)) ?_ ?_
    · rcases hcases with hquiet | htruncates | hwrites
      · exact .inl hquiet
      · exact .inr (.inl ⟨settings, htruncates⟩)
      · exact .inr (.inr ⟨settings, hwrites⟩)
    · intro hsyncing last
      cases save' with
      | syncing => exact absurd rfl hsyncing
      | validating | opening | writing | finished => rfl
    · rintro rfl last
      rfl
  | @discovery _ _ peer phase phase' event h =>
    cases h with
    | untrusted | trusted | loads | noRoute | saved => exact .inl ⟨rfl, rfl, rfl, fun _ => rfl⟩
    | loaded result =>
      refine .inl ⟨rfl, rfl, ?_, fun _ => rfl⟩
      rw [ReconcilePhase.afterLoad]
      split <;> rfl
    | routed localIp =>
      refine .inl ⟨rfl, rfl, ?_, fun _ => rfl⟩
      rw [ReconcilePhase.afterRoute]
      split <;> rfl
    | @saves _ _ existing settings save save' event loadPeer h =>
      have hbefore : (SettingsCall.discovery peer (.saving existing settings save)).saving =
        some (settings, save) := rfl
      have hafter : (SettingsCall.discovery peer (.saving existing settings save')).saving =
        some (settings, save') := rfl
      have hcases := saving_cases hbefore hafter h (fun hevent => hwhole (congrArg some hevent))
        (fun _ _ => rfl) (fun _ _ => rfl)
      rcases hcases with hquiet | htruncates | hwrites
      · exact .inl hquiet
      · exact .inr (.inl ⟨settings, htruncates⟩)
      · exact .inr (.inr ⟨settings, hwrites⟩)

def EndpointsChecked (settings : AppSettings) : SavePhase → Prop
  | .validating | .finished _ => True
  | .opening | .writing _ | .syncing => PrivateEndpoints settings

def Reconciles (peer : DiscoveredPeer) : ReconcilePhase → Prop
  | .routing existing => ∀ loaded, existing = some loaded → loaded.activePeer = peer.fingerprint
  | .saving existing settings save =>
    ((∀ loaded, existing = some loaded → loaded.activePeer = peer.fingerprint) ∧
      ∃ localIp, settings = reconciledSettings peer localIp existing) ∧ EndpointsChecked settings save
  | .checking | .loading _ | .returned => True

def CallKept : SettingsCall → Prop
  | .user settings save => EndpointsChecked settings save
  | .discovery peer phase => Reconciles peer phase

theorem SaveStep.endpointsChecked {save save' : SavePhase} {event : SaveEvent}
    (h : SaveStep loadPeer settings (stored, save) event (stored', save'))
    (hchecked : EndpointsChecked settings save) : EndpointsChecked settings save' := by
  cases h with
  | validated hvalid =>
    obtain ⟨hlocal, hpeer, -⟩ := validate_eq_ok.mp hvalid
    exact ⟨hlocal, hpeer⟩
  | refused | notOpened | notWritten | synced | notSynced => trivial
  | opened | wrote | wroteAll => exact hchecked

theorem ReconcileStep.reconciles {phase phase' : ReconcilePhase}
    (h : ReconcileStep peer (stored, phase) event (stored', phase'))
    (hphase : Reconciles peer phase) : Reconciles peer phase' := by
  cases h with
  | untrusted | trusted | loads | noRoute | saved => trivial
  | loaded result =>
    rw [ReconcilePhase.afterLoad]
    split
    · trivial
    · next hsame =>
      intro loaded hloaded
      rw [hloaded] at hsame
      simpa using hsame
  | routed localIp =>
    rw [ReconcilePhase.afterRoute]
    split
    · trivial
    · exact ⟨⟨hphase, localIp, rfl⟩, trivial⟩
  | saves loadPeer h => exact ⟨hphase.1, h.endpointsChecked hphase.2⟩

theorem SettingsCallStep.kept (h : SettingsCallStep (stored, call) event (stored', call'))
    (hcall : CallKept call) : CallKept call' := by
  cases h with
  | user loadPeer h => exact h.endpointsChecked hcall
  | discovery h => exact h.reconciles hcall

theorem SettingsCallStep.found (h : SettingsCallStep (stored, call) event (stored', call')) :
    call'.found = call.found := by
  cases h <;> rfl

theorem CallKept.saving {save : SavePhase} (h : CallKept call)
    (hsaving : call.saving = some (settings, save)) : EndpointsChecked settings save := by
  cases call with
  | user settings save =>
    cases hsaving
    exact h
  | discovery peer phase =>
    cases phase with
    | saving existing settings save =>
      cases hsaving
      exact h.2
    | checking | loading | routing | returned => cases hsaving

theorem saving_of_writing {written : Nat} (h : call.writing = some (settings, written)) :
    call.saving = some (settings, .writing written) := by
  obtain ⟨⟨settings', save⟩, hsaving, hmap⟩ := Option.bind_eq_some_iff.mp h
  obtain ⟨written', hwritten, hsame⟩ := Option.map_eq_some_iff.mp hmap
  cases hsame
  cases save with
  | writing => cases hwritten; exact hsaving
  | validating | opening | syncing | finished => cases hwritten

structure Keeps (peers : Nat → Option DiscoveredPeer) (chosen kept : AppSettings) : Prop where
  activePeer : kept.activePeer = chosen.activePeer
  autoReceive : kept.autoReceive = chosen.autoReceive
  endpoints : kept = chosen ∨ ∃ k peer localIp, peers k = some peer ∧
    peer.fingerprint = chosen.activePeer ∧ kept.peerEndpoint = peer.serviceEndpoint ∧
    kept.localEndpoint = .new localIp servicePort

theorem Keeps.refl (peers : Nat → Option DiscoveredPeer) (chosen : AppSettings) :
    Keeps peers chosen chosen := ⟨rfl, rfl, .inl rfl⟩

structure Settled (peers : Nat → Option DiscoveredPeer) (world : SettingsWorld) : Prop where
  calls : ∀ k, CallKept (world.calls k)
  found : ∀ k, (world.calls k).found = peers k
  single : ∀ {j k}, (world.calls j).writing ≠ none → (world.calls k).writing ≠ none → j = k
  cut : ∀ {k settings written}, (world.calls k).writing = some (settings, written) →
    world.stored = some (settings.bytes.take written) ∧ written ≤ settings.bytes.length
  discovered : ∀ {k settings written chosen},
    (world.calls k).writing = some (settings, written) → (world.calls k).found ≠ none →
    world.last = some chosen → Keeps peers chosen settings
  stored : (∀ k, (world.calls k).writing = none) → ∀ {chosen}, world.last = some chosen →
    ∃ kept, world.stored = some kept.bytes ∧ PrivateEndpoints kept ∧ Keeps peers chosen kept

theorem storedSettings_bytes (h : PrivateEndpoints settings) :
    storedSettings (some settings.bytes) = .ok settings := by
  rw [storedSettings, AppSettings.bytes, readToString_asBytes, Checked.ok_bind,
    AppSettings.decode_encode h.1 h.2]

theorem Settled.keeps_fresh {k : Nat} {existing : Option AppSettings} {save : SavePhase}
    {loaded current chosen : AppSettings} (h : Settled peers world)
    (hcall : world.calls k = .discovery peer (.saving existing settings save))
    (hquiet : ∀ k, (world.calls k).writing = none) (hlast : world.last = some chosen)
    (hloaded : existing = some loaded) (hcurrent : storedSettings world.stored = .ok current)
    (hpeer : current.activePeer = loaded.activePeer)
    (hauto : current.autoReceive = loaded.autoReceive) : Keeps peers chosen settings := by
  obtain ⟨kept, hstored, hprivate, hkeeps⟩ := h.stored hquiet hlast
  rw [hstored, storedSettings_bytes hprivate] at hcurrent
  cases hcurrent
  have hreconciles := h.calls k
  rw [hcall] at hreconciles
  obtain ⟨⟨hguard, localIp, rfl⟩, -⟩ := hreconciles
  have hactive : peer.fingerprint = chosen.activePeer := by
    rw [← hkeeps.activePeer, hpeer, hguard loaded hloaded]
  refine ⟨hactive, ?_, .inr ⟨k, peer, localIp, ?_, hactive, rfl, rfl⟩⟩
  · rw [← hkeeps.autoReceive, hauto, reconciledSettings, hloaded]
    rfl
  · rw [← h.found k, hcall]
    rfl

section Step

variable {k : Nat} {last : Option AppSettings}

def SettingsWorld.after (world : SettingsWorld) (stored : Stored) (k : Nat) (call : SettingsCall) :
    SettingsWorld :=
  ⟨stored, Function.update world.calls k call, SettingsWorld.lastAfter world.last call⟩

theorem writing_after (stored : Stored) (call' : SettingsCall) (j : Nat) :
    ((world.after stored k call').calls j).writing =
      if j = k then call'.writing else (world.calls j).writing := by
  rw [SettingsWorld.after]
  dsimp only
  rw [Function.update_apply]
  split <;> rfl

theorem Settled.alone {j written : Nat} (h : Settled peers world)
    (hwriting : (world.calls k).writing = some (settings, written)) (hj : j ≠ k) :
    (world.calls j).writing = none := by
  by_contra hother
  exact hj (h.single hother (by rw [hwriting]; exact Option.some_ne_none _))

theorem Settled.quiet (h : Settled peers world)
    (hcalls : ∀ j, CallKept ((world.after stored' k call').calls j))
    (hfound : ∀ j, ((world.after stored' k call').calls j).found = peers j)
    (hstep : Quiet world.stored (world.calls k) stored' call') :
    Settled peers (world.after stored' k call') := by
  have hsame (j : Nat) : ((world.after stored' k call').calls j).writing =
      (world.calls j).writing := by
    rw [writing_after]
    split
    · next hj => rw [hj, hstep.after, hstep.before]
    · rfl
  have hlast : (world.after stored' k call').last = world.last := hstep.last _
  have hstored : (world.after stored' k call').stored = world.stored := hstep.stored
  refine ⟨hcalls, hfound, ?_, ?_, ?_, ?_⟩
  · intro i j hi hj
    rw [hsame] at hi hj
    exact h.single hi hj
  · intro j settings written hj
    rw [hsame] at hj
    rw [hstored]
    exact h.cut hj
  · intro j settings written chosen hj hfound' hchosen
    rw [hsame] at hj
    rw [hfound, ← h.found] at hfound'
    exact h.discovered hj hfound' (hlast ▸ hchosen)
  · intro hquiet chosen hchosen
    rw [hstored]
    exact h.stored (fun j => hsame j ▸ hquiet j) (hlast ▸ hchosen)

theorem Settled.truncated (h : Settled peers world) (horderly : Orderly world k event)
    (hcalls : ∀ j, CallKept ((world.after stored' k call').calls j))
    (hfound : ∀ j, ((world.after stored' k call').calls j).found = peers j)
    (hstep : Truncates (world.calls k) event stored' call' settings) :
    Settled peers (world.after stored' k call') := by
  have hquiet := horderly.alone hstep.event
  have hwriting {j : Nat} (hj : ((world.after stored' k call').calls j).writing ≠ none) : j = k := by
    by_contra hne
    rw [writing_after, if_neg hne, hquiet] at hj
    exact hj rfl
  have hself : ((world.after stored' k call').calls k).writing = some (settings, 0) := by
    rw [writing_after, if_pos rfl, hstep.after]
  have hlast : (world.after stored' k call').last = world.last := hstep.last _
  refine ⟨hcalls, hfound, ?_, ?_, ?_, ?_⟩
  · intro i j hi hj
    rw [hwriting hi, hwriting hj]
  · intro j settings' written hj
    obtain rfl := hwriting (by rw [hj]; exact Option.some_ne_none _)
    rw [hself] at hj
    cases hj
    exact ⟨hstep.stored, Nat.zero_le _⟩
  · intro j settings' written chosen hj hfound' hchosen
    obtain rfl := hwriting (by rw [hj]; exact Option.some_ne_none _)
    rw [hself] at hj
    cases hj
    rw [hlast] at hchosen
    rw [hfound, ← h.found] at hfound'
    have hbefore := hstep.before
    cases hcall : world.calls j with
    | user => rw [hcall] at hfound'; exact absurd rfl hfound'
    | discovery peer phase =>
      cases phase with
      | saving existing settings' save =>
        rw [hcall] at hbefore
        cases hbefore
        obtain ⟨loaded, current, hloaded, hcurrent, hpeer, hauto⟩ := horderly.fresh hstep.event
          peer existing settings .opening hcall (by rw [hchosen]; exact Option.some_ne_none _)
        exact h.keeps_fresh hcall hquiet hchosen hloaded hcurrent hpeer hauto
      | checking | loading | routing | returned => rw [hcall] at hbefore; cases hbefore
  · intro hnone
    have hcontra := hnone k
    rw [hself] at hcontra
    cases hcontra

theorem Settled.written {contents : List UInt8} {written count : Nat} (h : Settled peers world)
    (hcalls : ∀ j, CallKept ((world.after stored' k call').calls j))
    (hfound : ∀ j, ((world.after stored' k call').calls j).found = peers j)
    (hstep : Writes world.stored (world.calls k) stored' call' settings contents written count) :
    Settled peers (world.after stored' k call') := by
  obtain ⟨hcontents, hfits⟩ := h.cut hstep.before
  rw [hstep.stored] at hcontents
  have hstored : (world.after stored' k call').stored =
      some (settings.bytes.take (written + count)) := by
    rw [← overlay_take hfits, ← Option.some.inj hcontents]
    exact hstep.stored'
  have hother {j : Nat} (hj : j ≠ k) : ((world.after stored' k call').calls j).writing = none := by
    rw [writing_after, if_neg hj, h.alone hstep.before hj]
  have hwriting {j : Nat} (hj : ((world.after stored' k call').calls j).writing ≠ none) : j = k := by
    by_contra hne
    exact hj (hother hne)
  rcases hstep.after with ⟨hmore, hafter, hkept⟩ | ⟨hall, hafter, hkept⟩
  · have hself : ((world.after stored' k call').calls k).writing =
        some (settings, written + count) := by
      rw [writing_after, if_pos rfl, hafter]
    have hlast : (world.after stored' k call').last = world.last := hkept _
    refine ⟨hcalls, hfound, ?_, ?_, ?_, ?_⟩
    · intro i j hi hj
      rw [hwriting hi, hwriting hj]
    · intro j settings' written' hj
      obtain rfl := hwriting (by rw [hj]; exact Option.some_ne_none _)
      rw [hself] at hj
      cases hj
      exact ⟨hstored, hmore.le⟩
    · intro j settings' written' chosen hj hfound' hchosen
      obtain rfl := hwriting (by rw [hj]; exact Option.some_ne_none _)
      rw [hself] at hj
      cases hj
      rw [hfound, ← h.found] at hfound'
      exact h.discovered hstep.before hfound' (hlast ▸ hchosen)
    · intro hnone
      have hcontra := hnone k
      rw [hself] at hcontra
      cases hcontra
  · have hnone (j : Nat) : ((world.after stored' k call').calls j).writing = none := by
      by_cases hj : j = k
      · rw [writing_after, if_pos hj, hafter]
      · exact hother hj
    have hprivate : PrivateEndpoints settings :=
      (h.calls k).saving (saving_of_writing hstep.before)
    rw [hall, List.take_length] at hstored
    refine ⟨hcalls, hfound, fun hi _ => absurd (hnone _) hi, fun hj => ?_, fun hj => ?_, ?_⟩
    · rw [hnone] at hj
      cases hj
    · rw [hnone] at hj
      cases hj
    · intro _ chosen hchosen
      refine ⟨settings, hstored, hprivate, ?_⟩
      have hlast : (world.after stored' k call').last =
          if (world.calls k).found = none then some settings else world.last := hkept _
      rw [hlast] at hchosen
      split at hchosen
      · cases hchosen
        exact .refl peers settings
      · next hfound' => exact h.discovered hstep.before hfound' hchosen

end Step

theorem Settled.step {label : Nat × Option SaveEvent} (h : Settled peers world)
    (hstep : OrderlyStep world label world') : Settled peers world' := by
  obtain ⟨horderly, hstep⟩ := hstep
  cases hstep with
  | @mk k event stored' call call' hcall hstep =>
    subst hcall
    have hcalls (j : Nat) : CallKept ((world.after stored' k call').calls j) := by
      rw [SettingsWorld.after]
      dsimp only
      rw [Function.update_apply]
      split
      · exact hstep.kept (h.calls k)
      · exact h.calls j
    have hfound (j : Nat) : ((world.after stored' k call').calls j).found = peers j := by
      rw [SettingsWorld.after]
      dsimp only
      rw [Function.update_apply]
      split
      · next hj => rw [hstep.found, h.found, hj]
      · exact h.found j
    rcases hstep.cases horderly.whole with hquiet | ⟨settings, htruncates⟩ |
      ⟨settings, contents, written, count, hwrites⟩
    · exact h.quiet hcalls hfound hquiet
    · exact h.truncated horderly hcalls hfound htruncates
    · exact h.written hcalls hfound hwrites

theorem SettingsStart.settled (h : SettingsStart world) :
    Settled (fun k => (world.calls k).found) world := by
  have hidle (k : Nat) : (world.calls k).writing = none ∧ CallKept (world.calls k) := by
    have hbegun := h.calls k
    cases hcall : world.calls k with
    | user settings save =>
      rw [hcall] at hbegun
      cases save with
      | validating => exact ⟨rfl, trivial⟩
      | opening | writing | syncing | finished => cases hbegun
    | discovery peer phase =>
      rw [hcall] at hbegun
      cases phase with
      | checking => exact ⟨rfl, trivial⟩
      | loading | routing | saving | returned => cases hbegun
  refine ⟨fun k => (hidle k).2, fun _ => rfl, fun hj _ => absurd (hidle _).1 hj, fun hk => ?_,
    fun hk => ?_, fun _ chosen hchosen => ?_⟩
  · rw [(hidle _).1] at hk
    cases hk
  · rw [(hidle _).1] at hk
    cases hk
  · obtain ⟨hprivate, hstored⟩ := h.last chosen hchosen
    exact ⟨chosen, hstored, hprivate, .refl _ chosen⟩

theorem begun_of_writing (h : call.writing ≠ none) : call.begun = true ∧ call.ended = false := by
  cases call with
  | user settings save =>
    cases save with
    | writing => exact ⟨rfl, rfl⟩
    | validating | opening | syncing | finished => exact absurd rfl h
  | discovery peer phase =>
    cases phase with
    | saving => exact ⟨rfl, rfl⟩
    | checking | loading | routing | returned => exact absurd rfl h

theorem quiet_writing (h : world.quiet) (k : Nat) : (world.calls k).writing = none := by
  by_contra hwriting
  obtain ⟨hbegun, hended⟩ := begun_of_writing hwriting
  rw [h k hbegun] at hended
  cases hended

theorem discovery_keeps_choice {labels : List (Nat × Option SaveEvent)} (hstart : SettingsStart world)
    (hrun : Run OrderlyStep world labels world') (hquiet : world'.quiet) :
    ∀ chosen, world'.last = some chosen → ∃ kept, storedSettings world'.stored = .ok kept ∧
      kept.activePeer = chosen.activePeer ∧ kept.autoReceive = chosen.autoReceive ∧
      (kept = chosen ∨ ∃ k peer localIp, (world.calls k).found = some peer ∧
        peer.fingerprint = chosen.activePeer ∧ kept.peerEndpoint = peer.serviceEndpoint ∧
        kept.localEndpoint = .new localIp servicePort) := by
  intro chosen hchosen
  have hsettled : Settled (fun k => (world.calls k).found) world' :=
    hrun.invariant (I := Settled fun k => (world.calls k).found) (fun h hstep => h.step hstep)
      hstart.settled
  obtain ⟨kept, hstored, hprivate, hpeer, hauto, hendpoints⟩ :=
    hsettled.stored (quiet_writing hquiet) hchosen
  refine ⟨kept, ?_, hpeer, hauto, hendpoints⟩
  rw [hstored, storedSettings_bytes hprivate]

def lanPeer (fingerprint : UInt8) : DiscoveredPeer where
  fingerprint := ⟨repeatedSecret fingerprint⟩
  serviceEndpoint := .v4 (lanHost 12) 45233

def lanIp : IpAddr := .v4 (lanHost 10)

def lanWorld (peer : DiscoveredPeer) (stored : Stored) (save : SavePhase) (phase : ReconcilePhase)
    (last : AppSettings) : SettingsWorld where
  stored := stored
  calls := fun k =>
    if k = 0 then .user (lanSettings false) save
    else if k = 1 then .discovery peer phase
    else .discovery peer .checking
  last := some last

variable {save save' : SavePhase} {phase phase' : ReconcilePhase} {last : AppSettings}

theorem lanWorld_start (peer : DiscoveredPeer) : SettingsStart
    (lanWorld peer (some (lanSettings true).bytes) .validating .checking (lanSettings true)) where
  calls := by
    intro k
    rw [lanWorld]
    dsimp only
    split
    · rfl
    split <;> rfl
  last := by
    rintro settings ⟨⟩
    exact ⟨⟨rfl, rfl⟩, rfl⟩

theorem lanWorld_user {event : SaveEvent} {last' : AppSettings}
    (h : SaveStep trustAll (lanSettings false) (stored, save) event (stored', save'))
    (hlast : SettingsWorld.lastAfter (some last) (.user (lanSettings false) save') = some last') :
    SettingsStep (lanWorld peer stored save phase last) (0, some event)
      (lanWorld peer stored' save' phase last') := by
  have hworld : lanWorld peer stored' save' phase last' =
      ⟨stored', Function.update (lanWorld peer stored save phase last).calls 0
          (.user (lanSettings false) save'),
        SettingsWorld.lastAfter (some last) (.user (lanSettings false) save')⟩ := by
    rw [hlast, lanWorld]
    congr 1
    funext k
    rw [Function.update_apply]
    by_cases hzero : k = 0
    · rw [if_pos hzero, if_pos hzero]
    · rw [if_neg hzero, if_neg hzero, lanWorld]
      dsimp only
      rw [if_neg hzero]
  rw [hworld]
  exact .mk rfl (.user trustAll h)

theorem lanWorld_discovery (h : ReconcileStep peer (stored, phase) event (stored', phase')) :
    SettingsStep (lanWorld peer stored save phase last) (1, event)
      (lanWorld peer stored' save phase' last) := by
  have hworld : lanWorld peer stored' save phase' last =
      ⟨stored', Function.update (lanWorld peer stored save phase last).calls 1
          (.discovery peer phase'),
        SettingsWorld.lastAfter (some last) (.discovery peer phase')⟩ := by
    rw [lanWorld]
    congr 1
    funext k
    rw [Function.update_apply]
    by_cases hone : k = 1
    · rw [if_pos hone, hone]
      rfl
    · rw [if_neg hone]
      dsimp only [lanWorld]
      rw [if_neg hone, if_neg hone]
  rw [hworld]
  exact .mk rfl (.discovery h)

theorem wroteAll_bytes (loadPeer : LoadPeer) (settings : AppSettings) :
    SaveStep loadPeer settings (some [], .writing 0) (.wrote settings.bytes.length)
      (some settings.bytes, .syncing) := by
  have hlength := settings.length_encode_eq
  have hbytes : overlay 0 [] 0 ((settings.bytes.drop 0).take settings.bytes.length) =
      settings.bytes := by
    have hoverlay := @overlay_take settings.bytes 0 settings.bytes.length (Nat.zero_le _)
    rwa [Nat.zero_add, List.take_length] at hoverlay
  have hstep : SaveStep loadPeer settings (some [], .writing 0) (.wrote settings.bytes.length)
      (some (overlay 0 [] 0 ((settings.bytes.drop 0).take settings.bytes.length)), .syncing) :=
    .wroteAll settings.bytes.length (by rw [length_bytes]; omega) (Nat.zero_add _)
  rwa [hbytes] at hstep

theorem lanWorld_quiet (stored : Stored) (peer : DiscoveredPeer) (last : AppSettings)
    (result : Except IoError Unit) (hphase : phase = .checking ∨ phase = .returned) :
    (lanWorld peer stored (.finished result) phase last).quiet := by
  intro k
  rw [lanWorld]
  dsimp only
  split
  · exact fun _ => rfl
  split
  · rcases hphase with rfl | rfl
    · exact nofun
    · exact fun _ => rfl
  · exact nofun

theorem lanWorld_orderly {event : SaveEvent} (hwhole : event ≠ .notWritten)
    (hsave : event = .opened → save.written = none) :
    Orderly (lanWorld peer stored save .checking last) 0 (some event) where
  alone := by
    intro hevent k
    rw [lanWorld]
    dsimp only
    split
    · rw [@writing_of_saving (.user (lanSettings false) save) (lanSettings false) save rfl,
        hsave (Option.some.inj hevent)]
      rfl
    split <;> rfl
  whole := fun hevent => hwhole (Option.some.inj hevent)
  fresh := by
    intro _ other existing settings save' hcall
    have huser : (lanWorld peer stored save .checking last).calls 0 =
      .user (lanSettings false) save := rfl
    rw [huser] at hcall
    cases hcall

theorem lanWorld_orderlyStep {event : SaveEvent} {last' : AppSettings}
    (h : SaveStep trustAll (lanSettings false) (stored, save) event (stored', save'))
    (hlast : SettingsWorld.lastAfter (some last) (.user (lanSettings false) save') = some last')
    (hwhole : event ≠ .notWritten) (hsave : event = .opened → save.written = none) :
    OrderlyStep (lanWorld peer stored save .checking last) (0, some event)
      (lanWorld peer stored' save' .checking last') :=
  ⟨lanWorld_orderly hwhole hsave, lanWorld_user h hlast⟩

theorem discovery_keeps_choice_saved : ∃ kept,
    storedSettings (some (lanSettings false).bytes) = .ok kept ∧
      kept.activePeer = (lanSettings false).activePeer := by
  have hstart : Run OrderlyStep (lanWorld (lanPeer 9) (some (lanSettings true).bytes) .validating
      .checking (lanSettings true)) [] _ := .nil
  have hvalidated := hstart.snoc
    (lanWorld_orderlyStep (.validated (lanSettings_valid false)) rfl nofun nofun)
  have hopened := hvalidated.snoc (lanWorld_orderlyStep .opened rfl nofun fun _ => rfl)
  have hwrote := hopened.snoc
    (lanWorld_orderlyStep (wroteAll_bytes trustAll (lanSettings false)) rfl nofun nofun)
  have hsaved := hwrote.snoc (lanWorld_orderlyStep .synced rfl nofun nofun)
  have hquiet := lanWorld_quiet (some (lanSettings false).bytes) (lanPeer 9) (lanSettings false)
    (.ok ()) (.inl rfl)
  obtain ⟨kept, hstored, hpeer, -⟩ := discovery_keeps_choice (lanWorld_start (lanPeer 9)) hsaved
    hquiet (lanSettings false) rfl
  exact ⟨kept, hstored, hpeer⟩

theorem discovery_replaces_choice : ∃ world labels world' chosen kept,
    SettingsStart world ∧ Run SettingsStep world labels world' ∧
    world'.quiet ∧ world'.last = some chosen ∧ storedSettings world'.stored = .ok kept ∧
      kept.activePeer ≠ chosen.activePeer ∧ kept.autoReceive ≠ chosen.autoReceive := by
  have hvalid : (reconciledSettings (lanPeer 9) lanIp none).validate trustAll = .ok () := rfl
  have hprivate : PrivateEndpoints (reconciledSettings (lanPeer 9) lanIp none) := ⟨rfl, rfl⟩
  have hstart : Run SettingsStep (lanWorld (lanPeer 9) (some (lanSettings true).bytes) .validating
      .checking (lanSettings true)) [] _ := .nil
  have hopened := (hstart.snoc (lanWorld_user (.validated (lanSettings_valid false)) rfl)).snoc
    (lanWorld_user .opened rfl)
  have hempty := ((hopened.snoc (lanWorld_discovery .trusted)).snoc
    (lanWorld_discovery (.loads trustAll (.opened rfl)))).snoc
    (lanWorld_discovery (.loads trustAll (.refused rfl rfl)))
  have hloaded := hempty.snoc (lanWorld_discovery (.loaded _))
  have hsaved := (hloaded.snoc (lanWorld_user (wroteAll_bytes trustAll _) rfl)).snoc
    (lanWorld_user .synced rfl)
  have hrouted := hsaved.snoc (lanWorld_discovery (.routed lanIp))
  have htruncated := (hrouted.snoc (lanWorld_discovery (.saves trustAll (.validated hvalid)))).snoc
    (lanWorld_discovery (.saves trustAll .opened))
  have hreplaced := ((htruncated.snoc
    (lanWorld_discovery (.saves trustAll (wroteAll_bytes trustAll _)))).snoc
    (lanWorld_discovery (.saves trustAll .synced))).snoc (lanWorld_discovery (.saved _))
  exact ⟨_, _, _, _, _, lanWorld_start (lanPeer 9), hreplaced, lanWorld_quiet _ _ _ _ (.inr rfl), rfl,
    storedSettings_bytes hprivate, by decide, by decide⟩

end ClipFerry.Settings
