import ClipFerry.Client.Integrity

namespace ClipFerry.Client

open ByteField ClipFerry.Stream Checked Protocol Server Transition VirtualTree

/-! A peer that may answer a command with any payload that fits in a frame. -/

inductive PeerLabel where
  | client (l : ClientLabel TransferCredentials)
  | respond (t : Nat) (outcome : Except IoError (List UInt8))

inductive PeerStep : ClientWorld TransferCredentials → PeerLabel →
    ClientWorld TransferCredentials → Prop
  | client {client client' : ClientWorld TransferCredentials}
      {l : ClientLabel TransferCredentials} (hl : l.answered = false)
      (h : ClientStep client l client') : PeerStep client (.client l) client'
  | respond {client client' : ClientWorld TransferCredentials} {t s : Nat}
      {pc : SourcePc TransferCredentials} {rpc : Rpc TransferCredentials}
      {source : RemoteSource TransferCredentials} {outcome : Except IoError (List UInt8)}
      (hat : client.At t s pc) (hrpc : pc.rpc s = some rpc)
      (hsource : client.registry.sources[s]? = some source)
      (hfits : ∀ response, outcome = .ok response → response.length ≤ maxFramePayload)
      (h : ClientStep client (.answer t (rpc.reply source outcome)) client') :
      PeerStep client (.respond t outcome) client'

def Accepts (size offset : UInt64) (length : Nat) (bytes : List UInt8) : Prop :=
  ∃ (labels : List PeerLabel) (client : ClientWorld TransferCredentials) (t s : Nat),
    Run PeerStep .empty labels client ∧
    client.threads[t]? = some (.source s (.readAt offset length) (.returned (.ok bytes))) ∧
    client.Holds s (·.size = size)

namespace SourcePc

variable {κ : Type} {pc pc' : SourcePc κ} {source source' : RemoteSource κ} {offset : UInt64}
  {length : Nat}

def Limits (offset : UInt64) (length : Nat) : SourcePc κ → Prop
  | .start task => task = .readAt offset length
  | .gateCancelled o l | .gatePaused o l => o = offset ∧ l = length
  | .lockTransfer purpose | .beginning purpose | .checkCancelled purpose _
  | .allocateCancel purpose _ | .sendCancel purpose _ _ | .checkPaused purpose _
  | .allocatePause purpose _ | .sendPause purpose _ _ =>
    purpose = .read offset (min length maxSecureRangeBytes)
  | .reading _ o requested | .napping _ o requested =>
    o = offset ∧ requested = min length maxSecureRangeBytes
  | .received _ _ bytes | .returned (.ok bytes) => bytes.length ≤ min length maxSecureRangeBytes
  | .allocateComplete _ | .sendComplete _ _ | .unmarkComplete _ | .returned (.error _) => True
  | _ => False

theorem limits_proceed (credentials : κ) :
    (proceed credentials (.read offset (min length maxSecureRangeBytes))).Limits offset length :=
  ⟨rfl, rfl⟩

theorem advance_limits {paused cancelled : Bool} (hlimits : pc.Limits offset length)
    (h : pc.advance paused cancelled source = some (source', pc')) : pc'.Limits offset length := by
  cases pc with
  | start task =>
    cases hlimits
    cases h
    split
    · exact Nat.zero_le _
    · exact ⟨rfl, rfl⟩
  | gateCancelled o l =>
    obtain ⟨rfl, rfl⟩ := hlimits
    cases h
    split
    · trivial
    · exact ⟨rfl, rfl⟩
  | gatePaused o l =>
    obtain ⟨rfl, rfl⟩ := hlimits
    simp only [advance] at h
    split at h <;> cases h
    · exact ⟨rfl, rfl⟩
    · rfl
  | lockTransfer purpose =>
    cases hlimits
    simp only [advance] at h
    split at h
    · cases h
    · split at h <;> cases h
      · exact limits_proceed _
      · rfl
  | checkCancelled purpose c | checkPaused purpose c =>
    cases hlimits
    cases h
    split <;> first | rfl | exact limits_proceed _
  | received c o bytes =>
    simp only [advance] at h
    split at h
    · cases h
      trivial
    · split at h <;> cases h
      · trivial
      · exact hlimits
  | allocateCancel purpose c | allocatePause purpose c | napping c o requested =>
    cases h
    exact hlimits
  | allocateComplete c | unmarkComplete error =>
    cases h
    trivial
  | allocate | markComplete | allocateLocal => exact hlimits.elim
  | beginning | sendCancel | sendPause | reading | sendComplete | controlling | asking | returned
  | done => cases h

theorem answer_limits {reply : Reply κ} (hlimits : pc.Limits offset length)
    (hrange : ∀ credentials o requested status bytes, pc = .reading credentials o requested →
      reply = .range status bytes → bytes.length ≤ requested)
    (h : pc.answer source reply = some (source', pc')) : pc'.Limits offset length := by
  unfold answer at h
  split at h <;> cases h
  · exact hlimits
  · cases hlimits
    trivial
  · cases hlimits
    trivial
  · cases hlimits
    trivial
  · cases hlimits
    exact limits_proceed _
  · cases hlimits
    trivial
  · obtain ⟨rfl, rfl⟩ := hlimits
    split
    · exact ⟨rfl, rfl⟩
    · exact hrange _ _ _ _ _ rfl rfl
  · trivial
  · exact Nat.zero_le _
  · trivial
  all_goals exact hlimits.elim

end SourcePc

def ClientWorld.Limited (client : ClientWorld TransferCredentials) : Prop :=
  ∀ (t s : Nat) (offset : UInt64) (length : Nat) (pc : SourcePc TransferCredentials),
    client.threads[t]? = some (.source s (.readAt offset length) pc) → pc.Limits offset length

theorem decodeRange_limit {requested : Nat} {response bytes : List UInt8} {status : TransferStatus}
    (h : decodeRange requested response = .ok (status, bytes)) : bytes.length ≤ requested := by
  unfold decodeRange at h
  rw [bind_eq_ok] at h
  obtain ⟨answered, -, h⟩ := h
  rw [guard_eq_ok] at h
  obtain ⟨-, h⟩ := h
  rw [bind_eq_ok] at h
  obtain ⟨length, -, h⟩ := h
  rw [guard_eq_ok] at h
  obtain ⟨hlength, h⟩ := h
  cases h
  rw [not_or, not_not] at hlength
  rw [List.length_drop]
  omega

namespace ClientWorld

variable {client client' : ClientWorld TransferCredentials} {label : PeerLabel}

theorem Limited.empty : (ClientWorld.empty : ClientWorld TransferCredentials).Limited :=
  fun _ _ _ _ _ h => by cases h

theorem Limited.focused {t s : Nat} {thread : Thread TransferCredentials}
    {pc pc' : SourcePc TransferCredentials} {registry : Registry TransferCredentials}
    (h : client.Limited) (hthread : client.threads[t]? = some thread)
    (hfocus : thread.focus = some (s, pc))
    (hstep : ∀ {offset length}, pc.Limits offset length → pc'.Limits offset length) :
    (⟨registry, client.threads.set t (thread.setFocus pc')⟩ :
      ClientWorld TransferCredentials).Limited := by
  intro u r offset length q hu
  rcases Position.set_cases hu with ⟨rfl, hnew⟩ | ⟨-, hold⟩
  · obtain ⟨pc₀, rfl, rfl⟩ := Thread.setFocus_source hnew.symm
    cases hfocus
    exact hstep (h _ _ _ _ _ hthread)
  · exact h _ _ _ _ _ hold

theorem Limited.step (h : client.Limited) (hstep : PeerStep client label client') :
    client'.Limited := by
  cases hstep with
  | client hl hclient =>
    cases hclient with
    | @spawn thread hspawned =>
      intro u r offset length q hu
      rcases Position.concat_cases hu with hold | ⟨-, rfl⟩
      · exact h _ _ _ _ _ hold
      · cases hspawned
        rfl
    | remember => exact h
    | source hthread hfocus hsource hadvance =>
      exact h.focused hthread hfocus fun hlimits => SourcePc.advance_limits hlimits hadvance
    | group hthread =>
      intro u r offset length q hu
      rcases Position.set_cases hu with ⟨-, hnew⟩ | ⟨-, hold⟩
      · cases hnew
      · exact h _ _ _ _ _ hold
    | answer => cases hl
  | respond hat hrpc hsource hfits hclient =>
    cases hclient with
    | answer hthread hfocus hsource' hanswer =>
      refine h.focused hthread hfocus fun hlimits => SourcePc.answer_limits hlimits ?_ hanswer
      intro credentials o requested status bytes hpc hreply
      obtain ⟨-, rfl⟩ := hat.unique ⟨_, hthread, hfocus⟩
      rw [hpc] at hrpc
      cases hrpc
      obtain ⟨response, -, hdecode⟩ := reply_range hreply
      exact decodeRange_limit hdecode

end ClientWorld

theorem Accepts.limit {size offset : UInt64} {length : Nat} {bytes : List UInt8}
    (h : Accepts size offset length bytes) : bytes.length ≤ min length maxSecureRangeBytes := by
  obtain ⟨labels, client, t, s, hrun, hthread, -⟩ := h
  have hlimited := hrun.invariant (I := ClientWorld.Limited) ClientWorld.Limited.step .empty
  exact hlimited _ _ _ _ _ hthread

def peerCredentials : TransferCredentials :=
  ⟨repeatedId 9, repeatedId 1, repeatedId 3, repeatedSecret 4, repeatedSecret 5, 0⟩

def peerManifest (size : UInt64) : OfferManifest :=
  ⟨repeatedId 9, [⟨repeatedId 1, .basic ['a'] size⟩], 0⟩

def peerSource (size : UInt64) : RemoteSource TransferCredentials :=
  .new 0 (peerManifest size) ⟨repeatedId 1, .basic ['a'] size⟩

def peerBegun (size : UInt64) : RemoteSource TransferCredentials :=
  { peerSource size with transfer := some peerCredentials, readCalls := 1 }

def peerWorld (source : RemoteSource TransferCredentials) (offset : UInt64) (length : Nat)
    (pc : SourcePc TransferCredentials) : ClientWorld TransferCredentials :=
  ⟨⟨[source], [0], false, false⟩, [.source 0 (.readAt offset length) pc]⟩

section PeerRun

variable {size offset : UInt64} {length : Nat} {bytes : List UInt8}
  {source source' : RemoteSource TransferCredentials} {pc pc' : SourcePc TransferCredentials}

theorem peer_advance (h : pc.advance false false source = some (source', pc')) :
    PeerStep (peerWorld source offset length pc) (.client (.source 0))
      (peerWorld source' offset length pc') :=
  .client rfl (@ClientStep.source _ (peerWorld source offset length pc) 0 0
    (.source 0 (.readAt offset length) pc) pc pc' source source' rfl rfl rfl h)

theorem peer_respond {rpc : Rpc TransferCredentials} (answer : Answer)
    (hrpc : pc.rpc 0 = some rpc) (hfits : (respond (.ok answer)).length ≤ maxFramePayload)
    (h : pc.answer source (rpc.reply source (.ok (respond (.ok answer)))) = some (source', pc')) :
    PeerStep (peerWorld source offset length pc) (.respond 0 (.ok (respond (.ok answer))))
      (peerWorld source' offset length pc') :=
  .respond ⟨_, rfl, rfl⟩ hrpc rfl (fun response hresponse => by cases hresponse; exact hfits)
    (@ClientStep.answer _ (peerWorld source offset length pc) 0 0
      (.source 0 (.readAt offset length) pc) pc pc' source source' _ rfl rfl rfl h)

theorem reading_run (size offset : UInt64) {length : Nat} (hlength : length ≠ 0) : ∃ labels,
    Run PeerStep .empty labels (peerWorld (peerBegun size) offset length
      (.reading peerCredentials offset (min length maxSecureRangeBytes))) := by
  have hgate : (SourcePc.start (.readAt offset length)).advance false false (peerSource size) =
      some (peerSource size, .gateCancelled offset length) := by
    rw [SourcePc.advance, if_neg hlength]
  have hbegin : (respond (.ok (.began peerCredentials))).length ≤ maxFramePayload := by
    rw [show (respond (.ok (.began peerCredentials))).length = 121 by simp [respond, beginResponse]]
    decide
  have hremember : PeerStep .empty (.client .remember)
      ⟨⟨[peerSource size], [0], false, false⟩, []⟩ :=
    .client rfl (.remember 0 (peerManifest size) ⟨repeatedId 1, .basic ['a'] size⟩
      (ClientWorld.registryFree_of_all rfl))
  have hspawn : PeerStep ⟨⟨[peerSource size], [0], false, false⟩, []⟩ _
      (peerWorld (peerSource size) offset length (.start (.readAt offset length))) :=
    .client rfl (@ClientStep.spawn _ _ (.source 0 (.readAt offset length) _) rfl)
  have h := (Run.single hremember).snoc hspawn
    |>.snoc (peer_advance hgate) |>.snoc (peer_advance rfl) |>.snoc (peer_advance rfl)
    |>.snoc (peer_advance rfl)
    |>.snoc (peer_respond (.began peerCredentials) rfl hbegin (by rw [reply_began_respond (by rfl) (by rfl)]; rfl))
    |>.snoc (peer_advance rfl) |>.snoc (peer_advance rfl)
  exact ⟨_, h⟩

theorem accepts_any (size offset : UInt64) (hne : bytes ≠ [])
    (hlength : bytes.length ≤ min length maxSecureRangeBytes) :
    Accepts size offset length bytes := by
  have hpos : length ≠ 0 := by
    rintro rfl
    exact hne (List.eq_nil_of_length_eq_zero (by omega))
  obtain ⟨labels, hrun⟩ := reading_run size offset hpos
  have hlimit : bytes.length ≤ maxSecureRangeBytes := by omega
  have hfits := respond_range_fits ⟨.running, 0⟩ hlimit
  have hreceived : ∀ {c : TransferCredentials}, (SourcePc.received c offset bytes).advance false
      false (peerBegun size) = some ({ peerBegun size with bytesRead := bytes.length },
        .returned (.ok bytes)) := by
    intro c
    rw [SourcePc.advance, if_neg (fun h => hne h.1), if_neg (fun h => hne h.1)]
    simp [peerBegun, peerSource, RemoteSource.new]
  have h := (hrun.snoc (peer_respond (.range ⟨.running, 0⟩ bytes) rfl hfits (by
      rw [reply_range_respond (range_small hlimit) hlength]; rfl)))
    |>.snoc (peer_advance hreceived)
  exact ⟨_, _, 0, 0, h, rfl, _, rfl, rfl⟩

theorem accepts_nothing (hend : size ≤ offset) (hlength : length ≠ 0) :
    Accepts size offset length [] := by
  obtain ⟨labels, hrun⟩ := reading_run size offset hlength
  have hreceived : ∀ {c : TransferCredentials}, (SourcePc.received c offset []).advance false
      false (peerBegun size) = some ({ peerBegun size with completionSent := true },
        .allocateComplete c) := by
    intro c
    rw [SourcePc.advance, if_neg (fun h => absurd hend (UInt64.not_le.mpr h.2)),
      if_pos ⟨rfl, hend, rfl⟩]
  have h := (hrun.snoc (peer_respond (.range ⟨.running, 0⟩ []) rfl (by decide) (by
      rw [reply_range_respond (by decide) (Nat.zero_le _)]; rfl)))
    |>.snoc (peer_advance hreceived) |>.snoc (peer_advance rfl)
    |>.snoc (peer_respond (.status ⟨.completed, 0⟩) rfl (by decide) rfl)
  exact ⟨_, _, 0, 0, h, rfl, _, rfl, rfl⟩

end PeerRun

def PeerAnswers (source : ReadAtSource) : Prop :=
  ∀ attempt (offset : UInt64) length read buffer, 0 < length →
    source.readAt attempt offset.toNat length = .ok (read, buffer) →
    ∃ bytes, Accepts source.len offset length bytes ∧ bytes.length = read ∧
      buffer.val.take read = bytes

-- the peer serves zeros as far as `last`, whatever the length in the manifest
def overlong (size : UInt64) (last : Nat) : ReadAtSource where
  len := size
  readAt _ offset length :=
    .ok (min (min length maxSecureRangeBytes) (last - offset), .replicate length 0)

theorem overlong_answers {size : UInt64} {last : Nat} (hlast : size.toNat ≤ last) :
    PeerAnswers (overlong size last) := by
  intro attempt offset length read buffer hpos hread
  cases hread
  have htake : (List.Vector.replicate length (0 : UInt8)).val.take
      (min (min length maxSecureRangeBytes) (last - offset.toNat)) =
      List.replicate (min (min length maxSecureRangeBytes) (last - offset.toNat)) 0 := by
    refine List.take_replicate.trans ?_
    congr 1
    omega
  refine ⟨_, ?_, by rw [List.length_replicate], htake⟩
  have hmax : 0 < maxSecureRangeBytes := by decide
  by_cases hover : last ≤ offset.toNat
  · rw [show min (min length maxSecureRangeBytes) (last - offset.toNat) = 0 by omega]
    exact accepts_nothing (UInt64.le_iff_toNat_le.mpr (Nat.le_trans hlast hover))
      (Nat.ne_of_gt hpos)
  · refine accepts_any _ _ ?_ (by rw [List.length_replicate]; omega)
    rw [ne_eq, List.replicate_eq_nil_iff]
    omega

end ClipFerry.Client
