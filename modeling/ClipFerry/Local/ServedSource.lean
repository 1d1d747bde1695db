import ClipFerry.Local.StartedOffer
import ClipFerry.Server.Source

namespace ClipFerry.Local

open VirtualTree Transition Checked Server

/-! A file whose bytes are not overwritten while its identity and its size stay the same. -/

structure Disk.Unaltered (disk : Disk) (snapshot : FileSnapshot) (content : List UInt8) : Prop where
  length : content.length = snapshot.size.toNat
  bytes : ∀ (file : File) information offset length read, file.path = snapshot.path →
    (disk.answers .reading file).information = .ok information →
      snapshot.matchesInformation information = true →
        (disk.answers .reading file).seekRead offset length = .ok read →
          read = (content.drop offset).take read.length

/-! A captured file as the server reads it: what each read finds is its `ReadMoment`. -/

structure ReadMoment where
  source : StableFileSource
  disk : Disk
  now : Nat

def filled (length : Nat) (bytes : List UInt8) : List.Vector UInt8 length :=
  ⟨bytes.take length ++ List.replicate (length - bytes.length) 0, by
    rw [List.length_append, List.length_take, List.length_replicate]
    omega⟩

def localSource (size : UInt64) (moments : Nat → ReadMoment) : ReadAtSource where
  len := size
  readAt attempt offset length :=
    if 2 ^ 64 ≤ offset then .error .invalidArg
    else match ((moments attempt).source.readAt (moments attempt).disk (moments attempt).now
        (.ofNat offset) length).2 with
    | .error error => .error error
    | .ok bytes => .ok (bytes.length, filled length bytes)

structure ReadMoment.Of (moment : ReadMoment) (snapshot : FileSnapshot) (content : List UInt8) :
    Prop where
  reached : moment.source.Reached
  captured : moment.source.snapshot = snapshot
  unaltered : moment.disk.Unaltered snapshot content

namespace StableFileSource

variable {disk : Disk} {now length : Nat} {source : StableFileSource} {context : StableFileContext}
  {content bytes : List UInt8} {offset : UInt64}

theorem verify_information {moment : Moment} (h : context.verify disk moment = .ok ()) :
    ∃ information, (disk.answers moment context.file).information = .ok information ∧
      context.snapshot.matchesInformation information = true := by
  obtain ⟨information, hanswer, h⟩ := bind_eq_ok.mp h
  refine ⟨information, hanswer, ?_⟩
  split at h
  · assumption
  · cases h

theorem readContext_unaltered (hopen : context.OpenOf source.snapshot)
    (hunaltered : disk.Unaltered source.snapshot content)
    (h : (source.readContext disk offset length context).2 = .ok bytes) :
    bytes.length ≤ length ∧ bytes = (content.drop offset.toNat).take bytes.length := by
  rw [readContext] at h
  cases hverify : context.verify disk .reading with
  | error error =>
    rw [hverify] at h
    cases h
  | ok verified =>
    rw [hverify] at h
    dsimp only at h
    split at h
    · cases h
      exact ⟨Nat.zero_le _, rfl⟩
    · split at h
      · cases h
      · next read hread =>
        obtain ⟨information, hanswer, hmatches⟩ := verify_information hverify
        rw [hopen.snapshot] at hmatches
        have hread := hunaltered.bytes context.file information _ _ read hopen.path hanswer hmatches
          hread
        dsimp only at h
        split at h
        · cases h
        · next hwanted =>
          have hlength : read.length ≤ length := by
            rw [not_not.mp hwanted, wanted]
            exact Nat.min_le_left _ _
          have hsame : bytes = read := by
            split at h
            · obtain ⟨-, -, h⟩ := bind_eq_ok.mp h
              exact (Except.ok.inj h).symm
            · exact (Except.ok.inj h).symm
          rw [hsame]
          exact ⟨hlength, hread⟩

theorem active_of_context {started : StableFileSource}
    (h : source.context disk now = (started, .ok context)) : started.state = .active context := by
  rw [StableFileSource.context] at h
  split at h
  · next found hstate =>
    cases h
    exact hstate
  · cases h
  · split at h
    · cases h
    · split at h
      · cases h
        rfl
      · cases h

theorem readAt_unaltered (hreached : source.Reached)
    (hunaltered : disk.Unaltered source.snapshot content)
    (h : (source.readAt disk now offset length).2 = .ok bytes) :
    bytes.length ≤ length ∧ bytes = (content.drop offset.toNat).take bytes.length := by
  by_cases hlength : length = 0
  · rw [readAt, if_pos hlength] at h
    cases h
    exact ⟨Nat.zero_le _, rfl⟩
  · have hcounted : source.Evolves { source with readCalls := source.readCalls + 1 } :=
      ⟨rfl, rfl, id, .inr rfl, fun _ h => .inl h⟩
    rw [readAt, if_neg hlength] at h
    have hevolves := hcounted.trans (context_evolves disk now _)
    cases hcontext : context disk now { source with readCalls := source.readCalls + 1 } with
    | mk started result =>
      rw [hcontext] at h hevolves
      have hstarted := hreached.evolves hevolves
      cases result with
      | error error => cases h
      | ok context =>
        have hactive := active_of_context hcontext
        refine readContext_unaltered (hstarted.openOf hactive) ?_ h
        rw [hevolves.snapshot]
        exact hunaltered

end StableFileSource

theorem localSource_serves {snapshot : FileSnapshot} {content : List UInt8} {size : UInt64}
    {moments : Nat → ReadMoment} (h : ∀ attempt, (moments attempt).Of snapshot content) :
    (localSource size moments).Serves content := by
  intro attempt offset length read buffer hpos hread
  dsimp only [localSource] at hread
  split at hread
  · cases hread
  · next hoffset =>
    split at hread
    · cases hread
    · next bytes hbytes =>
      cases hread
      obtain ⟨hreached, hcaptured, hunaltered⟩ := h attempt
      rw [← hcaptured] at hunaltered
      obtain ⟨hlength, hcontent⟩ := StableFileSource.readAt_unaltered hreached hunaltered hbytes
      refine ⟨hlength, ?_⟩
      have hfilled : (filled length bytes).val.take bytes.length = bytes := by
        dsimp only [filled]
        rw [List.take_of_length_le hlength, List.take_left]
      rw [hfilled]
      rwa [UInt64.toNat_ofNat_of_lt' (Nat.not_le.mp hoffset)] at hcontent

end ClipFerry.Local
