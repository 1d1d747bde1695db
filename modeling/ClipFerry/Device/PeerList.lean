import ClipFerry.Device.TrustCalls

namespace ClipFerry.Device

open Checked Foundation Protocol Server VirtualTree

variable {digest : List UInt8 → Secret} {readDir : Directory → List Text}
  {directory directory' written : Directory} {names : List Text} {name : Text}
  {peers found : List TrustedPeer} {processId : UInt32} {draws : List UInt64}
  {peer recorded : TrustedPeer}

theorem mem_recordNames : name ∈ recordNames directory ↔
    directory.read name ≠ none ∧ extension name = some peerExtension := by
  rw [recordNames, List.mem_filter, decide_eq_true_eq, Volume.mem_keys]

theorem recordNames_nodup (directory : Directory) : (recordNames directory).Nodup :=
  (AList.keys_nodup directory.names).filter _

def Decodes (digest : List UInt8 → Secret) (directory : Directory) (name : Text) : Prop :=
  ∃ fingerprint peer, parseCompactFingerprint (fileStem name) = .ok fingerprint ∧
    decodePeerFile digest directory name fingerprint = .ok peer

structure Listable (digest : List UInt8 → Secret) (directory : Directory) : Prop where
  decodes : ∀ name ∈ recordNames directory, Decodes digest directory name
  bounded : (recordNames directory).length ≤ trustedPeerLimit

def recordsOf (names : List Text) : List Text :=
  names.filter fun name => extension name = some peerExtension

theorem recordsOf_record (hname : extension name = some peerExtension) :
    recordsOf (name :: names) = name :: recordsOf names :=
  List.filter_cons_of_pos (decide_eq_true hname)

theorem recordsOf_other (hname : extension name ≠ some peerExtension) :
    recordsOf (name :: names) = recordsOf names :=
  List.filter_cons_of_neg (mt of_decide_eq_true hname)

theorem collectPeers_record (hname : extension name = some peerExtension) :
    collectPeers digest directory (name :: names) peers = .ok found ↔
      ∃ fingerprint peer, parseCompactFingerprint (fileStem name) = .ok fingerprint ∧
        decodePeerFile digest directory name fingerprint = .ok peer ∧
        peers.length < trustedPeerLimit ∧
        collectPeers digest directory names (peers ++ [peer]) = .ok found := by
  have hroom (peer : TrustedPeer) : ¬trustedPeerLimit < (peers ++ [peer]).length ↔
      peers.length < trustedPeerLimit := by
    rw [List.length_append, List.length_singleton, Nat.not_lt, Nat.succ_le_iff]
  rw [collectPeers, if_neg (not_not.mpr hname)]
  simp only [bind_eq_ok, guard_eq_ok, hroom, exists_and_left]

theorem collectPeers_other (hname : extension name ≠ some peerExtension) :
    collectPeers digest directory (name :: names) peers =
      collectPeers digest directory names peers := by
  rw [collectPeers, if_pos hname]

theorem collectPeers_count (h : collectPeers digest directory names peers = .ok found) :
    found.length = peers.length + (recordsOf names).length := by
  induction names generalizing peers with
  | nil =>
    cases h
    rfl
  | cons name names ih =>
    by_cases hname : extension name = some peerExtension
    · obtain ⟨fingerprint, peer, -, -, -, hrest⟩ := (collectPeers_record hname).mp h
      have hcount := ih hrest
      rw [List.length_append, List.length_singleton] at hcount
      rw [recordsOf_record hname, List.length_cons, hcount]
      omega
    · rw [collectPeers_other hname] at h
      rw [recordsOf_other hname, ih h]

theorem collectPeers_iff (hpeers : peers.length ≤ trustedPeerLimit) :
    (∃ found, collectPeers digest directory names peers = .ok found) ↔
      (∀ name ∈ recordsOf names, Decodes digest directory name) ∧
        peers.length + (recordsOf names).length ≤ trustedPeerLimit := by
  induction names generalizing peers with
  | nil => exact iff_of_true ⟨peers, rfl⟩ ⟨nofun, hpeers⟩
  | cons name names ih =>
    by_cases hname : extension name = some peerExtension
    · rw [recordsOf_record hname, List.forall_mem_cons, List.length_cons]
      constructor
      · rintro ⟨found, hfound⟩
        obtain ⟨fingerprint, peer, hparse, hdecode, hroom, hrest⟩ :=
          (collectPeers_record hname).mp hfound
        have hnext : (peers ++ [peer]).length ≤ trustedPeerLimit := by
          rwa [List.length_append, List.length_singleton]
        obtain ⟨hall, hcount⟩ := (ih hnext).mp ⟨found, hrest⟩
        rw [List.length_append, List.length_singleton] at hcount
        exact ⟨⟨⟨fingerprint, peer, hparse, hdecode⟩, hall⟩, by omega⟩
      · rintro ⟨⟨⟨fingerprint, peer, hparse, hdecode⟩, hall⟩, hcount⟩
        have hnext : (peers ++ [peer]).length ≤ trustedPeerLimit := by
          rw [List.length_append, List.length_singleton]
          omega
        have hmore : (peers ++ [peer]).length + (recordsOf names).length ≤ trustedPeerLimit := by
          rw [List.length_append, List.length_singleton]
          omega
        obtain ⟨found, hfound⟩ := (ih hnext).mpr ⟨hall, hmore⟩
        exact ⟨found, (collectPeers_record hname).mpr
          ⟨fingerprint, peer, hparse, hdecode, by omega, hfound⟩⟩
    · rw [collectPeers_other hname, recordsOf_other hname]
      exact ih hpeers

theorem recordNames_perm (hreadDir : Lists readDir) (directory : Directory) :
    (recordsOf (readDir directory)).Perm (recordNames directory) :=
  (hreadDir directory).filter _

theorem listPeers_iff (hreadDir : Lists readDir) :
    (∃ peers, listPeers digest readDir (some directory) = .ok peers) ↔
      Listable digest directory := by
  have hperm := recordNames_perm hreadDir directory
  have hcollect := @collectPeers_iff digest directory (readDir directory) [] (Nat.zero_le _)
  rw [List.length_nil, Nat.zero_add, hperm.length_eq] at hcollect
  constructor
  · rintro ⟨peers, hpeers⟩
    obtain ⟨found, hfound, -⟩ := bind_eq_ok.mp hpeers
    obtain ⟨hall, hbounded⟩ := hcollect.mp ⟨found, hfound⟩
    exact ⟨fun name hname => hall name (hperm.mem_iff.mpr hname), hbounded⟩
  · rintro ⟨hall, hbounded⟩
    obtain ⟨found, hfound⟩ :=
      hcollect.mpr ⟨fun name hname => hall name (hperm.mem_iff.mp hname), hbounded⟩
    exact ⟨_, by rw [listPeers, hfound, ok_bind]⟩

theorem listPeers_count (hreadDir : Lists readDir)
    (h : listPeers digest readDir (some directory) = .ok peers) :
    peers.length = (recordNames directory).length := by
  obtain ⟨found, hfound, hsorted⟩ := bind_eq_ok.mp h
  cases hsorted
  rw [List.length_mergeSort, collectPeers_count hfound, List.length_nil, Nat.zero_add,
    (recordNames_perm hreadDir directory).length_eq]

structure Admits (digest : List UInt8 → Secret) (processId : UInt32) (draws : List UInt64)
    (directory : Directory) (fingerprint : CertificateFingerprint) : Prop where
  listable : Listable digest directory
  room : (recordNames directory).length < trustedPeerLimit
  publishable : Publishable (peerFile fingerprint) processId draws directory

theorem decodes_congr (h : directory'.read name = directory.read name)
    (hdecodes : Decodes digest directory name) : Decodes digest directory' name := by
  obtain ⟨fingerprint, peer, hparse, hdecode⟩ := hdecodes
  refine ⟨fingerprint, peer, hparse, ?_⟩
  rwa [decodePeerFile, readBounded, h, ← readBounded]

namespace Admits

theorem listable_written (h : Admits digest processId draws directory peer.fingerprint)
    (hvalid : ValidPeer digest peer)
    (hread : ∀ name, written.read name = if name = peerFile peer.fingerprint then
      some (trustRecord peer.certificate peer.label) else directory.read name) :
    Listable digest written where
  decodes := by
    intro name hname
    obtain ⟨hpresent, hextension⟩ := mem_recordNames.mp hname
    by_cases hsame : name = peerFile peer.fingerprint
    · subst hsame
      refine ⟨peer.fingerprint, peer, ?_, decodePeerFile_eq_ok hvalid (encodeTrustRecord_eq hvalid)
        ((hread _).trans (if_pos rfl))⟩
      rw [(peerFile_extension peer.fingerprint).2, parseCompactFingerprint_compactFingerprint]
    · have hkept := (hread name).trans (if_neg hsame)
      rw [hkept] at hpresent
      exact decodes_congr hkept (h.listable.decodes name (mem_recordNames.mpr ⟨hpresent, hextension⟩))
  bounded := by
    have hsubset : recordNames written ⊆ peerFile peer.fingerprint :: recordNames directory := by
      intro name hname
      obtain ⟨hpresent, hextension⟩ := mem_recordNames.mp hname
      by_cases hsame : name = peerFile peer.fingerprint
      · exact hsame ▸ List.mem_cons_self
      · rw [hread, if_neg hsame] at hpresent
        exact List.mem_cons_of_mem _ (mem_recordNames.mpr ⟨hpresent, hextension⟩)
    have hlength := ((recordNames_nodup written).subperm hsubset).length_le
    rw [List.length_cons] at hlength
    exact hlength.trans h.room

theorem records (h : Admits digest processId draws directory peer.fingerprint)
    (hreadDir : Lists readDir) (hvalid : ValidPeer digest peer) :
    ∃ written, recordPeer digest readDir processId draws directory peer = (written, .ok peer) ∧
      ∀ name, written.read name = if name = peerFile peer.fingerprint then
        some (trustRecord peer.certificate peer.label) else directory.read name := by
  obtain ⟨peers, hpeers⟩ := (listPeers_iff hreadDir).mpr h.listable
  have hroom : ¬trustedPeerLimit ≤ peers.length := by
    rw [listPeers_count hreadDir hpeers]
    exact Nat.not_le.mpr h.room
  have hwrites : ∃ written, writeNewAtomic (peerFile peer.fingerprint)
      (trustRecord peer.certificate peer.label) processId draws directory = (written, .ok ()) ∧ _ :=
    h.publishable.writes (peerFile_not_temporary peer.fingerprint)
  obtain ⟨written, hwritten, hread⟩ := hwrites
  obtain ⟨after, hafter⟩ := (listPeers_iff hreadDir).mpr (h.listable_written hvalid hread)
  refine ⟨written, ?_, hread⟩
  rw [recordPeer, hpeers]
  dsimp only
  rw [if_neg hroom, encodeTrustRecord_eq hvalid]
  dsimp only
  rw [hwritten]
  dsimp only
  rw [hafter]

theorem of_recordPeer (hreadDir : Lists readDir)
    (h : recordPeer digest readDir processId draws directory peer = (written, .ok recorded)) :
    Admits digest processId draws directory peer.fingerprint := by
  rw [recordPeer] at h
  split at h
  · cases h
  next peers hpeers =>
  split at h
  · cases h
  next hroom =>
  split at h
  · cases h
  next record hrecord =>
  split at h
  · cases h
  next linked hwrite =>
  rw [listPeers_count hreadDir hpeers] at hroom
  exact ⟨(listPeers_iff hreadDir).mp ⟨peers, hpeers⟩, Nat.not_le.mp hroom,
    publishable_of_writes (peerFile_not_temporary peer.fingerprint) hwrite⟩

end Admits

end ClipFerry.Device
