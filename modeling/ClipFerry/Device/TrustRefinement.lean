import ClipFerry.Device.IdentityLaw
import ClipFerry.Device.PeerList
import ClipFerry.Device.TrustMap

namespace ClipFerry.Device

open Checked Foundation Protocol Server Transition VirtualTree

inductive StoreStep (dpapi : Dpapi) (digest : List UInt8 → Secret) :
    DeviceStore → StoreOp × StoreResult → DeviceStore → Prop
  | trust {store store' : DeviceStore} {readDir : Directory → List Text} {processId : UInt32}
      {draws : List UInt64} {certificate : List UInt8} {expected : CertificateFingerprint}
      {label : Text} {result : Except IoError TrustedPeer} (hreadDir : Lists readDir)
      (hdraws : draws.length = 8)
      (h : store.trustPeer dpapi digest readDir processId draws certificate expected label =
        (store', result)) :
      StoreStep dpapi digest store (.trust certificate expected label, .peer result.toOption) store'
  | revoke {store store' : DeviceStore} {fingerprint : CertificateFingerprint}
      {result : Except IoError Unit} (h : store.revokePeer fingerprint = (store', result)) :
      StoreStep dpapi digest store (.revoke fingerprint, .unit result.toOption) store'
  | load {store : DeviceStore} (fingerprint : CertificateFingerprint) :
      StoreStep dpapi digest store
        (.load fingerprint, .peer (store.loadPeer digest fingerprint).toOption) store
  | list {store : DeviceStore} {readDir : Directory → List Text} (hreadDir : Lists readDir) :
      StoreStep dpapi digest store
        (.list, .peers (listPeers digest readDir store.trust).toOption) store

def MapStep {digest : List UInt8 → Secret} {own : Option CertificateFingerprint}
    (map : TrustMap digest own) (label : StoreOp × StoreResult) (map' : TrustMap digest own) :
    Prop :=
  map.apply label.1 = (label.2, map')

def ownFingerprint (dpapi : Dpapi) (digest : List UInt8 → Secret) (root : Directory) :
    Option CertificateFingerprint :=
  (loadIdentity dpapi digest root).toOption.map (·.fingerprint)

structure Holding {digest : List UInt8 → Secret} {own : Option CertificateFingerprint}
    (directory : Directory) (map : TrustMap digest own) : Prop where
  records : ∀ fingerprint, directory.read (peerFile fingerprint) =
    (map.entries.get fingerprint).map fun value => trustRecord value.1 value.2
  names : ∀ name, directory.read name ≠ none → ∃ fingerprint, name = peerFile fingerprint

variable {dpapi : Dpapi} {digest : List UInt8 → Secret} {own : Option CertificateFingerprint}
  {map map' : TrustMap digest own} {directory directory' : Directory} {store store' : DeviceStore}
  {readDir : Directory → List Text} {fingerprint : CertificateFingerprint} {peer : TrustedPeer}
  {peers : List TrustedPeer} {names : List Text} {certificate : List UInt8} {label : Text}

theorem validLabel_iff : ValidLabel label ↔ validateLabel label = .ok label := by
  rw [validateLabel_eq_ok]
  constructor
  · intro h
    exact ⟨h.trimmed, h.nonempty, h.short, h.printable⟩
  · rintro ⟨htrim, hnonempty, hshort, hprintable⟩
    exact ⟨htrim, hnonempty, hshort, hprintable⟩

theorem Trustable.validPeer (h : Trustable own ⟨digest certificate⟩ certificate label) :
    ValidPeer digest ⟨⟨digest certificate⟩, label, certificate⟩ where
  fingerprint := rfl
  certificate := validateCertificate_eq_ok.mpr ⟨h.nonempty, h.short⟩
  label := validLabel_iff.mp h.label

theorem TrustMap.mem_peers : peer ∈ map.peers ↔
    map.entries.get peer.fingerprint = some (peer.certificate, peer.label) := by
  rw [TrustMap.peers, List.mem_map, Table.get_eq_some]
  constructor
  · rintro ⟨⟨fingerprint, value⟩, hentry, rfl⟩
    exact hentry
  · intro hentry
    exact ⟨_, hentry, rfl⟩

theorem TrustMap.validPeer (h : peer ∈ map.peers) : ValidPeer digest peer := by
  obtain ⟨hkey, htrustable⟩ := map.keyed (mem_peers.mp h)
  obtain ⟨fingerprint, label, certificate⟩ := peer
  have hkey' : fingerprint = ⟨digest certificate⟩ := hkey
  subst hkey'
  exact htrustable.validPeer

theorem TrustMap.nodup_peers (map : TrustMap digest own) :
    (map.peers.map (·.fingerprint)).Nodup := by
  rw [TrustMap.peers, List.map_map]
  exact map.entries.nodupKeys

theorem Holding.read (h : Holding directory map) (hpeer : peer ∈ map.peers) :
    directory.read (peerFile peer.fingerprint) =
      some (trustRecord peer.certificate peer.label) := by
  rw [h.records, TrustMap.mem_peers.mp hpeer]
  rfl

theorem Holding.clean (h : Holding directory map) {name : Text} (hname : Temporary name) :
    directory.read name = none := by
  by_contra hpresent
  obtain ⟨fingerprint, rfl⟩ := h.names name hpresent
  exact peerFile_not_temporary fingerprint hname

theorem Holding.perm (h : Holding directory map) (hreadDir : Lists readDir) :
    (readDir directory).Perm (map.peers.map fun peer => peerFile peer.fingerprint) := by
  have hnodup : (map.peers.map fun peer => peerFile peer.fingerprint).Nodup := by
    have hmap := map.nodup_peers.map_on (f := peerFile) fun _ _ _ _ => peerFile_injective
    rwa [List.map_map] at hmap
  refine (hreadDir directory).trans ((List.perm_ext_iff_of_nodup (AList.keys_nodup _) hnodup).mpr
    fun name => ?_)
  rw [Volume.mem_keys, List.mem_map]
  constructor
  · intro hpresent
    obtain ⟨fingerprint, rfl⟩ := h.names name hpresent
    rw [h.records] at hpresent
    obtain ⟨value, hvalue⟩ := Option.ne_none_iff_exists'.mp (mt Option.map_eq_none_iff.mpr hpresent)
    exact ⟨⟨fingerprint, value.2, value.1⟩, TrustMap.mem_peers.mpr hvalue, rfl⟩
  · rintro ⟨peer, hpeer, rfl⟩
    rw [h.read hpeer]
    nofun

theorem collectPeers_eq_ok
    (hnames : ∀ name ∈ names, ∃ peer ∈ map.peers, peerFile peer.fingerprint = name ∧
      directory.read name = some (trustRecord peer.certificate peer.label))
    (hroom : peers.length + names.length ≤ trustedPeerLimit) :
    ∃ found, collectPeers digest directory names peers = .ok (peers ++ found) ∧
      found.map (fun peer => peerFile peer.fingerprint) = names ∧ ∀ peer ∈ found, peer ∈ map.peers := by
  induction names generalizing peers with
  | nil => exact ⟨[], by rw [collectPeers, List.append_nil], rfl, nofun⟩
  | cons name names ih =>
    obtain ⟨peer, hpeer, rfl, hread⟩ := hnames name List.mem_cons_self
    obtain ⟨hextension, hstem⟩ := peerFile_extension peer.fingerprint
    have hvalid := TrustMap.validPeer hpeer
    rw [List.length_cons] at hroom
    have hlength : (peers ++ [peer]).length = peers.length + 1 := by simp
    obtain ⟨found, hfound, hmap, hall⟩ := @ih (peers ++ [peer])
      (fun name hname => hnames name (List.mem_cons_of_mem _ hname)) (by omega)
    refine ⟨peer :: found, ?_, by rw [List.map_cons, hmap], ?_⟩
    · rw [collectPeers, if_neg (not_not.mpr hextension), hstem,
        parseCompactFingerprint_compactFingerprint, ok_bind,
        decodePeerFile_eq_ok hvalid (encodeTrustRecord_eq hvalid) hread, ok_bind,
        if_neg (by omega), hfound, List.append_assoc, List.singleton_append]
    · intro other hother
      rcases List.mem_cons.mp hother with rfl | hmem
      · exact hpeer
      · exact hall other hmem

theorem fingerprintLe_iff {a b : TrustedPeer} :
    fingerprintLe a b = true ↔ a.fingerprint.bytes.val ≤ b.fingerprint.bytes.val :=
  decide_eq_true_iff

theorem fingerprintLe_antisymm {a b : TrustedPeer} (hab : fingerprintLe a b = true)
    (hba : fingerprintLe b a = true) : a.fingerprint = b.fingerprint := by
  have hbytes : a.fingerprint.bytes = b.fingerprint.bytes :=
    Subtype.ext (List.le_antisymm (fingerprintLe_iff.mp hab) (fingerprintLe_iff.mp hba))
  exact congrArg CertificateFingerprint.mk hbytes

theorem fingerprintLe_trans (a b c : TrustedPeer) (hab : fingerprintLe a b = true)
    (hbc : fingerprintLe b c = true) : fingerprintLe a c = true :=
  fingerprintLe_iff.mpr (List.le_trans (fingerprintLe_iff.mp hab) (fingerprintLe_iff.mp hbc))

theorem fingerprintLe_total (a b : TrustedPeer) :
    (fingerprintLe a b || fingerprintLe b a) = true := by
  rw [Bool.or_eq_true, fingerprintLe_iff, fingerprintLe_iff]
  exact List.le_total _ _

theorem mergeSort_eq {found : List TrustedPeer} (hperm : found.Perm peers)
    (hnodup : (peers.map (·.fingerprint)).Nodup) :
    found.mergeSort fingerprintLe = peers.mergeSort fingerprintLe := by
  have hsorted (l : List TrustedPeer) :
      (l.mergeSort fingerprintLe).Pairwise fun a b => fingerprintLe a b = true :=
    List.pairwise_mergeSort fingerprintLe_trans fingerprintLe_total l
  refine List.Perm.eq_of_pairwise (fun a b ha hb hab hba => ?_) (hsorted _) (hsorted _)
    ((List.mergeSort_perm ..).trans (hperm.trans (List.mergeSort_perm ..).symm))
  have ha' := hperm.mem_iff.mp ((List.mergeSort_perm ..).mem_iff.mp ha)
  have hb' := (List.mergeSort_perm ..).mem_iff.mp hb
  exact List.inj_on_of_nodup_map hnodup ha' hb' (fingerprintLe_antisymm hab hba)

theorem Holding.collect (h : Holding directory map) (hreadDir : Lists readDir) :
    ∃ found, collectPeers digest directory (readDir directory) [] = .ok found ∧
      found.Perm map.peers := by
  have hperm := h.perm hreadDir
  have hlength : (readDir directory).length ≤ trustedPeerLimit := by
    rw [hperm.length_eq, List.length_map, TrustMap.peers, List.length_map]
    exact map.bounded
  obtain ⟨found, hfound, hmap, hall⟩ := @collectPeers_eq_ok digest own map directory []
    (readDir directory) (fun name hname => by
      obtain ⟨peer, hpeer, rfl⟩ := List.mem_map.mp (hperm.mem_iff.mp hname)
      exact ⟨peer, hpeer, rfl, h.read hpeer⟩) (by simpa using hlength)
  refine ⟨found, hfound, ?_⟩
  have hnames : (found.map fun peer => peerFile peer.fingerprint).Perm
      (map.peers.map fun peer => peerFile peer.fingerprint) := hmap ▸ hperm
  have hfoundNodup : found.Nodup := by
    have hnodup := (hreadDir directory).symm.nodup (AList.keys_nodup _)
    rw [← hmap] at hnodup
    exact hnodup.of_map _
  refine (List.perm_ext_iff_of_nodup hfoundNodup (map.nodup_peers.of_map _)).mpr fun peer =>
    ⟨hall peer, fun hpeer => ?_⟩
  obtain ⟨other, hother, hsame⟩ := List.mem_map.mp
    (hnames.mem_iff.mpr (List.mem_map_of_mem (f := fun peer => peerFile peer.fingerprint) hpeer))
  have hfingerprint := peerFile_injective hsame
  rwa [← List.inj_on_of_nodup_map map.nodup_peers (hall other hother) hpeer hfingerprint]

theorem Holding.listPeers (h : Holding directory map) (hreadDir : Lists readDir) :
    listPeers digest readDir (some directory) = .ok (map.peers.mergeSort fingerprintLe) := by
  obtain ⟨found, hfound, hperm⟩ := h.collect hreadDir
  rw [Device.listPeers, hfound, ok_bind, mergeSort_eq hperm map.nodup_peers]

theorem Holding.congr (h : Holding directory map)
    (hread : ∀ name, directory'.read name = directory.read name) : Holding directory' map where
  records := fun fingerprint => (hread _).trans (h.records fingerprint)
  names := fun name hpresent => h.names name (hread name ▸ hpresent)

theorem Holding.insert (h : Holding directory map)
    (htrustable : Trustable own ⟨digest certificate⟩ certificate label)
    (hroom : map.entries.len < trustedPeerLimit)
    (hread : ∀ name, directory'.read name = if name = peerFile ⟨digest certificate⟩ then
      some (trustRecord certificate label) else directory.read name) :
    Holding directory' (map.insert certificate label htrustable hroom) where
  records := by
    intro fingerprint
    rw [hread, TrustMap.insert, Table.get_insert]
    by_cases hsame : fingerprint = ⟨digest certificate⟩
    · rw [hsame, if_pos rfl, if_pos rfl]
      rfl
    · rw [if_neg hsame, if_neg (mt peerFile_injective hsame), h.records]
  names := by
    intro name hpresent
    rw [hread] at hpresent
    split at hpresent
    · next hsame => exact ⟨_, hsame⟩
    · exact h.names name hpresent

theorem Holding.erase (h : Holding directory map) (fingerprint : CertificateFingerprint) :
    Holding (directory.remove (peerFile fingerprint)) (map.erase fingerprint) where
  records := by
    intro other
    rw [Volume.read_remove]
    by_cases hsame : other = fingerprint
    · have hgone : (map.erase fingerprint).entries.get other = none := by
        rw [Option.eq_none_iff_forall_ne_some]
        intro value hvalue
        exact absurd hsame (of_decide_eq_true (Table.get_retain.mp hvalue).2)
      rw [hgone, hsame, if_pos rfl]
      rfl
    · have hkept : (map.erase fingerprint).entries.get other = map.entries.get other := by
        apply Option.ext
        intro value
        rw [TrustMap.erase, Table.get_retain, and_iff_left (decide_eq_true hsame)]
      rw [hkept, if_neg (mt peerFile_injective hsame), h.records]
  names := by
    intro name hpresent
    rw [Volume.read_remove] at hpresent
    split at hpresent
    · exact absurd rfl hpresent
    · exact h.names name hpresent

theorem Holding.empty : Holding Volume.empty (TrustMap.empty : TrustMap digest own) where
  records := fun _ => rfl
  names := fun _ h => absurd rfl h

theorem checkPeer_eq_ok {identity : Except IoError TlsIdentity}
    {expected : CertificateFingerprint} :
    checkPeer digest identity certificate expected label = .ok peer ↔
      Trustable (identity.toOption.map (·.fingerprint)) ⟨digest certificate⟩ certificate
          (trim label) ∧ ⟨digest certificate⟩ = expected ∧
        ⟨⟨digest certificate⟩, trim label, certificate⟩ = peer := by
  cases identity with
  | error error =>
    constructor
    · nofun
    · rintro ⟨htrustable, -⟩
      exact absurd rfl htrustable.identity
  | ok identity =>
    have hown : ((Except.ok identity : Except IoError TlsIdentity).toOption.map (·.fingerprint)) =
        some identity.fingerprint := rfl
    rw [checkPeer, ok_bind, bind_eq_ok, hown]
    dsimp only
    simp only [guard_eq_ok, bind_eq_ok, Except.ok.injEq, not_not]
    constructor
    · rintro ⟨⟨⟩, hcertificate, hexpected, hother, text, hlabel, rfl⟩
      obtain ⟨rfl, -⟩ := validateLabel_eq_ok.mp hlabel
      obtain ⟨hnonempty, hshort⟩ := validateCertificate_eq_ok.mp hcertificate
      exact ⟨⟨nofun, fun hsame => hother (Option.some.inj hsame).symm, hnonempty, hshort,
        validLabel_iff.mpr (validateLabel_validateLabel hlabel)⟩, hexpected, rfl⟩
    · rintro ⟨htrustable, hexpected, rfl⟩
      have hlabel := htrustable.label
      exact ⟨(), validateCertificate_eq_ok.mpr ⟨htrustable.nonempty, htrustable.short⟩, hexpected,
        fun hsame => htrustable.other (congrArg some hsame.symm), trim label,
        validateLabel_eq_ok.mpr ⟨rfl, hlabel.nonempty, hlabel.short, hlabel.printable⟩, rfl⟩

theorem Holding.recordPeer_full {processId : UInt32} {draws : List UInt64}
    (h : Holding directory map)
    (hreadDir : Lists readDir) (hfull : ¬map.entries.len < trustedPeerLimit) :
    recordPeer digest readDir processId draws directory peer = (directory, .error registryFull) := by
  have hlength : (map.peers.mergeSort fingerprintLe).length = map.entries.len := by
    rw [List.length_mergeSort, TrustMap.peers, List.length_map, Table.len]
  rw [recordPeer, h.listPeers hreadDir]
  dsimp only
  rw [hlength, if_pos (Nat.not_lt.mp hfull)]

theorem Holding.admits (h : Holding directory map) (processId : UInt32) {draws : List UInt64}
    (hdraws : draws ≠ []) (hroom : map.entries.len < trustedPeerLimit)
    (hfree : map.entries.get fingerprint = none) :
    Admits digest processId draws directory fingerprint := by
  have hreadDir : Lists fun directory => directory.names.keys := fun _ => .rfl
  have hlist := h.listPeers hreadDir
  obtain ⟨random, draws, rfl⟩ := List.exists_cons_of_ne_nil hdraws
  refine ⟨(listPeers_iff hreadDir).mp ⟨_, hlist⟩, ?_, ?_, random, List.mem_cons_self,
    h.clean (temporaryName_temporary _ _ _)⟩
  · rwa [← listPeers_count hreadDir hlist, List.length_mergeSort, TrustMap.peers, List.length_map]
  · rw [h.records, hfree]
    rfl

theorem Holding.recordPeer (h : Holding directory map) (processId : UInt32) {draws : List UInt64}
    (hreadDir : Lists readDir) (hdraws : draws ≠ [])
    (htrustable : Trustable own ⟨digest certificate⟩ certificate label)
    (hroom : map.entries.len < trustedPeerLimit) :
    if map.entries.get ⟨digest certificate⟩ = none then
      ∃ written, Device.recordPeer digest readDir processId draws directory
          ⟨⟨digest certificate⟩, label, certificate⟩ =
        (written, .ok ⟨⟨digest certificate⟩, label, certificate⟩) ∧
          Holding written (map.insert certificate label htrustable hroom)
    else
      ∃ written, Device.recordPeer digest readDir processId draws directory
          ⟨⟨digest certificate⟩, label, certificate⟩ = (written, .error alreadyExists) ∧
        Holding written map := by
  have hlength : (map.peers.mergeSort fingerprintLe).length = map.entries.len := by
    rw [List.length_mergeSort, TrustMap.peers, List.length_map, Table.len]
  have hname := peerFile_not_temporary ⟨digest certificate⟩
  split
  · next hfree =>
    obtain ⟨written, hrecord, hread⟩ :=
      (h.admits processId hdraws hroom hfree).records hreadDir htrustable.validPeer
    exact ⟨written, hrecord, h.insert htrustable hroom hread⟩
  · next hoccupied =>
    have hwrite : ∃ written, writeNewAtomic (peerFile ⟨digest certificate⟩)
        (trustRecord certificate label) processId draws directory =
          (written, .error alreadyExists) ∧ _ :=
      writeNewAtomic_occupied processId hdraws hname (fun _ => h.clean)
        (by rw [h.records]; exact mt Option.map_eq_none_iff.mp hoccupied)
    obtain ⟨written, hwritten, hread⟩ := hwrite
    refine ⟨written, ?_, h.congr hread⟩
    rw [Device.recordPeer, h.listPeers hreadDir]
    dsimp only
    rw [hlength, if_neg (Nat.not_le.mpr hroom), encodeTrustRecord_eq htrustable.validPeer]
    dsimp only
    rw [hwritten]

structure Represents (dpapi : Dpapi) (store : DeviceStore) (map : TrustMap digest own) : Prop where
  own : ownFingerprint dpapi digest store.root = own
  holding : Holding (store.trust.getD .empty) map

namespace Represents

theorem trustPeer (h : Represents dpapi store map) {processId : UInt32} {draws : List UInt64}
    {expected : CertificateFingerprint} {result : Except IoError TrustedPeer}
    (hreadDir : Lists readDir) (hdraws : draws.length = 8)
    (hstep : store.trustPeer dpapi digest readDir processId draws certificate expected label =
      (store', result)) :
    ∃ map', map.trust certificate expected label = (result.toOption, map') ∧
      Represents dpapi store' map' := by
  have hown : (loadIdentity dpapi digest store.root).toOption.map (·.fingerprint) = own := h.own
  have hnonempty : draws ≠ [] := by
    rintro rfl
    cases hdraws
  rw [DeviceStore.trustPeer] at hstep
  rw [TrustMap.trust]
  split at hstep
  · next error hcheck =>
    cases hstep
    refine ⟨map, dif_neg fun hadmitted => ?_, h⟩
    obtain ⟨htrustable, hexpected, -⟩ := hadmitted
    rw [checkPeer_eq_ok.mpr ⟨hown.symm ▸ htrustable, hexpected, rfl⟩] at hcheck
    cases hcheck
  · next peer hcheck =>
    obtain ⟨htrustable, hexpected, rfl⟩ := checkPeer_eq_ok.mp hcheck
    rw [hown] at htrustable
    by_cases hroom : map.entries.len < trustedPeerLimit
    · have hrecord := h.holding.recordPeer processId hreadDir hnonempty htrustable hroom
      split at hrecord
      · next hfree =>
        obtain ⟨written, hwritten, hholding⟩ := hrecord
        rw [hwritten] at hstep
        cases hstep
        exact ⟨_, dif_pos ⟨htrustable, hexpected, hfree, hroom⟩, h.own, hholding⟩
      · next hoccupied =>
        obtain ⟨written, hwritten, hholding⟩ := hrecord
        rw [hwritten] at hstep
        cases hstep
        exact ⟨map, dif_neg fun hadmitted => hoccupied hadmitted.2.2.1, h.own, hholding⟩
    · rw [h.holding.recordPeer_full hreadDir hroom] at hstep
      cases hstep
      exact ⟨map, dif_neg fun hadmitted => hroom hadmitted.2.2.2, h.own, h.holding⟩

theorem revokePeer (h : Represents dpapi store map) {result : Except IoError Unit}
    (hstep : store.revokePeer fingerprint = (store', result)) :
    ∃ map', map.apply (.revoke fingerprint) = (.unit result.toOption, map') ∧
      Represents dpapi store' map' := by
  have hrecord := h.holding.records fingerprint
  rw [DeviceStore.revokePeer] at hstep
  rw [TrustMap.apply]
  split at hstep
  · next hnone =>
    cases hstep
    rw [hnone] at hrecord
    have habsent : map.entries.get fingerprint = none := Option.map_eq_none_iff.mp hrecord.symm
    exact ⟨map, if_pos habsent, h⟩
  · next directory hsome =>
    rw [hsome, Option.getD_some] at hrecord
    split at hstep
    · next hfree =>
      cases hstep
      rw [Volume.read_eq_none.mpr hfree] at hrecord
      exact ⟨map, if_pos (Option.map_eq_none_iff.mp hrecord.symm), h⟩
    · next hfound =>
      cases hstep
      have hpresent : map.entries.get fingerprint ≠ none := by
        intro habsent
        rw [habsent] at hrecord
        exact hfound (Volume.read_eq_none.mp hrecord)
      refine ⟨map.erase fingerprint, if_neg hpresent, h.own, ?_⟩
      have hholding := h.holding.erase fingerprint
      rwa [hsome] at hholding

theorem loadPeer (h : Represents dpapi store map) :
    map.load fingerprint = (store.loadPeer digest fingerprint).toOption := by
  have hrecord := h.holding.records fingerprint
  rw [TrustMap.load, DeviceStore.loadPeer]
  cases hget : map.entries.get fingerprint with
  | none =>
    rw [hget] at hrecord
    split
    · rfl
    · next directory hsome =>
      rw [hsome, Option.getD_some] at hrecord
      rw [decodePeerFile, readBounded, hrecord]
      rfl
  | some value =>
    rw [hget] at hrecord
    have hpeer : ⟨fingerprint, value.2, value.1⟩ ∈ map.peers := TrustMap.mem_peers.mpr hget
    have hvalid := TrustMap.validPeer hpeer
    split
    · next hnone =>
      rw [hnone] at hrecord
      cases hrecord
    · next directory hsome =>
      rw [hsome, Option.getD_some] at hrecord
      rw [decodePeerFile_eq_ok hvalid (encodeTrustRecord_eq hvalid) hrecord]
      rfl

theorem listPeers (h : Represents dpapi store map) (hreadDir : Lists readDir) :
    (listPeers digest readDir store.trust).toOption = some (map.peers.mergeSort fingerprintLe) := by
  cases htrust : store.trust with
  | some directory =>
    have hholding := h.holding
    rw [htrust] at hholding
    rw [Option.getD_some] at hholding
    rw [hholding.listPeers hreadDir]
    rfl
  | none =>
    have hempty : map.peers = [] := by
      rw [List.eq_nil_iff_forall_not_mem]
      intro peer hpeer
      have hread := h.holding.read hpeer
      rw [htrust] at hread
      cases hread
    rw [hempty, List.mergeSort_nil]
    rfl

theorem step (h : Represents dpapi store map) {label : StoreOp × StoreResult}
    (hstep : StoreStep dpapi digest store label store') :
    ∃ map', MapStep map label map' ∧ Represents dpapi store' map' := by
  cases hstep with
  | trust hreadDir hdraws hstep =>
    obtain ⟨map', hmap, hrepresents⟩ := h.trustPeer hreadDir hdraws hstep
    refine ⟨map', ?_, hrepresents⟩
    rw [MapStep, TrustMap.apply, hmap]
  | revoke hstep => exact h.revokePeer hstep
  | load fingerprint => exact ⟨map, by rw [MapStep, TrustMap.apply, h.loadPeer], h⟩
  | list hreadDir => exact ⟨map, by rw [MapStep, TrustMap.apply, h.listPeers hreadDir], h⟩

end Represents

theorem trust_store_refines_map {root : Directory} {labels : List (StoreOp × StoreResult)}
    (hrun : Run (StoreStep dpapi digest) ⟨root, none⟩ labels store) :
    ∃ map : TrustMap digest (ownFingerprint dpapi digest root),
      Run MapStep TrustMap.empty labels map ∧
        Holding (store.trust.getD .empty) map ∧
        (∀ peer ∈ map.peers, ∃ record, encodeTrustRecord peer = .ok record ∧
          decodePeer digest record peer.fingerprint = .ok peer ∧
          parseCompactFingerprint (compactFingerprint peer.fingerprint) = .ok peer.fingerprint) ∧
        ∀ filename processId random,
          extension (temporaryName filename processId random) ≠ some peerExtension := by
  have hstart : Represents dpapi ⟨root, none⟩
      (TrustMap.empty : TrustMap digest (ownFingerprint dpapi digest root)) := ⟨rfl, .empty⟩
  have hstep {s t : DeviceStore} {a : StoreOp × StoreResult}
      {map : TrustMap digest (ownFingerprint dpapi digest root)} (h : Represents dpapi s map)
      (hstep : StoreStep dpapi digest s a t) :
      ∃ map', MapStep map a map' ∧ Represents dpapi t map' := h.step hstep
  obtain ⟨map, hmap, hrepresents⟩ := hrun.forward hstep hstart
  refine ⟨map, hmap, hrepresents.holding, fun peer hpeer => ?_, temporaryName_extension⟩
  have hvalid := TrustMap.validPeer hpeer
  have hrecord := encodeTrustRecord_eq hvalid
  exact ⟨_, hrecord, decodePeer_encodeTrustRecord hvalid hrecord,
    parseCompactFingerprint_compactFingerprint _⟩

def headDigest (certificate : List UInt8) : Secret := repeatedSecret (certificate.headD 0)

def savedIdentity : Directory :=
  createWritten identityFile (dpapiEntropy ++ (identityMagic ++ [1, 0, 0, 0, 1, 0, 0, 0, 5, 6]))
    Volume.empty

theorem trust_store_refines_map_twice :
    ∃ (store : DeviceStore) (first second : StoreResult),
      Run (StoreStep prefixDpapi headDigest) ⟨savedIdentity, none⟩
          [(.trust [7] ⟨repeatedSecret 7⟩ [' ', 'a'], first),
            (.trust [7] ⟨repeatedSecret 7⟩ ['b'], second)] store ∧
        first = .peer (some ⟨⟨repeatedSecret 7⟩, ['a'], [7]⟩) := by
  have hreadDir : Lists fun directory => directory.names.keys := fun _ => .rfl
  have hdraws : (List.replicate 8 (3 : UInt64)).length = 8 := List.length_replicate
  have hfirst : StoreStep prefixDpapi headDigest ⟨savedIdentity, none⟩
      (.trust [7] ⟨repeatedSecret 7⟩ [' ', 'a'], _) _ :=
    @StoreStep.trust _ _ _ _ _ 1 _ _ _ _ _ hreadDir hdraws Prod.mk.eta.symm
  have hrun := (Run.single hfirst).snoc (a := (.trust [7] ⟨repeatedSecret 7⟩ ['b'], _))
    (@StoreStep.trust _ _ _ _ _ 1 _ _ _ _ _ hreadDir hdraws Prod.mk.eta.symm)
  refine ⟨_, _, _, hrun, ?_⟩
  obtain ⟨map, hmap, -⟩ := trust_store_refines_map hrun
  obtain ⟨next, hnext, -⟩ := hmap.uncons
  have hown : ownFingerprint prefixDpapi headDigest savedIdentity = some ⟨repeatedSecret 5⟩ := by
    decide
  have htrustable : Trustable (ownFingerprint prefixDpapi headDigest savedIdentity)
      ⟨repeatedSecret 7⟩ [7] ['a'] := by
    rw [hown]
    decide
  have hadmitted : (TrustMap.trust (TrustMap.empty : TrustMap headDigest
      (ownFingerprint prefixDpapi headDigest savedIdentity)) [7] ⟨repeatedSecret 7⟩ [' ', 'a']).1 =
        some ⟨⟨repeatedSecret 7⟩, ['a'], [7]⟩ := by
    rw [TrustMap.trust, dif_pos ⟨htrustable, rfl, rfl, by decide⟩]
    rfl
  exact (congrArg Prod.fst hnext).symm.trans (congrArg StoreResult.peer hadmitted)

end ClipFerry.Device
