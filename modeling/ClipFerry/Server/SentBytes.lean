import ClipFerry.Server.Ledger

namespace ClipFerry.Server

open Foundation Intervals Protocol Transition WordSum

namespace Book

def Admits (entries : List OfferManifestEntry) (book : Book) : Update → Prop
  | .serve i offset read =>
    (¬book.Complete entries → ∀ session, book.shared.sessions[i]? = some session →
      ∀ j ∈ book.remembered, j ≠ i →
        Disjoint (session.noted offset read) (book.ledger.counted j)) ∧
    (book.Complete entries →
      Tally.total (book.enter (.serve i offset read)).counted book.remembered < 2 ^ 64)
  | .prune now => book.Complete entries → offerBytes entries ⊆
      Tally.union book.ledger.counted (book.remembered.filter (book.shared.expiresAfter now))
  | .create _ session => book.shared.transfers.get session.transferId = none
  | .cancel i | .control i _ .cancel => book.Complete entries → book.shared.isActive i = false
  | _ => True

def AdmitsAll (entries : List OfferManifestEntry) : Book → List Update → Prop
  | _, [] => True
  | book, u :: us => book.Admits entries u ∧ AdmitsAll entries (book.run u) us

structure Sound (entries : List OfferManifestEntry) (book : Book) : Prop
    extends Tallied entries book where
  known : ∀ i ∈ book.remembered, i < book.shared.sessions.length
  nodup : book.remembered.Nodup
  apart : book.Complete entries ∨ Tally.Apart book.ledger.counted book.remembered
  fits : Tally.total book.ledger.counted book.remembered < 2 ^ 64

variable {entries : List OfferManifestEntry} {book : Book} {u : Update} {us : List Update}
  {i offset read now : Nat} {nonce : Secret} {session : TransferSession}

theorem Tallied.total_le (h : Tallied entries book)
    (hapart : Tally.Apart book.ledger.counted book.remembered) (hnodup : book.remembered.Nodup) :
    Tally.total book.ledger.counted book.remembered ≤ book.ledger.served.card := by
  rw [hapart.total_eq hnodup]
  exact Finset.card_le_card (Tally.union_subset.mpr fun i _ => h.served i)

theorem Complete.served (h : book.Complete entries) (htallied : Tallied entries book) :
    offerBytes entries ⊆ book.ledger.served :=
  h.trans (Tally.union_subset.mpr fun i _ => htallied.served i)

theorem Complete.grows {book' : Book} (h : book.Complete entries)
    (hremembered : book'.remembered = book.remembered)
    (hcounted : ∀ i, book.ledger.counted i ⊆ book'.ledger.counted i) :
    book'.Complete entries := by
  rw [Complete, hremembered]
  exact h.trans (Tally.union_mono fun i _ => hcounted i)

theorem remembered_prune : (book.run (.prune now)).remembered =
    book.remembered.filter (book.shared.expiresAfter now) := by
  rw [remembered, remembered, Table.values, Table.values, List.filter_map]
  rfl

theorem remembered_create (h : book.shared.transfers.get session.transferId = none) :
    (book.run (.create nonce session)).remembered =
      book.shared.sessions.length :: book.remembered := by
  have hnew : session.transferId ∉ book.shared.transfers.keys :=
    fun hmem => AList.lookup_eq_none.mp h hmem
  have herase : book.shared.transfers.entries.kerase session.transferId =
      book.shared.transfers.entries := List.kerase_of_notMem_keys hnew
  change ((⟨session.transferId, book.shared.sessions.length⟩ : Sigma _) ::
    book.shared.transfers.entries.kerase session.transferId).map (·.2) = _
  rw [herase]
  rfl

theorem remembered_other (h : u.keepsTables = true) : (book.run u).remembered = book.remembered :=
  congrArg Table.values (Shared.run_tables book.shared h).1

theorem Sound.serve (h : Sound entries book) (hwithin : Within entries book.shared (.serve i offset read))
    (hadmits : book.Admits entries (.serve i offset read))
    (hfits : (offerBytes entries).card < 2 ^ 64) :
    Sound entries (book.run (.serve i offset read)) := by
  have htallied := h.toTallied.serve hwithin
  have hremembered : (book.run (.serve i offset read)).remembered = book.remembered :=
    remembered_other rfl
  obtain ⟨hdisjoint, hsmall⟩ := hadmits
  have hnodup := hremembered ▸ h.nodup
  have hknown : ∀ j ∈ (book.run (.serve i offset read)).remembered,
      j < (book.run (.serve i offset read)).shared.sessions.length := by
    intro j hj
    rw [hremembered] at hj
    exact (h.known j hj).trans_eq (Shared.length_run rfl).symm
  by_cases hcomplete : book.Complete entries
  · refine ⟨htallied, hknown, hnodup, .inl ?_, ?_⟩
    · exact hcomplete.grows hremembered (book.counted_grows _)
    · rw [hremembered]
      exact hsmall hcomplete
  · have hapart : Tally.Apart (book.run (.serve i offset read)).ledger.counted
        (book.run (.serve i offset read)).remembered := by
      rw [hremembered]
      have hbefore := h.apart.resolve_left hcomplete
      obtain ⟨session, hsession, -⟩ := hwithin
      rw [run, enter_serve hsession]
      exact hbefore.add (hdisjoint hcomplete session hsession)
    refine ⟨htallied, hknown, hnodup, .inr hapart, ?_⟩
    have hle := htallied.total_le hapart hnodup
    exact (hle.trans (Finset.card_le_card htallied.offered)).trans_lt hfits

theorem Sound.prune (h : Sound entries book) (hadmits : book.Admits entries (.prune now)) :
    Sound entries (book.run (.prune now)) := by
  have hfew : (book.run (.prune now)).remembered.Sublist book.remembered := by
    rw [remembered_prune]
    exact List.filter_sublist
  refine ⟨h.toTallied.other rfl, fun i hi => h.known i (hfew.subset hi), h.nodup.sublist hfew, ?_,
    (Tally.total_sublist hfew).trans_lt h.fits⟩
  by_cases hcomplete : book.Complete entries
  · refine .inl ?_
    rw [Complete, remembered_prune]
    exact hadmits hcomplete
  · exact .inr ((h.apart.resolve_left hcomplete).subset hfew.subset)

theorem Sound.create (h : Sound entries book)
    (hadmits : book.Admits entries (.create nonce session)) :
    Sound entries (book.run (.create nonce session)) := by
  have hremembered : (book.run (.create nonce session)).remembered =
      book.shared.sessions.length :: book.remembered := remembered_create hadmits
  have hempty : book.ledger.counted book.shared.sessions.length = ∅ :=
    h.fresh (List.getElem?_eq_none (Nat.le_refl _))
  have hlength : (book.run (.create nonce session)).shared.sessions.length =
      book.shared.sessions.length + 1 := List.length_append
  refine ⟨h.toTallied.other rfl, ?_, ?_, ?_, ?_⟩
  · intro i hi
    rw [hremembered] at hi
    rw [hlength]
    rcases List.mem_cons.mp hi with rfl | hi
    · exact Nat.lt_succ_self _
    · exact Nat.lt_succ_of_lt (h.known i hi)
  · rw [hremembered, List.nodup_cons]
    exact ⟨fun hmem => Nat.lt_irrefl _ (h.known _ hmem), h.nodup⟩
  · rcases h.apart with hcomplete | hapart
    · refine .inl (hcomplete.trans ?_)
      rw [hremembered]
      exact Finset.subset_union_right
    · refine .inr ?_
      rw [hremembered]
      exact hapart.cons_empty hempty
  · have hledger : (book.run (.create nonce session)).ledger = book.ledger := rfl
    rw [hremembered, hledger, Tally.total_cons, hempty, Finset.card_empty, Nat.zero_add]
    exact h.fits

theorem Sound.other (h : Sound entries book) (hu : u.keepsTables = true)
    (hserve : u.isServe = false) : Sound entries (book.run u) := by
  have hremembered : (book.run u).remembered = book.remembered := remembered_other hu
  have hledger : (book.run u).ledger = book.ledger := enter_other hserve
  refine ⟨h.toTallied.other hserve, ?_, hremembered ▸ h.nodup, ?_, ?_⟩
  · intro i hi
    rw [hremembered] at hi
    exact (h.known i hi).trans_eq (Shared.length_run hu).symm
  · rw [Complete, hremembered, hledger]
    exact h.apart
  · rw [hremembered, hledger]
    exact h.fits

theorem Sound.run (h : Sound entries book) (hwithin : Within entries book.shared u)
    (hadmits : book.Admits entries u) (hfits : (offerBytes entries).card < 2 ^ 64) :
    Sound entries (book.run u) := by
  cases u with
  | serve i offset read => exact h.serve hwithin hadmits hfits
  | prune now => exact h.prune hadmits
  | create nonce session => exact h.create hadmits
  | deny | replay | beginRead | control i sequence opcode | cancel i => exact h.other rfl rfl

theorem Complete.run (h : book.Complete entries) (hadmits : book.Admits entries u) :
    (book.run u).Complete entries ∧
      (book.run u).shared.metrics.cancelledTransfers = book.shared.metrics.cancelledTransfers := by
  cases u with
  | serve i offset read => exact ⟨h.grows (remembered_other rfl) (book.counted_grows _), rfl⟩
  | prune now =>
    refine ⟨?_, rfl⟩
    rw [Complete, remembered_prune]
    exact hadmits h
  | create nonce session =>
    refine ⟨?_, rfl⟩
    rw [Complete, remembered_create hadmits]
    exact h.trans Finset.subset_union_right
  | control i sequence opcode =>
    refine ⟨h.grows (remembered_other rfl) (book.counted_grows _), ?_⟩
    cases opcode with
    | cancel =>
      have hinactive : book.shared.isActive i = false := hadmits h
      rw [Book.run, Shared.run, hinactive]
      rfl
    | _ => rfl
  | cancel i =>
    have hinactive : book.shared.isActive i = false := hadmits h
    refine ⟨h.grows (remembered_other rfl) (book.counted_grows _), ?_⟩
    rw [Book.run, Shared.run, hinactive]
    rfl
  | deny | replay | beginRead =>
    exact ⟨h.grows (remembered_other rfl) (book.counted_grows _), rfl⟩

theorem Complete.foldl (h : book.Complete entries) (hadmits : AdmitsAll entries book us) :
    (us.foldl Book.run book).Complete entries ∧
      (us.foldl Book.run book).shared.metrics.cancelledTransfers =
        book.shared.metrics.cancelledTransfers := by
  induction us generalizing book with
  | nil => exact ⟨h, rfl⟩
  | cons u us ih =>
    obtain ⟨hcomplete, hcancelled⟩ := h.run hadmits.1
    obtain ⟨hlast, hsame⟩ := ih hcomplete hadmits.2
    exact ⟨hlast, hsame.trans hcancelled⟩

theorem Sound.foldl (h : Sound entries book) (hwithin : ∀ u ∈ us, Within entries book.shared u)
    (hadmits : AdmitsAll entries book us) (hfits : (offerBytes entries).card < 2 ^ 64) :
    Sound entries (us.foldl Book.run book) := by
  induction us generalizing book with
  | nil => exact h
  | cons u us ih =>
    have hnext := h.run (hwithin u List.mem_cons_self) hadmits.1 hfits
    exact ih hnext (fun v hv => (hwithin v (List.mem_cons_of_mem _ hv)).run u) hadmits.2

theorem foldl_shared (book : Book) (us : List Update) :
    (us.foldl Book.run book).shared = us.foldl Shared.run book.shared := by
  induction us generalizing book with
  | nil => rfl
  | cons u us ih => exact ih (book.run u)

theorem foldl_counted (book : Book) (us : List Update) (i : Nat) :
    book.ledger.counted i ⊆ (us.foldl Book.run book).ledger.counted i := by
  induction us generalizing book with
  | nil => rfl
  | cons u us ih => exact (book.counted_grows u i).trans (ih (book.run u))

theorem foldl_served (book : Book) (us : List Update) :
    book.ledger.served ⊆ (us.foldl Book.run book).ledger.served := by
  induction us generalizing book with
  | nil => rfl
  | cons u us ih => exact (book.served_grows u).trans (ih (book.run u))

theorem foldl_remembered (h : ∀ u ∈ us, u.keepsTables = true) :
    (us.foldl Book.run book).remembered = book.remembered := by
  induction us generalizing book with
  | nil => rfl
  | cons u us ih =>
    have hfirst : (book.run u).remembered = book.remembered :=
      remembered_other (h u List.mem_cons_self)
    exact (ih fun v hv => h v (List.mem_cons_of_mem _ hv)).trans hfirst

theorem empty_sound : Sound entries empty where
  counts := nofun
  fresh := fun _ => rfl
  served := fun _ => Finset.empty_subset _
  offered := Finset.empty_subset _
  known := nofun
  nodup := .nil
  apart := .inr nofun
  fits := by decide

end Book

variable {server : ServerState} {w w' : World} {l : Label} {ls : List Label}

theorem ReadBy.within {credentials : TransferCredentials} {peer : CertificateFingerprint}
    {offset requested read : Nat} {bytes : List UInt8}
    (h : ReadBy server (.readRange peer credentials offset requested) read bytes)
    (hbounded : server.SourcesBounded) :
    fileRange credentials.fileId offset (offset + read) ⊆
      offerBytes server.offered.storedManifest.entries := by
  obtain ⟨peer, credentials, offset, requested, source, entry, hrequest, hsource, hentry, attempt,
    buffer, hread, -⟩ := h
  cases hrequest
  have hle := hbounded _ _ hsource attempt offset _ read buffer hread
  intro byte hbyte
  obtain ⟨hfile, hstart, hstop⟩ := mem_fileRange.mp hbyte
  have hid : entry.fileId = credentials.fileId := by simpa using List.find?_some hentry
  exact mem_offerBytes.mpr ⟨entry, List.mem_of_find?_eq_some hentry, hid.trans hfile.symm,
    by omega⟩

theorem Step.serve_read {now : Nat} {trusted : CertificateFingerprint → Bool}
    (hrun : Run (Step server) (World.start now trusted) ls w) (h : Step server w l w')
    {i offset read : Nat} (hu : .serve i offset read ∈ l.updates) :
    ∃ session peer credentials requested bytes, w.shared.sessions[i]? = some session ∧
      session.fileId = credentials.fileId ∧
      ReadBy server (.readRange peer credentials offset requested) read bytes := by
  cases h with
  | clock | trust | invoke => cases hu
  | cleanup => cases List.mem_singleton.mp hu
  | @turn k call us next hcall hturn =>
    obtain ⟨request, pc⟩ := call
    have hu : .serve i offset read ∈ us := hu
    cases hturn.effect with
    | none => cases hu
    | deny | replay | beginRead | prune | create | control | revoke | refuse =>
      cases List.mem_singleton.mp hu
    | pruneReplay => rcases List.mem_pair.mp hu with hu | hu <;> cases hu
    | @serve peer credentials offset requested i read bytes session hrequest hpc hsession hallowed
        hlive hstate hnext =>
      have hrequest : request = .readRange peer credentials offset requested := hrequest
      have hpc : pc = .finish i read bytes := hpc
      subst hrequest hpc
      obtain ⟨hgranted, hread⟩ := traced_of_run hrun hcall rfl
      cases List.mem_singleton.mp hu
      exact ⟨session, peer, credentials, requested, bytes, hsession, (hgranted.session hsession).2,
        hread⟩

theorem Step.within {now : Nat} {trusted : CertificateFingerprint → Bool}
    (hbounded : server.SourcesBounded) (hrun : Run (Step server) (World.start now trusted) ls w)
    (h : Step server w l w') {u : Update} (hu : u ∈ l.updates) :
    Book.Within server.offered.storedManifest.entries w.shared u := by
  cases u with
  | serve i offset read =>
    obtain ⟨session, peer, credentials, requested, bytes, hsession, hfile, hread⟩ :=
      h.serve_read hrun hu
    refine ⟨session, hsession, ?_⟩
    rw [hfile]
    exact hread.within hbounded
  | deny | replay | beginRead | prune now | create nonce session | control i sequence opcode
  | cancel i => trivial

end ClipFerry.Server
