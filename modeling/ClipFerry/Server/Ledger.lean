import Mathlib.Data.Finset.Prod
import Mathlib.Order.Interval.Finset.Nat
import ClipFerry.Foundation.Tally
import ClipFerry.Foundation.WordSum
import ClipFerry.Server.CallTrace
import ClipFerry.Server.ReadPath

namespace ClipFerry.Server

open Foundation Intervals Protocol Transition WordSum

abbrev FileByte : Type := ProtocolId × Nat

def fileRange (fileId : ProtocolId) (start stop : Nat) : Finset FileByte :=
  {fileId} ×ˢ Finset.Ico start stop

def offerBytes : List OfferManifestEntry → Finset FileByte
  | [] => ∅
  | entry :: entries => fileRange entry.fileId 0 entry.descriptor.size.toNat ∪ offerBytes entries

/-! What a server has sent, and which bytes stand behind the number that each session counts. -/

structure Ledger where
  served : Finset FileByte
  counted : Nat → Finset FileByte

structure Book where
  shared : Shared
  ledger : Ledger

def TransferSession.noted (session : TransferSession) (offset read : Nat) : Finset FileByte :=
  if (session.inner.coverage.note offset read).saturated = true then ∅
  else fileRange session.fileId offset (offset + read)

namespace Book

def empty : Book := ⟨.empty, ∅, fun _ => ∅⟩

def enter (book : Book) : Update → Ledger
  | .serve i offset read =>
    match book.shared.sessions[i]? with
    | none => book.ledger
    | some session =>
      { served := book.ledger.served ∪ fileRange session.fileId offset (offset + read)
        counted := Function.update book.ledger.counted i
          (book.ledger.counted i ∪ session.noted offset read) }
  | _ => book.ledger

def run (book : Book) (u : Update) : Book := ⟨book.shared.run u, book.enter u⟩

def remembered (book : Book) : List Nat := book.shared.transfers.values

def Complete (entries : List OfferManifestEntry) (book : Book) : Prop :=
  offerBytes entries ⊆ Tally.union book.ledger.counted book.remembered

end Book

variable {entries : List OfferManifestEntry} {fileId : ProtocolId} {start stop : Nat}
  {ranges : List (Nat × Nat)} {book : Book} {u : Update} {i offset read : Nat}
  {session : TransferSession} {counted : Finset FileByte}

theorem mem_fileRange {byte : FileByte} :
    byte ∈ fileRange fileId start stop ↔ byte.1 = fileId ∧ start ≤ byte.2 ∧ byte.2 < stop := by
  rw [fileRange, Finset.mem_product, Finset.mem_singleton, Finset.mem_Ico]

theorem card_fileRange : (fileRange fileId start stop).card = stop - start := by
  rw [fileRange, Finset.card_product, Finset.card_singleton, Nat.card_Ico, Nat.one_mul]

theorem mem_offerBytes {byte : FileByte} : byte ∈ offerBytes entries ↔
    ∃ entry ∈ entries, entry.fileId = byte.1 ∧ byte.2 < entry.descriptor.size.toNat := by
  induction entries with
  | nil => simp [offerBytes]
  | cons entry entries ih =>
    rw [offerBytes, Finset.mem_union, ih, mem_fileRange, List.exists_mem_cons_iff, eq_comm,
      and_iff_right (Nat.zero_le _)]

theorem card_offerBytes (hids : (entries.map (·.fileId)).Nodup) :
    (offerBytes entries).card = exactSum (entries.map (·.descriptor.size)) := by
  induction entries with
  | nil => rfl
  | cons entry entries ih =>
    obtain ⟨hnew, hrest⟩ := List.nodup_cons.mp hids
    have hdisjoint : Disjoint (fileRange entry.fileId 0 entry.descriptor.size.toNat)
        (offerBytes entries) := by
      rw [Finset.disjoint_left]
      intro byte hhead htail
      obtain ⟨other, hother, hid, -⟩ := mem_offerBytes.mp htail
      refine hnew (List.mem_map.mpr ⟨other, hother, ?_⟩)
      exact hid.trans (mem_fileRange.mp hhead).1
    rw [offerBytes, Finset.card_union_of_disjoint hdisjoint, card_fileRange, ih hrest,
      List.map_cons, exactSum_cons, Nat.sub_zero]

def rangesOf (fileId : ProtocolId) : List (Nat × Nat) → Finset FileByte
  | [] => ∅
  | r :: ranges => fileRange fileId r.1 r.2 ∪ rangesOf fileId ranges

theorem mem_rangesOf {byte : FileByte} :
    byte ∈ rangesOf fileId ranges ↔ byte.1 = fileId ∧ Covers ranges byte.2 := by
  induction ranges with
  | nil => simp [rangesOf, Covers]
  | cons r ranges ih => rw [rangesOf, Finset.mem_union, ih, mem_fileRange, covers_cons, and_or_left]

theorem rangesOf_eq (fileId : ProtocolId) (ranges : List (Nat × Nat)) :
    rangesOf fileId ranges = {fileId} ×ˢ points ranges := by
  ext byte
  rw [mem_rangesOf, Finset.mem_product, Finset.mem_singleton, mem_points]

theorem card_rangesOf (h : Normal ranges) :
    (rangesOf fileId ranges).card = RangeCoverage.totalLength ranges := by
  rw [rangesOf_eq, Finset.card_product, Finset.card_singleton, Nat.one_mul, h.card_points]
  rfl

structure TransferSession.Counts (session : TransferSession) (counted : Finset FileByte) :
    Prop where
  wellFormed : session.inner.coverage.WellFormed
  number : session.inner.coverage.uniqueBytes = counted.card
  ranges : session.inner.coverage.saturated = false →
    counted = rangesOf session.fileId session.inner.coverage.ranges

theorem TransferSession.Counts.serve (h : session.Counts counted) (offset read : Nat) :
    ({ session with inner := session.inner.serve offset read } : TransferSession).Counts
      (counted ∪ session.noted offset read) := by
  have hwf := h.wellFormed.note offset read
  rcases RangeCoverage.note_cases session.inner.coverage offset read with ⟨hskip, heq⟩ |
    ⟨-, -, hfull⟩ | ⟨hsat, hpos, hfew, hlt, heq⟩
  · have hnone : session.noted offset read = ∅ := by
      rw [TransferSession.noted, heq]
      rcases hskip with hsat | rfl
      · rw [if_pos hsat]
      · rw [fileRange, Nat.add_zero, Finset.Ico_self, Finset.product_empty, ite_self]
    rw [hnone, Finset.union_empty]
    refine ⟨hwf, ?_, ?_⟩
    · rw [TransferInner.serve, heq]
      exact h.number
    · rw [TransferInner.serve, heq]
      exact h.ranges
  · have hsaturated : (session.inner.coverage.note offset read).saturated = true ∧
        (session.inner.coverage.note offset read).uniqueBytes =
          session.inner.coverage.uniqueBytes := by
      rcases hfull with ⟨-, heq⟩ | ⟨-, heq⟩ <;>
      · rw [heq]
        exact ⟨rfl, rfl⟩
    rw [TransferSession.noted, if_pos hsaturated.1, Finset.union_empty]
    refine ⟨hwf, hsaturated.2.trans h.number, fun hnot => ?_⟩
    cases hsaturated.1.symm.trans hnot
  · obtain ⟨hnormal, hcovers⟩ := RangeCoverage.mergedWith_spec h.wellFormed hpos
    have hsame : counted ∪ session.noted offset read = rangesOf session.fileId
        (RangeCoverage.mergedWith session.inner.coverage.ranges offset (offset + read)) := by
      ext byte
      rw [TransferSession.noted, heq, if_neg Bool.false_ne_true, h.ranges hsat, Finset.mem_union,
        mem_rangesOf, mem_fileRange, mem_rangesOf, hcovers, and_or_left]
    refine ⟨hwf, ?_, ?_⟩
    · rw [hsame, card_rangesOf hnormal, TransferInner.serve, heq]
    · rw [hsame, TransferInner.serve, heq]
      exact fun _ => rfl

theorem TransferSession.Counts.congr {session' : TransferSession} (h : session.Counts counted)
    (hcoverage : session'.inner.coverage = session.inner.coverage)
    (hfile : session'.fileId = session.fileId) : session'.Counts counted where
  wellFormed := hcoverage ▸ h.wellFormed
  number := hcoverage ▸ h.number
  ranges := by
    rw [hcoverage, hfile]
    exact h.ranges

theorem TransferSession.Counts.fresh (h : session.inner = .fresh) : session.Counts ∅ := by
  have hcoverage : session.inner.coverage = .empty := by
    rw [h]
    rfl
  refine ⟨?_, ?_, fun _ => ?_⟩
  · rw [hcoverage]
    exact RangeCoverage.empty_wellFormed
  · rw [hcoverage]
    rfl
  · rw [hcoverage]
    rfl

def Update.isServe : Update → Bool
  | .serve _ _ _ => true
  | _ => false

theorem Update.onInner_coverage (h : u.isServe = false) (i : Nat) (inner : TransferInner) :
    (u.onInner i inner).coverage = inner.coverage := by
  cases u with
  | serve j offset read => cases h
  | control j sequence opcode =>
    rw [onInner]
    split <;> rfl
  | cancel j =>
    rw [onInner, TransferInner.cancel]
    split
    · split <;> rfl
    · rfl
  | deny | replay | beginRead | prune now | create nonce session => rfl

theorem Shared.session_origin {shared : Shared} {session' : TransferSession}
    (h : (shared.run u).sessions[i]? = some session') :
    (∃ session, shared.sessions[i]? = some session ∧
      session' = { session with inner := u.onInner i session.inner }) ∨
    (shared.sessions[i]? = none ∧ session'.inner = .fresh) := by
  cases hsession : shared.sessions[i]? with
  | none => exact .inr ⟨rfl, Shared.run_fresh hsession h⟩
  | some session =>
    rw [Shared.run_session hsession] at h
    exact .inl ⟨session, rfl, (Option.some.inj h).symm⟩

namespace Book

theorem enter_serve (h : book.shared.sessions[i]? = some session) :
    book.enter (.serve i offset read) =
      ⟨book.ledger.served ∪ fileRange session.fileId offset (offset + read),
        Function.update book.ledger.counted i
          (book.ledger.counted i ∪ session.noted offset read)⟩ := by
  rw [enter, h]

theorem enter_missing (h : book.shared.sessions[i]? = none) :
    book.enter (.serve i offset read) = book.ledger := by
  rw [enter, h]

theorem enter_other (h : u.isServe = false) : book.enter u = book.ledger := by
  cases u with
  | serve i offset read => cases h
  | deny | replay | beginRead | prune now | create nonce session | control i sequence opcode
  | cancel i => rfl

theorem counted_grows (book : Book) (u : Update) (i : Nat) :
    book.ledger.counted i ⊆ (book.run u).ledger.counted i := by
  cases u with
  | serve j offset read =>
    rw [run]
    cases hsession : book.shared.sessions[j]? with
    | none => rw [enter_missing hsession]
    | some session =>
      rw [enter_serve hsession]
      dsimp only
      rw [Function.update_apply]
      split
      · next hsame =>
        rw [hsame]
        exact Finset.subset_union_left
      · rfl
  | deny | replay | beginRead | prune now | create nonce session | control i sequence opcode
  | cancel i => rfl

theorem served_grows (book : Book) (u : Update) :
    book.ledger.served ⊆ (book.run u).ledger.served := by
  cases u with
  | serve j offset read =>
    rw [run]
    cases hsession : book.shared.sessions[j]? with
    | none => rw [enter_missing hsession]
    | some session =>
      rw [enter_serve hsession]
      exact Finset.subset_union_left
  | deny | replay | beginRead | prune now | create nonce session | control i sequence opcode
  | cancel i => rfl

def Within (entries : List OfferManifestEntry) (shared : Shared) : Update → Prop
  | .serve i offset read => ∃ session, shared.sessions[i]? = some session ∧
      fileRange session.fileId offset (offset + read) ⊆ offerBytes entries
  | _ => True

theorem Within.run {shared : Shared} (h : Within entries shared u) (v : Update) :
    Within entries (shared.run v) u := by
  cases u with
  | serve i offset read =>
    obtain ⟨session, hsession, hrange⟩ := h
    exact ⟨_, Shared.run_session hsession v, hrange⟩
  | deny | replay | beginRead | prune now | create nonce session | control i sequence opcode
  | cancel i => trivial

structure Tallied (entries : List OfferManifestEntry) (book : Book) : Prop where
  counts : ∀ {i} {session : TransferSession}, book.shared.sessions[i]? = some session →
    session.Counts (book.ledger.counted i)
  fresh : ∀ {i}, book.shared.sessions[i]? = none → book.ledger.counted i = ∅
  served : ∀ i, book.ledger.counted i ⊆ book.ledger.served
  offered : book.ledger.served ⊆ offerBytes entries

theorem noted_subset : session.noted offset read ⊆
    fileRange session.fileId offset (offset + read) := by
  rw [TransferSession.noted]
  split
  · exact Finset.empty_subset _
  · rfl

theorem Tallied.serve (h : Tallied entries book)
    (hwithin : Within entries book.shared (.serve i offset read)) :
    Tallied entries (book.run (.serve i offset read)) := by
  obtain ⟨session, hsession, hrange⟩ := hwithin
  rw [run, enter_serve hsession]
  refine ⟨?_, ?_, ?_, Finset.union_subset h.offered hrange⟩
  · intro j session' hsession'
    dsimp only
    rw [Function.update_apply]
    rcases Shared.session_origin hsession' with ⟨before, hbefore, rfl⟩ | ⟨hnone, hinner⟩
    · split
      · next hsame =>
        subst hsame
        obtain rfl := Option.some.inj (hsession.symm.trans hbefore)
        rw [Update.onInner, if_pos rfl]
        exact (h.counts hsession).serve offset read
      · next hother =>
        rw [Update.onInner, if_neg (Ne.symm hother)]
        exact h.counts hbefore
    · split
      · next hsame =>
        rw [hsame, hsession] at hnone
        cases hnone
      · rw [h.fresh hnone]
        exact .fresh hinner
  · intro j hnone
    have hlength : (book.shared.run (.serve i offset read)).sessions.length =
        book.shared.sessions.length := Shared.length_run rfl
    rw [List.getElem?_eq_none_iff, hlength, ← List.getElem?_eq_none_iff] at hnone
    have hother : j ≠ i := by
      rintro rfl
      rw [hsession] at hnone
      cases hnone
    dsimp only
    rw [Function.update_of_ne hother, h.fresh hnone]
  · intro j
    dsimp only
    rw [Function.update_apply]
    split
    · exact Finset.union_subset_union (h.served i) noted_subset
    · exact (h.served j).trans Finset.subset_union_left

theorem Tallied.other (h : Tallied entries book) (hu : u.isServe = false) :
    Tallied entries (book.run u) := by
  rw [run, enter_other hu]
  refine ⟨?_, ?_, h.served, h.offered⟩
  · intro i session' hsession'
    rcases Shared.session_origin hsession' with ⟨session, hsession, rfl⟩ | ⟨hnone, hinner⟩
    · exact (h.counts hsession).congr (Update.onInner_coverage hu i session.inner) rfl
    · dsimp only
      rw [h.fresh hnone]
      exact .fresh hinner
  · intro i hnone
    refine h.fresh ?_
    cases hsession : book.shared.sessions[i]? with
    | none => rfl
    | some session =>
      dsimp only at hnone
      rw [Shared.run_session hsession] at hnone
      cases hnone

end Book

end ClipFerry.Server
