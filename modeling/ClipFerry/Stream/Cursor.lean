import ClipFerry.Foundation.Position
import ClipFerry.Foundation.Transition
import ClipFerry.Stream.VirtualStream

namespace ClipFerry.Stream

open Checked Transition Position VirtualTree Server

inductive StreamCall where
  | read (stream attempt : Nat) (destinationNull : Bool) (requested : UInt32) (readOut : Bool)
  | seek (stream : Nat) (displacement : Int64) (origin : UInt32) (positionOut : Bool)
  | clone (stream : Nat)

inductive ReadStatus where
  | ok
  | sFalse
  | failed (error : HResult)
deriving DecidableEq

inductive StreamReply where
  | read (status : ReadStatus) (readOut : Option UInt32) (bytes : List UInt8)
  | seek (result : Except HResult (Option UInt64))
  | clone (stream : Nat)

def StreamCall.stream : StreamCall → Nat
  | read stream .. | seek stream .. | clone stream => stream

def StreamReply.Failed : StreamReply → Prop
  | .read (.failed _) _ _ => True
  | .seek (.error _) => True
  | _ => False

def outParam {α : Type} (given : Bool) (value : α) : Option α := if given then some value else none

def readStatus (count requested : UInt32) : ReadStatus :=
  if count = requested then .ok else .sFalse

def countOf (read : Nat) (requested : UInt32) : UInt32 :=
  if read < 2 ^ 32 then .ofNat read else requested

namespace VirtualStream

def read (stream : VirtualStream) (attempt : Nat) (destinationNull : Bool) (requested : UInt32)
    (readOut : Bool) : StreamReply × VirtualStream :=
  match stream.readImpl attempt destinationNull requested with
  | .ok (bytes, stream) =>
    let count := countOf bytes.length requested
    (.read (readStatus count requested) (outParam readOut count) bytes, stream)
  | .error error => (.read (.failed error) (outParam readOut 0) [], stream)

def seek (stream : VirtualStream) (displacement : Int64) (origin : UInt32) (positionOut : Bool) :
    StreamReply × VirtualStream :=
  match stream.seekImpl displacement origin with
  | .ok (position, stream) => (.seek (.ok (outParam positionOut position)), stream)
  | .error error => (.seek (.error error), stream)

end VirtualStream

/-! A stream and its clones; a new clone goes to the end of the list. -/

inductive StreamStep : List VirtualStream → StreamCall × StreamReply → List VirtualStream → Prop
  | read {streams : List VirtualStream} {i : Nat} {stream : VirtualStream} (attempt : Nat)
      (destinationNull : Bool) (requested : UInt32) (readOut : Bool)
      (hstream : streams[i]? = some stream) :
      StreamStep streams (.read i attempt destinationNull requested readOut,
        (stream.read attempt destinationNull requested readOut).1)
        (streams.set i (stream.read attempt destinationNull requested readOut).2)
  | seek {streams : List VirtualStream} {i : Nat} {stream : VirtualStream} (displacement : Int64)
      (origin : UInt32) (positionOut : Bool) (hstream : streams[i]? = some stream) :
      StreamStep streams (.seek i displacement origin positionOut,
        (stream.seek displacement origin positionOut).1)
        (streams.set i (stream.seek displacement origin positionOut).2)
  | clone {streams : List VirtualStream} {i : Nat} {stream : VirtualStream}
      (hstream : streams[i]? = some stream) :
      StreamStep streams (.clone i, .clone streams.length) (streams ++ [stream])

/-! What the streams are for: cursors over a content that is in memory. -/

structure Cursor where
  content : List UInt8
  position : Nat

namespace Cursor

open VirtualStream

def available (cursor : Cursor) (requested : Nat) : Nat :=
  min requested (cursor.content.length - min cursor.position cursor.content.length)

def bytes (cursor : Cursor) (requested : Nat) : List UInt8 :=
  (cursor.content.drop cursor.position).take requested

def advance (cursor : Cursor) (requested : Nat) : Cursor :=
  { cursor with position := cursor.position + cursor.available requested }

def base (cursor : Cursor) (origin : UInt32) : Option Int :=
  if origin = streamSeekSet then some 0
  else if origin = streamSeekCur then some cursor.position
  else if origin = streamSeekEnd then some cursor.content.length
  else none

def target (cursor : Cursor) (displacement : Int) (origin : UInt32) : Option Nat :=
  (cursor.base origin).bind fun base =>
    if 0 ≤ base + displacement ∧ base + displacement < 2 ^ 64 then
      some (base + displacement).toNat
    else none

theorem length_bytes (cursor : Cursor) (requested : Nat) :
    (cursor.bytes requested).length = cursor.available requested := by
  rw [bytes, available, List.length_take, List.length_drop]
  omega

end Cursor

def SourceFault (source : ReadAtSource) (attempt : Nat) (error : HResult) : Prop :=
  ∃ later offset length, attempt ≤ later ∧ source.readAt later offset length = .error error

inductive CursorStep (source : ReadAtSource) :
    List Cursor → StreamCall × StreamReply → List Cursor → Prop
  | read {cursors : List Cursor} {i attempt : Nat} {cursor : Cursor} {destinationNull : Bool}
      {requested : UInt32} {readOut : Bool} (hcursor : cursors[i]? = some cursor)
      (hplace : requested = 0 ∨ destinationNull = false) :
      CursorStep source cursors (.read i attempt destinationNull requested readOut,
        .read (if cursor.available requested.toNat = requested.toNat then .ok else .sFalse)
          (outParam readOut (.ofNat (cursor.available requested.toNat)))
          (cursor.bytes requested.toNat)) (cursors.set i (cursor.advance requested.toNat))
  | nowhere {cursors : List Cursor} {i attempt : Nat} {requested : UInt32} {readOut : Bool}
      (hwanted : requested ≠ 0) :
      CursorStep source cursors (.read i attempt true requested readOut,
        .read (.failed .invalidPointer) (outParam readOut 0) []) cursors
  | fault {cursors : List Cursor} {i attempt : Nat} {requested : UInt32} {readOut : Bool}
      {error : HResult} (hfault : SourceFault source attempt error) :
      CursorStep source cursors (.read i attempt false requested readOut,
        .read (.failed error) (outParam readOut 0) []) cursors
  | seek {cursors : List Cursor} {i position : Nat} {cursor : Cursor} {displacement : Int64}
      {origin : UInt32} {positionOut : Bool} (hcursor : cursors[i]? = some cursor)
      (htarget : cursor.target displacement.toInt origin = some position) :
      CursorStep source cursors (.seek i displacement origin positionOut,
        .seek (.ok (outParam positionOut (.ofNat position))))
        (cursors.set i { cursor with position := position })
  | refused {cursors : List Cursor} {i : Nat} {cursor : Cursor} {displacement : Int64}
      {origin : UInt32} {positionOut : Bool} (hcursor : cursors[i]? = some cursor)
      (htarget : cursor.target displacement.toInt origin = none) :
      CursorStep source cursors (.seek i displacement origin positionOut,
        .seek (.error .invalidFunction)) cursors
  | clone {cursors : List Cursor} {i : Nat} {cursor : Cursor} (hcursor : cursors[i]? = some cursor) :
      CursorStep source cursors (.clone i, .clone cursors.length) (cursors ++ [cursor])

structure FaithfulSource (source : ReadAtSource) (content : List UInt8) : Prop where
  size : source.len.toNat = content.length
  answers : ∀ attempt (offset : UInt64) length read buffer, 0 < length →
    source.readAt attempt offset.toNat length = .ok (read, buffer) →
      (offset.toNat < content.length → 1 ≤ read ∧ read ≤ min length (content.length - offset.toNat) ∧
        buffer.val.take read = (content.drop offset.toNat).take read) ∧
      (content.length ≤ offset.toNat → read = 0)

variable {source : ReadAtSource} {content read bytes : List UInt8} {stream stream' : VirtualStream}
  {streams streams' : List VirtualStream} {attempt requested : Nat} {error : HResult}

theorem FaithfulSource.exact (h : FaithfulSource source content) : Exact source content := by
  intro attempt offset length read buffer hlength hanswer
  obtain ⟨hinside, hbeyond⟩ := h.answers attempt offset length read buffer hlength hanswer
  rcases Nat.lt_or_ge offset.toNat content.length with hlt | hge
  · obtain ⟨hpositive, hle, hbytes⟩ := hinside hlt
    exact ⟨Nat.le_trans hle (Nat.min_le_left _ _), hbytes, by omega⟩
  · obtain rfl := hbeyond hge
    exact ⟨Nat.zero_le _, rfl, by omega⟩

theorem FaithfulSource.length_lt (h : FaithfulSource source content) : content.length < 2 ^ 64 := by
  rw [← h.size]
  exact source.len.toNat_lt

theorem checkedAdd_of_part {position : UInt64} (hcontent : content.length < 2 ^ 64)
    (hread : read = (content.drop position.toNat).take requested) :
    position.toNat + read.length < 2 ^ 64 ∧
      ∃ offset, checkedAdd position read.length = .ok offset := by
  have hposition := position.toNat_lt
  have hlength := congrArg List.length hread
  rw [List.length_take, List.length_drop] at hlength
  have hfits : position.toNat + read.length < 2 ^ 64 := by omega
  exact ⟨hfits, _, by rw [checkedAdd, if_neg (Nat.not_le.mpr hfits)]⟩

theorem SourceFault.earlier (h : SourceFault source (attempt + 1) error) :
    SourceFault source attempt error := by
  obtain ⟨later, offset, length, hle, hfault⟩ := h
  exact ⟨later, offset, length, Nat.le_of_succ_le hle, hfault⟩

namespace VirtualStream

theorem fill_fault (hsource : FaithfulSource stream.source content) (hle : read.length ≤ requested)
    (hread : read = (content.drop stream.position.toNat).take read.length)
    (h : stream.fill attempt requested read = .error error) :
    SourceFault stream.source attempt error := by
  induction attempt, read using fill.induct requested with
  | case1 attempt read hfull =>
    rw [fill, if_pos hfull] at h
    cases h
  | case2 attempt read hmore ih =>
    obtain ⟨-, offset, hoffset⟩ := checkedAdd_of_part hsource.length_lt hread
    rw [fill, if_neg hmore, hoffset, ok_bind] at h
    cases hanswer : stream.source.readAt attempt offset.toNat (requested - read.length) with
    | error fault =>
      rw [hanswer] at h
      cases h
      exact ⟨attempt, _, _, Nat.le_refl _, hanswer⟩
    | ok answer =>
      obtain ⟨chunk, buffer⟩ := answer
      obtain ⟨hchunk, hbytes, -⟩ := hsource.exact _ _ _ _ _ (by omega) hanswer
      rw [hanswer, ok_bind] at h
      simp only [dif_neg (Nat.not_lt.mpr hchunk)] at h
      split at h
      · cases h
      · rename_i hempty
        have hlength : (buffer.val.take chunk).length = chunk := by
          rw [List.length_take, buffer.property, Nat.min_eq_left hchunk]
        refine (ih chunk buffer (by omega) hempty ?_ ?_ h).earlier
        · rw [List.length_append, hlength]
          omega
        · rw [List.length_append, hlength, List.take_add, ← hread, hbytes, checkedAdd_toNat hoffset,
            List.drop_drop]

def cursor (content : List UInt8) (stream : VirtualStream) : Cursor where
  content := content
  position := stream.position.toNat

theorem readImpl_nowhere {count : UInt32} (h : count ≠ 0) :
    stream.readImpl attempt true count = .error .invalidPointer := by
  rw [readImpl, if_pos ⟨h, rfl⟩]

theorem readImpl_position (hsource : FaithfulSource stream.source content) {destinationNull : Bool}
    {count : UInt32} (h : stream.readImpl attempt destinationNull count = .ok (bytes, stream')) :
    stream'.source = stream.source ∧
      stream'.position.toNat = stream.position.toNat + bytes.length ∧
      stream.position.toNat + bytes.length < 2 ^ 64 := by
  obtain ⟨-, hkept, hposition⟩ := readImpl_exact hsource.exact h
  refine ⟨hkept, hposition, ?_⟩
  rw [← hposition]
  exact stream'.position.toNat_lt

theorem readImpl_cases (hsource : FaithfulSource stream.source content) {destinationNull : Bool}
    {count : UInt32} (attempt : Nat) (hplace : count = 0 ∨ destinationNull = false) :
    (∃ stream', stream.readImpl attempt destinationNull count =
      .ok ((stream.cursor content).bytes count.toNat, stream') ∧
        stream'.cursor content = (stream.cursor content).advance count.toNat) ∨
    ∃ error, stream.readImpl attempt destinationNull count = .error error ∧
      SourceFault stream.source attempt error ∧ destinationNull = false := by
  have hgiven : ¬(count ≠ 0 ∧ destinationNull = true) := by
    rintro ⟨hcount, hnull⟩
    rcases hplace with hzero | hplace
    · exact hcount hzero
    · exact Bool.false_ne_true (hplace.symm.trans hnull)
  have hread : stream.readImpl attempt destinationNull count = (do
      let read ← stream.fill attempt count.toNat []
      let position ← checkedAdd stream.position read.length
      .ok (read, { stream with position := position })) := by rw [readImpl, if_neg hgiven]
  cases hfill : stream.fill attempt count.toNat [] with
  | error error =>
    have hfault := fill_fault hsource (Nat.zero_le _) rfl hfill
    rw [hread, hfill]
    refine .inr ⟨error, rfl, hfault, hplace.resolve_left ?_⟩
    rintro rfl
    have hnone : UInt32.toNat 0 ≤ ([] : List UInt8).length := Nat.le_refl 0
    rw [fill_full hnone] at hfill
    cases hfill
  | ok bytes =>
    have hbytes := fill_exact hsource.exact (Nat.zero_le _) rfl hfill
    obtain ⟨-, offset, hoffset⟩ := checkedAdd_of_part hsource.length_lt hbytes
    rw [hfill, ok_bind, hoffset, ok_bind, hbytes] at hread
    obtain ⟨-, hposition, -⟩ := readImpl_position hsource hread
    refine .inl ⟨_, hread, ?_⟩
    rw [cursor, hposition, Cursor.advance, ← Cursor.length_bytes]
    rfl

theorem seekBase_cases (hsize : stream.source.len.toNat = content.length) (origin : UInt32) :
    (∃ base, stream.seekBase origin = .ok base ∧ (stream.cursor content).base origin = some base ∧
      0 ≤ base ∧ base < 2 ^ 64) ∨
    (stream.seekBase origin = .error .invalidFunction ∧
      (stream.cursor content).base origin = none) := by
  have hposition := stream.position.toNat_lt
  have hlen := stream.source.len.toNat_lt
  simp only [seekBase, Cursor.base, cursor]
  by_cases hset : origin = streamSeekSet
  · rw [if_pos hset, if_pos hset]
    exact .inl ⟨0, rfl, rfl, by decide, by decide⟩
  · rw [if_neg hset, if_neg hset]
    by_cases hcur : origin = streamSeekCur
    · rw [if_pos hcur, if_pos hcur]
      exact .inl ⟨_, rfl, rfl, by omega, by omega⟩
    · rw [if_neg hcur, if_neg hcur]
      by_cases hend : origin = streamSeekEnd
      · rw [if_pos hend, if_pos hend, hsize]
        exact .inl ⟨_, rfl, rfl, by omega, by omega⟩
      · rw [if_neg hend, if_neg hend]
        exact .inr ⟨rfl, rfl⟩

theorem tryFromI128_toNat {next : Int} (h : 0 ≤ next ∧ next < 2 ^ 64) :
    ∃ position, tryFromI128 next = .ok position ∧ position.toNat = next.toNat := by
  refine ⟨.ofNat next.toNat, if_pos h, ?_⟩
  rw [UInt64.toNat_ofNat', Nat.mod_eq_of_lt]
  omega

theorem seekImpl_cases (hsize : stream.source.len.toNat = content.length) (displacement : Int64)
    (origin : UInt32) :
    (∃ next, stream.seekImpl displacement origin = .ok (next, { stream with position := next }) ∧
      (stream.cursor content).target displacement.toInt origin = some next.toNat) ∨
    (stream.seekImpl displacement origin = .error .invalidFunction ∧
      (stream.cursor content).target displacement.toInt origin = none) := by
  rw [seekImpl, Cursor.target]
  rcases seekBase_cases hsize origin with ⟨base, hbase, habove, -⟩ | ⟨hbase, habove⟩
  · rw [hbase, habove, ok_bind, Option.bind_some]
    by_cases hrange : 0 ≤ base + displacement.toInt ∧ base + displacement.toInt < 2 ^ 64
    · obtain ⟨next, hnext, hvalue⟩ := tryFromI128_toNat hrange
      rw [hnext, ok_bind, if_pos hrange, ← hvalue]
      exact .inl ⟨next, rfl, rfl⟩
    · rw [tryFromI128, if_neg hrange, if_neg hrange]
      exact .inr ⟨rfl, rfl⟩
  · rw [hbase, habove]
    exact .inr ⟨rfl, rfl⟩

theorem seekBase_fits (hsize : stream.source.len.toNat = content.length) {base : Int}
    {origin : UInt32} (h : stream.seekBase origin = .ok base) (displacement : Int64) :
    -2 ^ 127 ≤ base + displacement.toInt ∧ base + displacement.toInt < 2 ^ 127 := by
  have hlow := displacement.le_toInt
  have hhigh := displacement.toInt_lt
  rcases seekBase_cases hsize origin with ⟨found, hfound, -, hpos, hlt⟩ | ⟨hfound, -⟩
  · rw [h] at hfound
    obtain rfl := Except.ok.inj hfound
    omega
  · rw [h] at hfound
    cases hfound

end VirtualStream

def Shared (source : ReadAtSource) (streams : List VirtualStream) : Prop :=
  ∀ stream ∈ streams, stream.source = source

theorem set_unchanged {α : Type} {l : List α} {i : Nat} {a : α} (h : l[i]? = some a) :
    l.set i a = l := by
  obtain ⟨hlt, rfl⟩ := List.getElem?_eq_some_iff.mp h
  exact List.set_getElem_self hlt

theorem countOf_eq {read : Nat} {requested : UInt32} (h : read ≤ requested.toNat) :
    countOf read requested = .ofNat read ∧
      readStatus (.ofNat read) requested = if read = requested.toNat then .ok else .sFalse := by
  have hlt := requested.toNat_lt
  have hread : read < 2 ^ 32 := by omega
  refine ⟨if_pos hread, ?_⟩
  have hsame : UInt32.ofNat read = requested ↔ read = requested.toNat := by
    rw [← UInt32.toNat_inj, UInt32.toNat_ofNat', Nat.mod_eq_of_lt hread]
  rw [readStatus]
  simp only [hsame]

theorem streamStep_cursorStep (hsource : FaithfulSource source content)
    {label : StreamCall × StreamReply} (hshared : Shared source streams)
    (h : StreamStep streams label streams') :
    CursorStep source (streams.map (·.cursor content)) label (streams'.map (·.cursor content)) := by
  have hat : ∀ {i : Nat} {stream : VirtualStream}, streams[i]? = some stream →
      (streams.map (·.cursor content))[i]? = some (stream.cursor content) := by
    intro i stream hstream
    rw [List.getElem?_map, hstream, Option.map_some]
  cases h with
  | @read i stream attempt destinationNull requested readOut hstream =>
    obtain rfl := hshared stream (List.mem_of_getElem? hstream)
    have hcursor := hat hstream
    rw [List.map_set, VirtualStream.read]
    by_cases hplace : requested = 0 ∨ destinationNull = false
    · rcases VirtualStream.readImpl_cases hsource attempt hplace with
        ⟨stream', hread, hadvanced⟩ | ⟨error, hread, hfault, rfl⟩
      · have hshort : (stream.cursor content).available requested.toNat ≤ requested.toNat :=
          Nat.min_le_left _ _
        obtain ⟨hcount, hstatus⟩ := countOf_eq hshort
        simp only [hread, hadvanced, Cursor.length_bytes, hcount, hstatus]
        exact .read hcursor hplace
      · rw [hread, set_unchanged hcursor]
        exact .fault hfault
    · rw [not_or, Bool.not_eq_false] at hplace
      obtain ⟨hwanted, rfl⟩ := hplace
      rw [VirtualStream.readImpl_nowhere hwanted, set_unchanged hcursor]
      exact .nowhere hwanted
  | @seek i stream displacement origin positionOut hstream =>
    obtain rfl := hshared stream (List.mem_of_getElem? hstream)
    have hcursor := hat hstream
    rw [List.map_set, VirtualStream.seek]
    rcases VirtualStream.seekImpl_cases hsource.size displacement origin with ⟨next, hseek, htarget⟩ | ⟨hseek, htarget⟩
    · rw [hseek]
      have hstep : CursorStep stream.source (streams.map (·.cursor content))
          (.seek i displacement origin positionOut, _) _ := .seek hcursor htarget
      rw [UInt64.ofNat_toNat] at hstep
      exact hstep
    · rw [hseek, set_unchanged hcursor]
      exact .refused hcursor htarget
  | @clone i stream hstream =>
    rw [List.map_append, ← List.length_map (·.cursor content)]
    exact .clone (hat hstream)

theorem VirtualStream.read_source (destinationNull : Bool) (count : UInt32) (readOut : Bool) :
    (stream.read attempt destinationNull count readOut).2.source = stream.source := by
  rw [VirtualStream.read]
  split
  · next hread =>
    obtain ⟨-, position, -, rfl⟩ := VirtualStream.readImpl_eq_ok hread
    rfl
  · rfl

theorem VirtualStream.seekImpl_eq_ok {displacement : Int64} {origin : UInt32} {next : UInt64}
    (h : stream.seekImpl displacement origin = .ok (next, stream')) :
    stream' = { stream with position := next } := by
  obtain ⟨base, -, h⟩ := bind_eq_ok.mp h
  obtain ⟨next, -, h⟩ := bind_eq_ok.mp h
  cases h
  rfl

theorem VirtualStream.seek_source (displacement : Int64) (origin : UInt32) (positionOut : Bool) :
    (stream.seek displacement origin positionOut).2.source = stream.source := by
  rw [VirtualStream.seek]
  split
  · next hseek =>
    rw [VirtualStream.seekImpl_eq_ok hseek]
  · rfl

theorem Shared.set {i : Nat} (h : Shared source streams) (hstream : stream.source = source) :
    Shared source (streams.set i stream) := by
  intro other hother
  rcases List.mem_or_eq_of_mem_set hother with hmem | rfl
  · exact h other hmem
  · exact hstream

theorem streamStep_shared {label : StreamCall × StreamReply} (hshared : Shared source streams)
    (h : StreamStep streams label streams') : Shared source streams' := by
  cases h with
  | read attempt destinationNull requested readOut hstream =>
    refine hshared.set ?_
    rw [VirtualStream.read_source]
    exact hshared _ (List.mem_of_getElem? hstream)
  | seek displacement origin positionOut hstream =>
    refine hshared.set ?_
    rw [VirtualStream.seek_source]
    exact hshared _ (List.mem_of_getElem? hstream)
  | clone hstream =>
    intro other hother
    rcases List.mem_append.mp hother with hmem | hmem
    · exact hshared other hmem
    · rw [List.mem_singleton] at hmem
      subst hmem
      exact hshared _ (List.mem_of_getElem? hstream)

theorem streamStep_frame {label : StreamCall × StreamReply} (h : StreamStep streams label streams') :
    (label.2.Failed → streams' = streams) ∧
      ∀ j, j ≠ label.1.stream → j < streams.length → streams'[j]? = streams[j]? := by
  cases h with
  | @read i stream attempt destinationNull requested readOut hstream =>
    refine ⟨fun hfailed => ?_, fun j hj _ => List.getElem?_set_ne (Ne.symm hj)⟩
    simp only [VirtualStream.read] at hfailed ⊢
    split
    · next hread =>
      simp only [hread, readStatus] at hfailed
      split at hfailed <;> cases hfailed
    · exact set_unchanged hstream
  | @seek i stream displacement origin positionOut hstream =>
    refine ⟨fun hfailed => ?_, fun j hj _ => List.getElem?_set_ne (Ne.symm hj)⟩
    simp only [VirtualStream.seek] at hfailed ⊢
    split
    · next hseek =>
      simp only [hseek] at hfailed
      cases hfailed
    · exact set_unchanged hstream
  | clone hstream =>
    refine ⟨fun hfailed => hfailed.elim, fun j _ hlt => ?_⟩
    exact List.getElem?_append_left hlt

structure Fits (stream : VirtualStream) : Prop where
  read : ∀ attempt destinationNull requested bytes stream',
    stream.readImpl attempt destinationNull requested = .ok (bytes, stream') →
      stream.position.toNat + bytes.length < 2 ^ 64
  seek : ∀ (displacement : Int64) origin base, stream.seekBase origin = .ok base →
    -2 ^ 127 ≤ base + displacement.toInt ∧ base + displacement.toInt < 2 ^ 127

theorem virtual_stream_refines_cursor (hsource : FaithfulSource source content) (position : UInt64)
    {labels : List (StreamCall × StreamReply)}
    (hrun : Run StreamStep [⟨source, position⟩] labels streams) :
    Run (CursorStep source) [⟨content, position.toNat⟩] labels (streams.map (·.cursor content)) ∧
    (∀ label streams', StreamStep streams label streams' →
      (label.2.Failed → streams' = streams) ∧
      ∀ j, j ≠ label.1.stream → j < streams.length → streams'[j]? = streams[j]?) ∧
    ∀ stream ∈ streams, Fits stream := by
  have hinit : Shared source [⟨source, position⟩] := by simp [Shared]
  have hshared := hrun.invariant (I := Shared source) streamStep_shared hinit
  have hrefines := hrun.simulates (I := Shared source) streamStep_shared
    (streamStep_cursorStep hsource) hinit
  refine ⟨hrefines, fun _ _ => streamStep_frame, fun stream hstream => ?_⟩
  obtain rfl := hshared stream hstream
  exact ⟨fun _ _ _ _ _ hread => (VirtualStream.readImpl_position hsource hread).2.2,
    fun displacement _ _ hbase => VirtualStream.seekBase_fits hsource.size hbase displacement⟩

def dribbleSource (content : List UInt8) : ReadAtSource where
  len := .ofNat content.length
  readAt attempt offset length :=
    if attempt = 7 then .error .readFault
    else .ok (min 1 (min length (content.length - offset)),
      ⟨((content.drop offset).take length ++ List.replicate length 0).take length, by
        rw [List.length_take, List.length_append, List.length_replicate]
        omega⟩)

theorem dribbleSource_faithful (h : content.length < 2 ^ 64) :
    FaithfulSource (dribbleSource content) content where
  size := by
    rw [dribbleSource, UInt64.toNat_ofNat', Nat.mod_eq_of_lt h]
  answers := by
    intro attempt offset length read buffer hlength hanswer
    simp only [dribbleSource] at hanswer
    split at hanswer
    · cases hanswer
    · cases hanswer
      refine ⟨fun hinside => ⟨by omega, by omega, ?_⟩, fun hbeyond => by omega⟩
      have hone : min 1 (min length (content.length - offset.toNat)) = 1 := by omega
      have hfirst : 1 ≤ ((content.drop offset.toNat).take length).length := by
        rw [List.length_take, List.length_drop]
        omega
      rw [hone, List.take_take, Nat.min_eq_left hlength, List.take_append_of_le_length hfirst,
        List.take_take, Nat.min_eq_left hlength]

def dribbleStream (position : UInt64) : VirtualStream := ⟨dribbleSource [97, 98, 99], position⟩

theorem dribbleStream_read : (dribbleStream 0).read 0 false 2 true =
    (.read .ok (some 2) [97, 98], dribbleStream 2) := by
  have hfirst : (dribbleStream 0).fill 0 2 [] = (dribbleStream 0).fill 1 2 [97] :=
    @VirtualStream.fill_more (dribbleStream 0) [] 0 2 0 1 ⟨[97, 98], rfl⟩ (by decide) rfl rfl
      (by decide) (by decide)
  have hsecond : (dribbleStream 0).fill 1 2 [97] = (dribbleStream 0).fill 2 2 [97, 98] :=
    @VirtualStream.fill_more (dribbleStream 0) [97] 1 2 1 1 ⟨[98], rfl⟩ (by decide) rfl rfl
      (by decide) (by decide)
  have hfull : (dribbleStream 0).fill 2 2 [97, 98] = .ok [97, 98] :=
    VirtualStream.fill_full (Nat.le_refl 2)
  have hread : (dribbleStream 0).readImpl 0 false 2 = .ok ([97, 98], dribbleStream 2) := by
    rw [VirtualStream.readImpl, if_neg (by decide)]
    change ((dribbleStream 0).fill 0 2 [] >>= _) = _
    rw [hfirst, hsecond, hfull]
    rfl
  rw [VirtualStream.read, hread]
  rfl

theorem virtual_stream_refines_cursor_dribble :
    Run (CursorStep (dribbleSource [97, 98, 99])) [⟨[97, 98, 99], 0⟩]
      [(.read 0 0 false 2 true, .read .ok (some 2) [97, 98]), (.clone 0, .clone 1),
        (.seek 1 (-3) 2 true, .seek (.ok (some 0)))] [⟨[97, 98, 99], 2⟩, ⟨[97, 98, 99], 0⟩] := by
  have hread := @StreamStep.read [dribbleStream 0] 0 (dribbleStream 0) 0 false 2 true rfl
  rw [dribbleStream_read] at hread
  have hclone := @StreamStep.clone [dribbleStream 2] 0 (dribbleStream 2) rfl
  have hseek := @StreamStep.seek [dribbleStream 2, dribbleStream 2] 1 (dribbleStream 2) (-3) 2 true rfl
  exact (virtual_stream_refines_cursor (dribbleSource_faithful (by decide)) 0
    (((Run.single hread).snoc hclone).snoc hseek)).1

end ClipFerry.Stream
