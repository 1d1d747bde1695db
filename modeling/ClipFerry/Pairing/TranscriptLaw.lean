import ClipFerry.Pairing.Authentication

namespace ClipFerry.Pairing

open Checked Foundation Protocol Server Transition VirtualTree

variable {digest : List UInt8 → Secret} {s : PairingSession} {hello listener connector : Hello}
  {reader later : ChunkReader UInt8} {role : Role} {input encoded rest : List UInt8} {hash : Secret}

def transcriptInput (listener connector : Hello) : Except IoError (List UInt8) := do
  if listener.role ≠ .listener ∨ connector.role ≠ .connector then
    .error (invalidData "pairing transcript roles are not canonical") else
  let first ← listener.encode
  let second ← connector.encode
  .ok (transcriptDomain ++ (first ++ second))

theorem pairingTranscript_eq_map (digest : List UInt8 → Secret) (listener connector : Hello) :
    pairingTranscript digest listener connector =
      (transcriptInput listener connector).map digest := by
  rw [pairingTranscript, transcriptInput]
  split
  · rfl
  · cases listener.encode with
    | error error => rfl
    | ok first =>
      cases connector.encode with
      | error error => rfl
      | ok second => rfl

theorem transcriptInput_eq_ok : transcriptInput listener connector = .ok input ↔
    (listener.role = .listener ∧ connector.role = .connector) ∧
      (listener, connector) ∈ Hello.Encodable ×ˢ Hello.Encodable ∧
      transcriptBytes listener connector = input := by
  rw [transcriptInput, guard_eq_ok, not_or, not_not, not_not]
  refine and_congr_right fun _ => ?_
  constructor
  · intro h
    obtain ⟨first, hfirst, h⟩ := bind_eq_ok.mp h
    obtain ⟨second, hsecond, h⟩ := bind_eq_ok.mp h
    obtain ⟨hlistener, rfl⟩ := Hello.encode_eq_ok.mp hfirst
    obtain ⟨hconnector, rfl⟩ := Hello.encode_eq_ok.mp hsecond
    cases h
    exact ⟨⟨hlistener, hconnector⟩, rfl⟩
  · rintro ⟨⟨hlistener, hconnector⟩, rfl⟩
    rw [Hello.encode_eq_ok.mpr ⟨hlistener, rfl⟩, ok_bind, Hello.encode_eq_ok.mpr ⟨hconnector, rfl⟩]
    rfl

namespace Hello

theorem readFromChunks_bytes (h : hello.WellFormed) (hreader : reader.bytes = hello.bytes ++ rest) :
    ∃ later, readFromChunks reader hello.role = .ok (hello, later) ∧ later.bytes = rest := by
  have hread := readFromChunks_refines reader hello.role
  rw [hreader, readFrom_bytes h rest] at hread
  cases hchunks : readFromChunks reader hello.role with
  | error error =>
    rw [hchunks] at hread
    cases hread
  | ok found =>
    obtain ⟨hello', later⟩ := found
    rw [hchunks] at hread
    obtain ⟨rfl, hrest⟩ := Prod.mk.inj (Except.ok.inj hread)
    exact ⟨later, rfl, hrest⟩

theorem readFromChunks_ok (h : readFromChunks reader role = .ok (hello, later)) :
    hello.role = role ∧ hello.WellFormed ∧ reader.bytes = hello.bytes ++ later.bytes := by
  have hread := readFromChunks_refines reader role
  rw [h] at hread
  exact readFrom_ok hread.symm

end Hello

def PairingSession.hellos (session : PairingSession) : Option (Hello × Hello) :=
  session.remote.map fun remote =>
    match session.role with
    | .listener => (session.hello, remote)
    | .connector => (remote, session.hello)

structure Hashed (digest : List UInt8 → Secret) (session : PairingSession) (greeting : Hello × Hello)
    (preimage : List UInt8) : Prop where
  hellos : session.hellos = some greeting
  input : transcriptInput greeting.1 greeting.2 = .ok preimage
  hash : session.transcriptHash = some (digest preimage)

theorem Sane.hashed (h : Sane digest s) (hhash : s.transcriptHash = some hash) :
    ∃ hellos input, Hashed digest s hellos input := by
  rw [h.hash] at hhash
  obtain ⟨input, hinput, -⟩ := Option.map_eq_some_iff.mp hhash
  obtain ⟨remote, hremote, hbytes⟩ := Option.map_eq_some_iff.mp hinput
  obtain ⟨hlocal, hwell, hother⟩ := h.remote hremote
  have hsome : s.transcriptHash = some (digest input) := by rw [h.hash, hinput, Option.map_some]
  cases hrole : s.role with
  | listener =>
    rw [hrole] at hbytes hother
    refine ⟨(s.hello, remote), input, ?_, ?_, hsome⟩
    · rw [PairingSession.hellos, hremote, hrole, Option.map_some]
    · exact transcriptInput_eq_ok.mpr
        ⟨⟨hrole, hother⟩, ⟨hlocal.encodable, hwell.encodable⟩, hbytes⟩
  | connector =>
    rw [hrole] at hbytes hother
    refine ⟨(remote, s.hello), input, ?_, ?_, hsome⟩
    · rw [PairingSession.hellos, hremote, hrole, Option.map_some]
    · exact transcriptInput_eq_ok.mpr
        ⟨⟨hother, hrole⟩, ⟨hwell.encodable, hlocal.encodable⟩, hbytes⟩

theorem transcriptInput_inj {listener' connector' : Hello}
    (h : transcriptInput listener connector = .ok input)
    (h' : transcriptInput listener' connector' = .ok input) :
    listener = listener' ∧ connector = connector' := by
  obtain ⟨-, hmine, hbytes⟩ := transcriptInput_eq_ok.mp h
  obtain ⟨-, htheirs, hbytes'⟩ := transcriptInput_eq_ok.mp h'
  exact Prod.mk.inj (transcriptBytes_prefixFree.injOn hmine htheirs (hbytes.trans hbytes'.symm))

theorem pairing_transcript_unambiguous :
    (∀ hello : Hello, hello.WellFormed → ∃ encoded, hello.encode = .ok encoded ∧
      ∀ (reader : ChunkReader UInt8) rest, reader.bytes = encoded ++ rest →
        ∃ later, Hello.readFromChunks reader hello.role = .ok (hello, later) ∧
          later.bytes = rest) ∧
    (∀ reader role hello later, Hello.readFromChunks reader role = .ok (hello, later) →
      hello.role = role ∧ hello.WellFormed ∧ ∃ encoded, hello.encode = .ok encoded ∧
        reader.bytes = encoded ++ later.bytes) ∧
    (∀ digest listener connector, pairingTranscript digest listener connector =
      (transcriptInput listener connector).map digest) ∧
    (∀ listener connector listener' connector' input,
      transcriptInput listener connector = .ok input →
      transcriptInput listener' connector' = .ok input →
      listener = listener' ∧ connector = connector') ∧
    ∀ {digest start labels world}, PairingStart start →
      Run (PairingStep digest) start labels world →
      (∀ k hash, (world.sessions k).transcriptHash = some hash →
        ∃ hellos input, Hashed digest (world.sessions k) hellos input) ∧
      ∀ j k hellos hellos' input, Hashed digest (world.sessions j) hellos input →
        Hashed digest (world.sessions k) hellos' input → hellos = hellos' := by
  refine ⟨fun hello hwell => ?_, fun reader role hello later hread => ?_, pairingTranscript_eq_map,
    fun _ _ _ _ _ => transcriptInput_inj, fun hstart hrun => ⟨fun k hash hhash => ?_,
      fun j k hellos hellos' input hj hk => ?_⟩⟩
  · exact ⟨hello.bytes, Hello.encode_eq_ok.mpr ⟨hwell.encodable, rfl⟩,
      fun reader rest hreader => Hello.readFromChunks_bytes hwell hreader⟩
  · obtain ⟨hrole, hwell, hbytes⟩ := Hello.readFromChunks_ok hread
    exact ⟨hrole, hwell, hello.bytes, Hello.encode_eq_ok.mpr ⟨hwell.encodable, rfl⟩, hbytes⟩
  · have hworld := hrun.invariant (fun hinv hstep => hstep.trustworthy hinv) hstart.trustworthy
    exact (hworld.sane k).hashed hhash
  · obtain ⟨hlistener, hconnector⟩ := transcriptInput_inj hj.input hk.input
    exact Prod.ext hlistener hconnector

theorem pairing_transcript_unambiguous_met : ∃ encoded later labels world input,
    plainListener.encode = .ok encoded ∧
      Hello.readFromChunks (.bytewise (encoded ++ [7])) .listener = .ok (plainListener, later) ∧
      encoded ++ [7] = encoded ++ later.bytes ∧
      Run (PairingStep plainDigest)
        (facing (opening plainListener .starting) (opening plainConnector .starting) [] []) labels
        world ∧
      Hashed plainDigest (world.sessions 0) (plainListener, plainConnector) input ∧
      Hashed plainDigest (world.sessions 1) (plainListener, plainConnector) input ∧
      transcriptInput { plainListener with certificate := [5] } plainConnector ≠ .ok input := by
  obtain ⟨hread, haccepted, -, hinj, hruns⟩ := pairing_transcript_unambiguous
  obtain ⟨encoded, hencode, hreads⟩ := hread plainListener ⟨by decide, by decide⟩
  obtain ⟨later, hlater, -⟩ := hreads _ [7] (ChunkReader.bytes_bytewise _)
  obtain ⟨-, -, encoded', hencode', hbytes⟩ := haccepted _ _ _ _ hlater
  rw [hencode] at hencode'
  obtain rfl := Except.ok.inj hencode'
  rw [ChunkReader.bytes_bytewise] at hbytes
  obtain ⟨labels, hrun⟩ := plain_pairing
  obtain ⟨hhashed, hsame⟩ := hruns facing_start hrun
  obtain ⟨hellos, input, hfirst⟩ := hhashed 0 _ rfl
  obtain rfl : (plainListener, plainConnector) = hellos := Option.some.inj hfirst.hellos
  have hsecond : Hashed plainDigest ((bothPending plainListener plainConnector (plainDigest
      (transcriptBytes plainListener plainConnector))).sessions 1)
      (plainListener, plainConnector) input := ⟨rfl, hfirst.input, hfirst.hash⟩
  refine ⟨encoded, later, labels, _, input, hencode, hlater, hbytes, hrun, hfirst, ?_, fun hother => ?_⟩
  · exact hsame 0 1 _ _ _ hfirst hsecond ▸ hsecond
  · have hcertificate := congrArg Hello.certificate (hinj _ _ _ _ _ hother hfirst.input).1
    cases hcertificate

end ClipFerry.Pairing
