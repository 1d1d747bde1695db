import ClipFerry.Client.Delivery

namespace ClipFerry.Client

open Checked Protocol Server Transition

variable {server : ServerState} {system system' : System} {t u s : Nat}
  {rpc : Rpc TransferCredentials} {source : RemoteSource TransferCredentials}
  {credentials : TransferCredentials} {offset : UInt64} {requested : Nat}
  {status : TransferStatus} {bytes response : List UInt8}

def Exchange.command : Exchange → Option Command
  | .trying command | .locked command | .awaiting command _ | .responded command _ => some command
  | .idle | .failed _ => none

theorem Exchange.ne_idle {exchange : Exchange} {command : Command}
    (h : exchange.command = some command) : exchange ≠ .idle := by
  rintro rfl
  cases h

def Issued (system : System) (t : Nat) : Prop :=
  system.exchanges t = .idle ∨ ∃ s pc rpc, system.client.At t s pc ∧ pc.rpc s = some rpc ∧
    ∀ command, (system.exchanges t).command = some command →
      ∃ nonce source, rpc.encode nonce source = .ok (command.opcode, command.payload)

theorem Issued.kept (hi : Issued system u) (hclient : system'.client = system.client)
    (hexchange : system'.exchanges u = system.exchanges u) : Issued system' u := by
  rw [Issued, hclient, hexchange]
  exact hi

theorem Issued.moved (hi : Issued system t) (hclient : system'.client = system.client)
    (hbusy : system.exchanges t ≠ .idle)
    (hcommand : ∀ command, (system'.exchanges t).command = some command →
      (system.exchanges t).command = some command) : Issued system' t := by
  rcases hi with hidle | ⟨s, pc, rpc, hat, hrpc, hissued⟩
  · exact absurd hidle hbusy
  · exact .inr ⟨s, pc, rpc, by rw [hclient]; exact hat, hrpc,
      fun command h => hissued command (hcommand command h)⟩

theorem Issued.setExchange (hi : ∀ u, Issued system u) {exchange : Exchange}
    (hclient : system'.client = system.client)
    (hexchanges : system'.exchanges = Function.update system.exchanges t exchange)
    (hbusy : system.exchanges t ≠ .idle)
    (hcommand : ∀ command, exchange.command = some command →
      (system.exchanges t).command = some command) (u : Nat) : Issued system' u := by
  by_cases hut : u = t
  · subst hut
    refine (hi u).moved hclient hbusy fun command h => hcommand command ?_
    rwa [hexchanges, Function.update_self] at h
  · exact (hi u).kept hclient (by rw [hexchanges, Function.update_of_ne hut])

theorem Issued.step {l : SystemLabel} (hi : ∀ u, Issued system u)
    (h : SystemStep server system l system') (u : Nat) : Issued system' u := by
  cases h with
  | client hl h =>
    rcases hi u with hidle | ⟨s, pc, rpc, hat, hrpc, hissued⟩
    · exact .inl hidle
    · refine .inr ⟨s, pc, rpc, h.waiting ?_ hat (by rw [hrpc]; exact Option.some_ne_none _), hrpc,
        hissued⟩
      rintro reply rfl
      cases hl
  | world | link => exact (hi u).kept rfl rfl
  | @issue t rpc source nonce opcode payload hasks hidle hencode =>
    by_cases hut : u = t
    · subst hut
      obtain ⟨s, pc, hat, hrpc, -⟩ := hasks
      refine .inr ⟨s, pc, rpc, hat, hrpc, fun command hcommand => ?_⟩
      simp only [System.setExchange, Function.update_self, Exchange.command,
        Option.some.injEq] at hcommand
      subst hcommand
      exact ⟨nonce, source, hencode⟩
    · exact (hi u).kept rfl (Function.update_of_ne hut _ _)
  | @notIssued t rpc source error hasks hidle =>
    by_cases hut : u = t
    · subst hut
      obtain ⟨s, pc, hat, hrpc, -⟩ := hasks
      refine .inr ⟨s, pc, rpc, hat, hrpc, fun command hcommand => ?_⟩
      simp only [System.setExchange, Function.update_self, Exchange.command] at hcommand
      cases hcommand
    · exact (hi u).kept rfl (Function.update_of_ne hut _ _)
  | giveUp error htrying =>
    exact Issued.setExchange hi (by rfl) (by rfl) (Exchange.ne_idle (by rw [htrying]; rfl))
      (fun _ hcommand => by cases hcommand) u
  | lock htrying =>
    exact Issued.setExchange hi (by rfl) (by rfl) (Exchange.ne_idle (by rw [htrying]; rfl))
      (by rw [htrying]; exact fun _ => id) u
  | connect => exact (hi u).kept rfl rfl
  | send hlocked =>
    exact Issued.setExchange hi (by rfl) (by rfl) (Exchange.ne_idle (by rw [hlocked]; rfl))
      (by rw [hlocked]; exact fun _ => id) u
  | receive hawaiting =>
    exact Issued.setExchange hi (by rfl) (by rfl) (Exchange.ne_idle (by rw [hawaiting]; rfl))
      (by rw [hawaiting]; exact fun _ => id) u
  | @lose t command error hholds =>
    have hheld : (system.exchanges t).command = some command := by
      rcases hholds with h | ⟨_, h⟩ <;> rw [h] <;> rfl
    exact Issued.setExchange hi (by rfl) (by rfl) (Exchange.ne_idle hheld)
      (fun _ hcommand => by cases hcommand) u
  | @retry t command error hholds =>
    have hheld : (system.exchanges t).command = some command := by
      rcases hholds with h | ⟨_, h⟩ <;> rw [h] <;> rfl
    exact Issued.setExchange hi (by rfl) (by rfl) (Exchange.ne_idle hheld)
      (by rw [hheld]; exact fun _ => id) u
  | @answer t rpc source outcome client hasks houtcome h =>
    by_cases hut : u = t
    · subst hut
      exact .inl (Function.update_self ..)
    · rcases hi u with hidle | ⟨s, pc, rpc', hat, hrpc, hissued⟩
      · exact .inl ((Function.update_of_ne hut _ _).trans hidle)
      · refine .inr ⟨s, pc, rpc', h.waiting ?_ hat (by rw [hrpc]; exact Option.some_ne_none _),
          hrpc, ?_⟩
        · rintro reply heq
          cases heq
          exact hut rfl
        · intro command hcommand
          simp only [System.setExchange, Function.update_of_ne hut] at hcommand
          exact hissued command hcommand

theorem encode_readRange {nonce : Secret} {opcode : Opcode} {payload : List UInt8}
    (h : Rpc.encode nonce source (.readRange credentials offset requested) =
      .ok (opcode, payload)) (peer : CertificateFingerprint) (checkedAt readAt : Nat) :
    opcode = .readRange ∧ dispatchRequest server checkedAt readAt peer opcode payload =
      .call (.readRange peer { credentials with expiresAtMillis := 0 } offset.toNat requested) := by
  rw [Rpc.encode, bind_eq_ok] at h
  obtain ⟨encoded, hencoded, h⟩ := h
  cases h
  rw [readPayload, guard_eq_ok, guard_eq_ok] at hencoded
  obtain ⟨-, hfits, hpayload⟩ := hencoded
  cases hpayload
  have hcount : (UInt32.ofNat requested).toNat = requested :=
    UInt32.toNat_ofNat_of_lt' (by simpa using hfits)
  refine ⟨rfl, ?_⟩
  rw [dispatchRequest, readRequest_encode, hcount]
  rfl

theorem reply_eq_decode {outcome : Except IoError (List UInt8)} {answer : Reply TransferCredentials}
    (h : rpc.reply source outcome = answer) (hanswer : ∀ error, answer ≠ .failed error) :
    ∃ response, outcome = .ok response ∧ rpc.decode source response = .ok answer := by
  cases outcome with
  | error error => exact absurd h.symm (hanswer error)
  | ok response =>
    refine ⟨response, rfl, ?_⟩
    simp only [Rpc.reply, Except.bind] at h
    cases hdecode : rpc.decode source response with
    | error error =>
      rw [hdecode] at h
      exact absurd h.symm (hanswer error)
    | ok answer' =>
      rw [hdecode] at h
      exact congrArg Except.ok h

theorem reply_range {outcome : Except IoError (List UInt8)}
    (h : Rpc.reply source (.readRange credentials offset requested) outcome =
      .range status bytes) :
    ∃ response, outcome = .ok response ∧ decodeRange requested response = .ok (status, bytes) := by
  obtain ⟨response, rfl, hdecode⟩ := reply_eq_decode h nofun
  refine ⟨response, rfl, ?_⟩
  rw [Rpc.decode, bind_eq_ok] at hdecode
  obtain ⟨result, hrange, heq⟩ := hdecode
  cases heq
  exact hrange

theorem reply_began {outcome : Except IoError (List UInt8)}
    (h : rpc.reply source outcome = .began credentials) :
    credentials.fileId = source.fileId := by
  obtain ⟨response, rfl, hdecode⟩ := reply_eq_decode h nofun
  cases rpc with
  | beginTransfer r =>
    rw [Rpc.decode, bind_eq_ok] at hdecode
    obtain ⟨result, hbegin, heq⟩ := hdecode
    cases heq
    exact decodeBegin_names hbegin
  | readRange | control | status =>
    rw [Rpc.decode, bind_eq_ok] at hdecode
    obtain ⟨result, -, heq⟩ := hdecode
    cases heq

theorem responded_range {opcode : Opcode} {payload : List UInt8} {nonce : Secret}
    (hencode : Rpc.encode nonce source (.readRange credentials offset requested) =
      .ok (opcode, payload)) (hresponded : Responded server opcode payload response)
    (hdecode : decodeRange requested response = .ok (status, bytes)) :
    (status.state = .paused ∧ bytes = []) ∨ (bytes.length ≤ requested ∧
      ∃ read file entry, FromSource server credentials.fileId offset.toNat requested read bytes
        file entry) := by
  cases hresponded with
  | manifest _ _ hopcode =>
    obtain ⟨hread, -⟩ := @encode_readRange server _ _ _ _ _ _ _ hencode ⟨repeatedSecret 0⟩ 0 0
    cases hread.symm.trans hopcode
  | malformed | refused => exact absurd hdecode (decodeRange_short (by simp))
  | @answer peer request answer hrequest hsuits hanswered =>
    cases (hrequest 0 0).symm.trans (encode_readRange hencode peer 0 0).2
    cases answer with
    | connected | began | status => cases hsuits
    | range found read =>
      obtain ⟨hstate, rfl, hlength⟩ := decodeRange_respond hdecode
      rcases hanswered with ⟨hpaused, hempty⟩ | ⟨n, _, _, _, _, file, entry, heq, hsource⟩
      · exact .inl ⟨hstate.trans hpaused, hempty⟩
      · cases heq
        exact .inr ⟨hlength, n, file, entry, hsource⟩

def Faithful (server : ServerState) (source : RemoteSource TransferCredentials) :
    Rpc TransferCredentials → Reply TransferCredentials → Prop
  | .readRange credentials offset requested, .range status bytes =>
    (status.state = .paused ∧ bytes = []) ∨ (bytes.length ≤ requested ∧
      ∃ read file entry, FromSource server credentials.fileId offset.toNat requested read bytes
        file entry)
  | _, .began credentials => credentials.fileId = source.fileId
  | _, _ => True

theorem faithful_reply (hwired : Wired server system) (hissued : Issued system t)
    (hasks : system.Asks t rpc source) {outcome : Except IoError (List UInt8)}
    (houtcome : (system.exchanges t).outcome = some outcome) :
    Faithful server source rpc (rpc.reply source outcome) := by
  cases hreply : rpc.reply source outcome with
  | began c =>
    cases rpc <;> exact reply_began hreply
  | status status | failed error => cases rpc <;> trivial
  | range status bytes =>
    cases rpc with
    | beginTransfer | control | status => trivial
    | readRange c offset requested =>
      obtain ⟨response, rfl, hdecode⟩ := reply_range hreply
      obtain ⟨s, pc, hat, hrpc, -⟩ := hasks
      cases hexchange : system.exchanges t with
      | responded command body =>
        rw [hexchange] at houtcome
        cases houtcome
        rcases hissued with hidle | ⟨r, pc', rpc', hat', hrpc', hcommand⟩
        · cases hidle.symm.trans hexchange
        · obtain ⟨rfl, rfl⟩ := hat.unique hat'
          cases hrpc.symm.trans hrpc'
          obtain ⟨nonce, issuer, hencode⟩ := hcommand command (by rw [hexchange]; rfl)
          exact responded_range hencode (hwired.responded hexchange) hdecode
      | idle | trying | locked | awaiting | failed => simp [hexchange, Exchange.outcome] at houtcome

end ClipFerry.Client
