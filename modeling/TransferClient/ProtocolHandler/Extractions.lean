import TransferClient.ProtocolHandler.Exchanges
import TransferClient.Socket.Memory

namespace TransferClient

open Interaction Bytes Client ServerRequests ServerResponses

-- How much of a payload the client takes apart: the checksum at the end of an answer to
-- the file, the client id in front of the AES key.
def extracted (requestCode code : UInt16) : Nat :=
  if requestCode = SEND_FILE ∧ code = FILE_RECEIVED_CRC_OK then 4
  else if requestCode = SEND_PUBLIC_KEY ∧ code = RECEIVED_PUBLIC_KEY_SEND_AES then 16
  else 0

-- No extraction leaves its payload: `substr` does not throw, nothing undefined happens but
-- in the checksum of a file, and a payload that is too short makes the flow return `false`.
structure ExtractsInBounds (execution : Execution Ans Stop Bool World) : Prop where
  noException : execution.outcome ≠ .error (.thrown .outOfRange)
  inMemory : execution.outcome = .error .undefined →
    ∃ path reading, execution.trace.getLast? = some ⟨.ifstreamAte path, reading⟩
  shortFails : EachAnswered
    (fun request _ response _ =>
      response.payload.length < extracted request.code response.code →
      execution.outcome = .ok false)
    execution.steps

-- The server and the transport leave room for every extraction.
def RoomForExtractions (execution : Execution Ans Stop Bool World) : Prop :=
  EachAnswered
    (fun request world _ _ =>
      extracted request.code (world.socket.codeLeft (world.memory world.clock)) ≤ world.socket.delivered)
    execution.steps

theorem trailingCRC_eq_none_iff (payload : List UInt8) :
    trailingCRC payload = none ↔ payload.length < 4 := by
  by_cases hlength : 4 ≤ payload.length
  · rw [trailingCRC, if_pos hlength]
    exact iff_of_false (by simp) (by omega)
  · rw [trailingCRC, if_neg hlength]
    exact iff_of_true rfl (by omega)

-- A run that ends with an exchange whose payload is too short.
def EndsShort (trace : Trace) : Prop :=
  ∃ past request response, trace = past ++ [sent request, got response] ∧
    response.payload.length < extracted request.code response.code

-- A run that ends with the checksum of a file.
def EndsReading (trace : Trace) : Prop :=
  ∃ path reading, trace.getLast? = some ⟨.ifstreamAte path, reading⟩

-- What a run ends with when it throws `out_of_range`, or when nothing is defined any more.
structure Accounted {α : Type} (trace : Trace) (outcome : Except Stop α) : Prop where
  outOfRange : outcome = .error (.thrown .outOfRange) → EndsShort trace
  undefined : outcome = .error .undefined → EndsShort trace ∨ EndsReading trace

theorem EndsShort.append_left {second : Trace} (hshort : EndsShort second) (first : Trace) :
    EndsShort (first ++ second) := by
  obtain ⟨past, request, response, rfl, hlength⟩ := hshort
  exact ⟨first ++ past, request, response, by rw [List.append_assoc], hlength⟩

theorem EndsReading.append_left {second : Trace} (hreading : EndsReading second) (first : Trace) :
    EndsReading (first ++ second) := by
  obtain ⟨path, reading, hlast⟩ := hreading
  exact ⟨path, reading, by rw [List.getLast?_append, hlast, Option.some_or]⟩

theorem Accounted.append_left {α : Type} {second : Trace} {outcome : Except Stop α}
    (haccounted : Accounted second outcome)
    (first : Trace) : Accounted (first ++ second) outcome where
  outOfRange h := (haccounted.outOfRange h).append_left first
  undefined h := (haccounted.undefined h).imp (·.append_left first) (·.append_left first)

theorem accounted_ok {α : Type} (trace : Trace) (value : α) :
    Accounted trace (.ok value : Except Stop α) where
  outOfRange h := by cases h
  undefined h := by cases h

-- Every other exception needs no account.
theorem accounted_thrown {α : Type} (trace : Trace) (exception : Exception)
    (hne : exception ≠ .outOfRange) :
    Accounted trace (.error (.thrown exception) : Except Stop α) where
  outOfRange h := by
    cases h
    exact absurd rfl hne
  undefined h := by cases h

namespace ProtocolHandler

variable {crypto : CryptoPP} {self : ProtocolHandler}

theorem Round.accounted {file : Request} {clientId : ClientId} (hfile : file.code = SEND_FILE)
    {round : Trace} {stop : Stop} (hround : Round self file clientId round (.error stop)) :
    Accounted round (.error stop : Except Stop Bool) := by
  cases hround with
  | short answer hcode hcrc =>
      have hlength := (trailingCRC_eq_none_iff _).mp hcrc
      have hshort : EndsShort [sent file, got answer] :=
        ⟨[], file, answer, rfl, by rwa [extracted, if_pos ⟨hfile, hcode⟩]⟩
      exact ⟨fun _ => hshort, fun _ => .inl hshort⟩
  | unread answer received reading stop hcode hcrc hread =>
      constructor
      · intro h
        rw [Except.error.injEq] at h
        rcases crcOf_error hread with hstop | hstop <;> rw [hstop] at h <;> cases h
      · exact fun _ => .inr ⟨self.filePath, reading, rfl⟩

theorem Retries.accounted {file : Request} {clientId : ClientId} (hfile : file.code = SEND_FILE)
    {maxRetries : Nat} {failed : List Trace} {trace : Trace} {outcome : Except Stop Bool}
    (hretries : Retries self file clientId maxRetries failed trace outcome) :
    Accounted trace outcome := by
  cases hretries with
  | exhausted buffer reply hfailed hlength => exact accounted_ok _ _
  | settled last status hfailed hlength hlast => exact accounted_ok _ _
  | stopped last stop hfailed hlength hlast => exact (hlast.accounted hfile).append_left _

theorem FileSending.accounted {encrypted_aes_key privateKey : List UInt8} {clientId : ClientId}
    {trace : Trace} {outcome : Except Stop Bool}
    (hsending : FileSending crypto self encrypted_aes_key privateKey clientId trace outcome) :
    Accounted trace outcome := by
  cases hsending with
  | noAesKey => exact accounted_thrown _ _ (by simp)
  | noFile aes_key => exact accounted_thrown _ _ (by simp)
  | wrongKey aes_key contents hlength => exact accounted_thrown _ _ (by simp)
  | noBlock aes_key contents hlength => exact accounted_thrown _ _ (by simp)
  | sending aes_key contents iv buffer payload failed trace outcome hlength hpayload hretries =>
      exact (hretries.accounted rfl).append_left _

theorem Approved.accounted {clientId : ClientId} {trace : Trace} {outcome : Except Stop Bool}
    (happroved : Approved crypto self clientId trace outcome) : Accounted trace outcome := by
  cases happroved with
  | unkeyed trace stop hkeying =>
      cases hkeying with
      | noKeys => exact accounted_thrown _ _ (by simp)
      | noKeyFile keys buffer => exact accounted_thrown _ _ (by simp)
      | noMeInfo keys buffer => exact accounted_thrown _ _ (by simp)
  | refused trace answer privateKey hkeying hcode => exact accounted_ok _ _
  | short trace answer privateKey hkeying hcode hlength =>
      cases hkeying with
      | offered keys buffer answer =>
          have hshort : EndsShort [sent (self.pubkeyRequest clientId keys.publicKey buffer), got answer] :=
            ⟨[], _, answer, rfl, by rwa [extracted, if_neg (by simp [pubkeyRequest, SEND_PUBLIC_KEY, SEND_FILE]),
              if_pos ⟨rfl, hcode⟩]⟩
          suffices hend : EndsShort _ from ⟨fun _ => hend, fun _ => .inl hend⟩
          exact (hshort.append_left [_, _, _, _]).append_left (keysMade keys buffer)
  | keyed trace answer privateKey rest outcome hkeying hcode hlength hsending =>
      exact hsending.accounted.append_left _

theorem Registration.accounted {trace : Trace} {outcome : Except Stop Bool}
    (hregistration : Registration crypto self trace outcome) : Accounted trace outcome := by
  cases hregistration with
  | refused buffer answer hcode => exact accounted_ok _ _
  | approved buffer answer rest outcome hcode happroved => exact happroved.accounted.append_left _

theorem Reconnection.accounted {trace : Trace} {outcome : Except Stop Bool}
    (hreconnection : Reconnection crypto self trace outcome) : Accounted trace outcome := by
  cases hreconnection with
  | rejected buffer answer rest outcome hcode hregistration =>
      exact hregistration.accounted.append_left _
  | refused buffer answer hreject happrove => exact accounted_ok _ _
  | approved buffer answer rest outcome hcode happroved => exact happroved.accounted.append_left _

-- A payload that is too short is taken apart all the same.
theorem Exchanged.short {outcome : Except Stop Bool} {request : Request} {response : Response}
    {future : Trace} (hexchange : Exchanged self outcome request response future)
    (hshort : response.payload.length < extracted request.code response.code) :
    outcome ≠ .ok false := by
  have hcodes : (request.code = SEND_FILE ∧ response.code = FILE_RECEIVED_CRC_OK ∧ response.payload.length < 4) ∨
      (request.code = SEND_PUBLIC_KEY ∧ response.code = RECEIVED_PUBLIC_KEY_SEND_AES ∧
        response.payload.length < 16) := by
    unfold extracted at hshort
    split at hshort
    · rename_i hfile
      exact .inl ⟨hfile.1, hfile.2, hshort⟩
    · split at hshort
      · rename_i hkey
        exact .inr ⟨hkey.1, hkey.2, hshort⟩
      · omega
  cases hexchange with
  | refused requestCode answer hcode hanswer houtcome =>
      rcases hcode with rfl | rfl <;> simp [connectionRequest, REGISTRATION, RECONNECT, SEND_FILE,
        SEND_PUBLIC_KEY] at hcodes
  | admitted requestCode answer future hcode hanswer hfuture =>
      rcases hcode with rfl | rfl <;> simp [connectionRequest, REGISTRATION, RECONNECT, SEND_FILE,
        SEND_PUBLIC_KEY] at hcodes
  | unkeyed request answer hrequest hcode houtcome =>
      simp [hrequest, hcode, SEND_PUBLIC_KEY, SEND_FILE] at hcodes
  | keyShort request answer hrequest hcode hlength houtcome => simp [houtcome]
  | keyed request answer future hrequest hcode hlength hfuture =>
      simp only [hrequest, SEND_PUBLIC_KEY, SEND_FILE] at hcodes
      omega
  | unchecked file answer future hfile hcode honward =>
      simp [hfile, hcode, SEND_PUBLIC_KEY, SEND_FILE] at hcodes
  | crcShort file answer hfile hcode hcrc houtcome => simp [houtcome]
  | checked file answer received reading rest hfile hcode hcrc =>
      have hroom : ¬response.payload.length < 4 := by
        rw [← trailingCRC_eq_none_iff, hcrc]
        exact Option.some_ne_none received
      simp [hfile, SEND_PUBLIC_KEY, SEND_FILE] at hcodes
      omega
  | resend request reply future hcode honward =>
      simp [hcode, CRC_INCORRECT_RESEND, SEND_FILE, SEND_PUBLIC_KEY] at hcodes
  | done request reply hcode houtcome =>
      simp [hcode, CRC_INCORRECT_DONE, SEND_FILE, SEND_PUBLIC_KEY] at hcodes
  | verdict request reply hcode houtcome =>
      simp [hcode, CRC_CORRECT, SEND_FILE, SEND_PUBLIC_KEY] at hcodes

end ProtocolHandler

-- The room is there when every response that the run sees has it.
theorem roomForExtractions_iff {P : Request → Response → Trace → Prop} {program : Client Bool}
    {world : World} (htrace : AtEachAnswer P (program.exec World.handler world).trace) :
    RoomForExtractions (program.exec World.handler world) ↔
      EachAnswered
        (fun request _ response _ => extracted request.code response.code ≤ response.payload.length)
        (program.exec World.handler world).steps := by
  have hanswer (request : Request) (before : World) :
      extracted request.code (before.socket.codeLeft (before.memory before.clock)) ≤ before.socket.delivered ↔
        extracted request.code (before.socket.getResponse (before.memory before.clock)).1.code ≤
          (before.socket.getResponse (before.memory before.clock)).1.payload.length := by
    rw [Socket.getResponse_code, Socket.length_getResponse_payload]
  constructor
  · intro hroom past asking answering future hsteps request response hasking hanswering
    obtain ⟨_, rfl⟩ :=
      htrace.exec past asking answering future hsteps request response hasking hanswering
    exact (hanswer _ _).mp (hroom past asking answering future hsteps request _ hasking hanswering)
  · intro hroom past asking answering future hsteps request response hasking hanswering
    obtain ⟨_, rfl⟩ :=
      htrace.exec past asking answering future hsteps request response hasking hanswering
    exact (hanswer _ _).mpr (hroom past asking answering future hsteps request _ hasking hanswering)

theorem extractsInBounds_of_exchanges (self : ProtocolHandler) (program : Client Bool)
    (world : World)
    (hexchanges : AtEachAnswer (self.Exchanged (program.exec World.handler world).outcome)
      (program.exec World.handler world).trace)
    (haccounted : Accounted (program.exec World.handler world).trace
      (program.exec World.handler world).outcome) :
    ExtractsInBounds (program.exec World.handler world) ↔
      RoomForExtractions (program.exec World.handler world) := by
  rw [roomForExtractions_iff hexchanges]
  constructor
  · intro hbounds past asking answering future hsteps request response hasking hanswering
    obtain ⟨hexchange, _⟩ := hexchanges.exec past asking answering future hsteps request response hasking
      hanswering
    by_contra hshort
    have hlength : response.payload.length < extracted request.code response.code := by omega
    exact hexchange.short hlength
      (hbounds.shortFails past asking answering future hsteps request response hasking hanswering hlength)
  · intro hroom
    have hnotShort : ¬EndsShort (program.exec World.handler world).trace := by
      rintro ⟨past, request, response, htrace, hshort⟩
      obtain ⟨first, rest, hsteps, _, hrest⟩ := List.map_eq_append_iff.mp htrace
      obtain ⟨asking, last, rfl, hasking, hlast⟩ := List.map_eq_cons_iff.mp hrest
      obtain ⟨answering, future, rfl, hanswering, _⟩ := List.map_eq_cons_iff.mp hlast
      have hlength : extracted request.code response.code ≤ response.payload.length :=
        hroom first asking answering future hsteps request response hasking hanswering
      omega
    constructor
    · exact fun h => hnotShort (haccounted.outOfRange h)
    · exact fun h => (haccounted.undefined h).resolve_left hnotShort
    · intro past asking answering future hsteps request response hasking hanswering hshort
      have hlength : extracted request.code response.code ≤ response.payload.length :=
        hroom past asking answering future hsteps request response hasking hanswering
      omega

namespace ProtocolHandler

-- Both flows take payloads apart within their bounds exactly when the server sends enough.
theorem extractsInBounds_iff (crypto : CryptoPP) (self : ProtocolHandler) (world : World) :
    (ExtractsInBounds ((self.handleRegistration crypto).exec World.handler world) ↔
      RoomForExtractions ((self.handleRegistration crypto).exec World.handler world)) ∧
    (ExtractsInBounds ((self.handleReconnection crypto).exec World.handler world) ↔
      RoomForExtractions ((self.handleReconnection crypto).exec World.handler world)) := by
  constructor
  · have hruns := Prog.exec_runs World.handler (self.handleRegistration crypto) world
    have hregistration := self.handleRegistration_registration crypto _ _ hruns
    exact extractsInBounds_of_exchanges self _ world hregistration.exchanges.2
      hregistration.accounted
  · have hruns := Prog.exec_runs World.handler (self.handleReconnection crypto) world
    have hreconnection := self.handleReconnection_reconnection crypto _ _ hruns
    exact extractsInBounds_of_exchanges self _ world hreconnection.exchanges hreconnection.accounted

-- An empty payload behind the code 2102, and one behind the code 2103.
theorem empty_payloads_taken_apart :
    ¬ExtractsInBounds ((Sample.client.handleRegistration Sample.crypto).exec World.handler
      (Sample.world [Sample.approval 2100, Sample.bare 2102])) ∧
    ¬ExtractsInBounds ((Sample.client.handleRegistration Sample.crypto).exec World.handler
      (Sample.world [Sample.approval 2100, Sample.frame 2102 (List.replicate 20 1), Sample.bare 2103])) := by
  constructor
  · intro hbounds
    exact hbounds.noException (by decide +kernel)
  · intro hbounds
    have hundefined : ((Sample.client.handleRegistration Sample.crypto).exec World.handler
        (Sample.world [Sample.approval 2100, Sample.frame 2102 (List.replicate 20 1),
          Sample.bare 2103])).outcome = .error .undefined := by decide +kernel
    obtain ⟨path, reading, hlast⟩ := hbounds.inMemory hundefined
    cases hlast

end ProtocolHandler

end TransferClient
