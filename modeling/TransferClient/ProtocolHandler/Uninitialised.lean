import TransferClient.FileHandler.Runs
import TransferClient.Interaction.Lockstep
import TransferClient.ProtocolHandler.Payloads
import TransferClient.ProtocolHandler.Runs
import TransferClient.Socket.Memory
import TransferClient.Steps

namespace TransferClient

open Interaction Bytes Client ServerRequests ServerResponses

-- Two worlds that differ in nothing but what their memory holds.
structure Twins (world other : World) : Prop where
  clock : world.clock = other.clock
  replies : world.replies = other.replies
  socket : world.socket = other.socket
  upcoming : world.upcoming = other.upcoming

-- The operations that the memory has no part in.
def Outside : Op → Prop
  | .newArray _ | .sendRequest _ | .getResponse => False
  | .socket | .connect _ _ | .ifstream _ | .ifstreamAte _ | .ofstream _ | .put _ _ => True
  | .generateKeyPair | .rsaDecrypt _ _ | .generateBlock => True

namespace Twins

theorem outside {world other : World} (htwins : Twins world other) (op : Op) (hop : Outside op) :
    (World.handler op world).1 = (World.handler op other).1 ∧
      Twins (World.handler op world).2 (World.handler op other).2 := by
  obtain ⟨clock, memory, replies, socket, upcoming⟩ := world
  obtain ⟨clock', memory', replies', socket', upcoming'⟩ := other
  obtain ⟨hclock, hreplies, hsocket, hupcoming⟩ := htwins
  cases hclock
  cases hreplies
  cases hsocket
  cases hupcoming
  cases op with
  | newArray size => exact False.elim hop
  | sendRequest request => exact False.elim hop
  | getResponse => exact False.elim hop
  | _ => exact ⟨rfl, ⟨rfl, rfl, rfl, rfl⟩⟩

theorem newArray {world other : World} (htwins : Twins world other) (size : Nat) :
    Twins (World.handler (.newArray size) world).2 (World.handler (.newArray size) other).2 :=
  ⟨congrArg (· + 1) htwins.clock, htwins.replies, htwins.socket, htwins.upcoming⟩

theorem sendRequest {world other : World} (htwins : Twins world other) (request : Request) :
    Twins (World.handler (.sendRequest request) world).2
      (World.handler (.sendRequest request) other).2 := by
  refine ⟨congrArg (· + 1) htwins.clock, htwins.replies, ?_, htwins.upcoming⟩
  show world.socket.sendRequest _ request = other.socket.sendRequest _ request
  rw [Socket.sendRequest_frame, Socket.sendRequest_frame, htwins.socket]

-- The response is the same when its header comes whole, and the stream behind it always.
theorem getResponse {world other : World} (htwins : Twins world other) :
    Twins (World.handler .getResponse world).2 (World.handler .getResponse other).2 ∧
      (world.socket.headerArrives = true →
        (World.handler .getResponse world).1 = (World.handler .getResponse other).1) := by
  have hmemory := Socket.getResponse_memory (world.memory world.clock) (other.memory other.clock)
    world.socket
  constructor
  · refine ⟨congrArg (· + 1) htwins.clock, htwins.replies, ?_, htwins.upcoming⟩
    show (world.socket.getResponse _).2 = (other.socket.getResponse _).2
    rw [← htwins.socket]
    exact hmemory.1
  · intro hheader
    show (world.socket.getResponse _).1 = (other.socket.getResponse _).1
    rw [← htwins.socket]
    exact hmemory.2 hheader

end Twins

def WritesMeInfo (trace : Trace) : Prop :=
  ∃ content count, (⟨.put ME_INFO_PATH content, count⟩ : Event Ans) ∈ trace

-- What a client reads of an exchange has been written: the code, unless it is not
-- looked at; the client id, if it is used; the checksum; the payload of a report.
structure AnswerInitialised (client : ProtocolHandler) (request : Request) (world : World)
    (response : Response) (future : Trace) : Prop where
  header : request.code = CRC_INCORRECT_RESEND ∨ request.code = CRC_INCORRECT_DONE ∨
    world.socket.headerArrives = true
  clientId : Approves (request, response) → WritesMeInfo future → 16 ≤ response.payload.length
  checksum : request.code = SEND_FILE → response.code = FILE_RECEIVED_CRC_OK →
    4 ≤ response.payload.length
  filePath : StatusCode request.code → 0 ∉ client.filePath

structure Initialised (client : ProtocolHandler) (steps : List (Step Ans World)) : Prop where
  answers : EachAnswered (AnswerInitialised client) steps
  readings : ∀ reading ∈ readings (steps.map Step.event), crcOf reading ≠ .error .undefined

theorem WritesMeInfo.append {first : Trace} (hwrites : WritesMeInfo first) (second : Trace) :
    WritesMeInfo (first ++ second) := by
  obtain ⟨content, count, hmem⟩ := hwrites
  exact ⟨content, count, List.mem_append_left second hmem⟩

theorem Initialised.of_append {client : ProtocolHandler} {first second : List (Step Ans World)}
    (hinitialised : Initialised client (first ++ second)) :
    Initialised client first ∧ Initialised client second := by
  obtain ⟨hanswers, hreadings⟩ := hinitialised
  rw [List.map_append, readings_append] at hreadings
  refine ⟨⟨hanswers.of_append_left ?_, ?_⟩, ⟨hanswers.of_append_right, ?_⟩⟩
  · intro request world response future rest hanswer
    obtain ⟨hheader, hclientId, hchecksum, hpath⟩ := hanswer
    exact ⟨hheader, fun ha hw => hclientId ha (hw.append rest), hchecksum, hpath⟩
  · intro reading hmem
    exact hreadings reading (List.mem_append_left _ hmem)
  · intro reading hmem
    exact hreadings reading (List.mem_append_right _ hmem)

namespace ProtocolHandler

-- Runs of twins are compared. Of the first one it is assumed that what it reads has
-- been written, and that `K` holds if it writes me.info.
def pairing (self : ProtocolHandler) (K : Prop) : Pairing Ans Stop World where
  handler := World.handler
  related := Twins
  stops stop := stop ≠ .undefined
  assumed steps := Initialised self steps ∧ (WritesMeInfo (steps.map Step.event) → K)
  of_append first second hassumed := by
    obtain ⟨hinitialised, hk⟩ := hassumed
    obtain ⟨hfirst, hsecond⟩ := hinitialised.of_append
    rw [List.map_append] at hk
    refine ⟨⟨hfirst, fun hwrites => hk (hwrites.append _)⟩, ⟨hsecond, ?_⟩⟩
    rintro ⟨content, count, hmem⟩
    exact hk ⟨content, count, List.mem_append_right _ hmem⟩

section Rules

variable {self : ProtocolHandler} {K : Prop}

theorem coupled_outside (op : Op) (hop : Outside op) :
    (self.pairing K).Coupled Eq (Prog.ask op) (Prog.ask op) :=
  Pairing.coupled_ask fun _ _ htwins => htwins.outside op hop

theorem coupled_newArray (size : Nat) :
    (self.pairing K).Coupled (fun _ _ => True) (newArray size) (newArray size) :=
  Pairing.coupled_ask fun _ _ htwins => ⟨trivial, htwins.newArray size⟩

theorem coupled_raise {α β : Type} {V : α → β → Prop} (exception : Exception) :
    (self.pairing K).Coupled V (raise exception) (raise exception) :=
  Pairing.coupled_throw fun h => by cases h

theorem coupled_ofOption {α : Type} (exception : Exception) (value : Option α) :
    (self.pairing K).Coupled Eq (ofOption exception value) (ofOption exception value) := by
  cases value with
  | none => exact coupled_raise exception
  | some value => exact Pairing.coupled_pure rfl

-- A run that writes me.info has `K`, so the content may depend on it.
theorem coupled_put_meInfo (content content' : List UInt8) (hcontent : K → content = content') :
    (self.pairing K).Coupled (fun _ _ => K) (put ME_INFO_PATH content)
    (put ME_INFO_PATH content') := by
  intro world other htwins hassumed
  have hk : K := hassumed.2 ⟨content, _, List.mem_singleton_self _⟩
  obtain rfl := hcontent hk
  have hput := (htwins.outside (.put ME_INFO_PATH content) trivial).2
  exact ⟨rfl, .ok _ _ hk, hput⟩

theorem coupled_readCrc (fname : List UInt8) :
    (self.pairing K).Coupled Eq (readCrc fname) (readCrc fname) := by
  intro world other htwins hassumed
  obtain ⟨hreading, hafter⟩ := htwins.outside (.ifstreamAte fname) trivial
  have hassumed := ((self.pairing K).of_append [_] _ hassumed).1
  have hdefined :=
    hassumed.1.readings (World.handler (.ifstreamAte fname) world).1 (by simp [readings]; rfl)
  refine Lockstep.call World.handler (.ifstreamAte fname) (fun reading => ofExcept (crcOf reading))
    (fun reading => ofExcept (crcOf reading)) world other ?_
  rw [← hreading]
  cases hcrc : crcOf (World.handler (.ifstreamAte fname) world).1 with
  | error stop =>
      rw [hcrc] at hdefined
      exact ⟨rfl, .error stop fun h => hdefined (congrArg _ h), hafter⟩
  | ok crcValue => exact ⟨rfl, .ok _ _ rfl, hafter⟩

theorem lockstep_exchange {α β : Type} {V : α → β → Prop} (request request' : Request)
    (next : Response → Client α) (next' : Response → Client β) (world other : World)
    (htwins : Twins world other)
    (hassumed : (self.pairing K).assumed
      ((Client.sendRequest request >>= fun _ => Client.getResponse >>= next).exec
        World.handler world).steps)
    (hrequest : (StatusCode request.code → 0 ∉ self.filePath) → request = request')
    (hnext : ∀ reading response response' after after', Twins after after' →
      AnswerInitialised self request reading response
        ((next response).exec World.handler after).trace →
      (request.code = CRC_INCORRECT_RESEND ∨ request.code = CRC_INCORRECT_DONE ∨ response = response') →
      (self.pairing K).assumed ((next response).exec World.handler after).steps →
      Lockstep Twins (· ≠ .undefined) V ((next response).exec World.handler after)
        ((next' response').exec World.handler after')) :
    Lockstep Twins (· ≠ .undefined) V
      ((Client.sendRequest request >>= fun _ => Client.getResponse >>= next).exec World.handler world)
      ((Client.sendRequest request' >>= fun _ => Client.getResponse >>= next').exec
        World.handler other) := by
  have hanswer : AnswerInitialised self request _ _ _ :=
    hassumed.1.answers [] _ _ _ rfl request _ rfl rfl
  obtain rfl := hrequest hanswer.filePath
  obtain ⟨hafter, hresponse⟩ := (htwins.sendRequest request).getResponse
  have hrest := (self.pairing K).of_append [_, _] _ hassumed
  apply Lockstep.call
  apply Lockstep.call
  refine hnext _ _ _ _ _ hafter hanswer ?_ hrest.2
  rcases hanswer.header with hcode | hcode | hheader
  · exact .inl hcode
  · exact .inr (.inl hcode)
  · exact .inr (.inr (hresponse hheader))

-- The same for an exchange whose response does not name the client.
theorem coupled_exchange {α β : Type} {V : α → β → Prop} (request request' : Request)
    (next : Response → Client α) (next' : Response → Client β)
    (hrequest : (StatusCode request.code → 0 ∉ self.filePath) → request = request')
    (hnext : ∀ response response',
      (request.code = CRC_INCORRECT_RESEND ∨ request.code = CRC_INCORRECT_DONE ∨ response = response') →
      (request.code = SEND_FILE → response.code = FILE_RECEIVED_CRC_OK → 4 ≤ response.payload.length) →
      (self.pairing K).Coupled V (next response) (next' response')) :
    (self.pairing K).Coupled V (Client.sendRequest request >>= fun _ => Client.getResponse >>= next)
      (Client.sendRequest request' >>= fun _ => Client.getResponse >>= next') := by
  intro world other htwins hassumed
  apply lockstep_exchange request request' next next' world other htwins hassumed hrequest
  intro reading response response' after after' hafter hanswer hresponse hrest
  exact hnext response response' hresponse hanswer.checksum after after' hafter hrest

end Rules

section Transfer

variable (crypto : CryptoPP) (self : ProtocolHandler) {K : Prop}

theorem sendCRCStatusRequest_coupled (clientId : ClientId) (code : UInt16)
    (hcode : StatusCode code) :
    (self.pairing K).Coupled
      (fun status status' => code = CRC_INCORRECT_RESEND ∨ code = CRC_INCORRECT_DONE ∨ status = status')
      (self.sendCRCStatusRequest clientId code) (self.sendCRCStatusRequest clientId code) := by
  unfold sendCRCStatusRequest
  apply Pairing.coupled_bind (coupled_newArray _)
  intro buffer buffer' _
  apply coupled_exchange
  · intro hpath
    exact self.statusRequest_memory clientId code (hpath hcode) buffer buffer'
  · intro response response' hresponse _
    apply Pairing.coupled_pure
    rcases hresponse with h | h | rfl
    · exact .inl h
    · exact .inr (.inl h)
    · exact .inr (.inr rfl)

theorem attempt_coupled (file : Request) (hfile : file.code = SEND_FILE) (clientId : ClientId) :
    (self.pairing K).Coupled Eq (self.attempt file clientId) (self.attempt file clientId) := by
  unfold attempt
  apply coupled_exchange
  · intro _
    rfl
  · intro response response' hresponse hchecksum
    have hcodes : SEND_FILE ≠ CRC_INCORRECT_RESEND ∧ SEND_FILE ≠ CRC_INCORRECT_DONE := by decide
    rw [hfile] at hresponse
    obtain rfl := (hresponse.resolve_left hcodes.1).resolve_left hcodes.2
    by_cases hcode : response.code = FILE_RECEIVED_CRC_OK
    · simp only [hcode, if_true]
      have hlength := hchecksum hfile hcode
      simp only [trailingCRC, hlength, if_true, Option.elim_some]
      apply Pairing.coupled_bind (Pairing.coupled_pure (V := Eq) rfl)
      rintro receivedCRC _ rfl
      apply Pairing.coupled_bind (coupled_readCrc _)
      rintro calculatedCRC _ rfl
      by_cases hmatch : receivedCRC = calculatedCRC
      · simp only [hmatch, if_true]
        apply Pairing.coupled_bind (self.sendCRCStatusRequest_coupled clientId _ (.inl rfl))
        rintro status status' (h | h | rfl)
        · exact absurd h (by decide)
        · exact absurd h (by decide)
        · exact Pairing.coupled_pure rfl
      · simp only [hmatch, if_false]
        apply Pairing.coupled_bind (self.sendCRCStatusRequest_coupled clientId _ (.inr (.inl rfl)))
        intro status status' _
        exact Pairing.coupled_pure rfl
    · simp only [hcode, if_false]
      exact Pairing.coupled_pure rfl

theorem retryLoop_coupled (file : Request) (hfile : file.code = SEND_FILE) (clientId : ClientId)
    (remaining : Nat) (retry_count : Int) :
    (self.pairing K).Coupled Eq (self.retryLoop file clientId remaining retry_count)
      (self.retryLoop file clientId remaining retry_count) := by
  induction remaining generalizing retry_count with
  | zero => exact Pairing.coupled_pure rfl
  | succ remaining ih =>
      unfold retryLoop
      apply Pairing.coupled_bind (self.attempt_coupled file hfile clientId)
      rintro result _ rfl
      cases result with
      | some status => exact Pairing.coupled_pure rfl
      | none => exact ih (retry_count + 1)

theorem handleRetrySendFile_coupled (file : Request) (hfile : file.code = SEND_FILE)
    (maxRetries : Int) (clientId : ClientId) :
    (self.pairing K).Coupled Eq (self.handleRetrySendFile file maxRetries clientId)
      (self.handleRetrySendFile file maxRetries clientId) := by
  unfold handleRetrySendFile
  apply Pairing.coupled_bind (self.retryLoop_coupled file hfile clientId _ _)
  rintro ⟨status, retry_count⟩ _ rfl
  by_cases hdone : retry_count = maxRetries
  · simp only [hdone, if_true]
    apply Pairing.coupled_bind (self.sendCRCStatusRequest_coupled clientId _ (.inr (.inr rfl)))
    intro confirmed confirmed' _
    exact Pairing.coupled_pure rfl
  · simp only [hdone, if_false]
    exact Pairing.coupled_pure rfl

-- The content is hex text, without a NUL.
theorem encrypt_with_aes_coupled (plaintext aes_key : List UInt8) :
    (self.pairing K).Coupled (fun content content' => content = content' ∧ 0 ∉ content)
      (CryptoHandler.encrypt_with_aes crypto plaintext aes_key)
      (CryptoHandler.encrypt_with_aes crypto plaintext aes_key) := by
  unfold CryptoHandler.encrypt_with_aes CryptoHandler.encrypt
  by_cases hlength : aes_key.length = 16
  · simp only [hlength, ne_eq, not_true_eq_false, if_false]
    apply Pairing.coupled_bind (V := Eq)
    · apply Pairing.coupled_bind (coupled_outside .generateBlock trivial)
      rintro block _ rfl
      apply Pairing.coupled_bind (coupled_ofOption _ block)
      rintro iv _ rfl
      exact Pairing.coupled_pure rfl
    · rintro encrypted _ rfl
      exact Pairing.coupled_pure ⟨rfl, null_notMem_hex encrypted⟩
  · simp only [hlength, ne_eq, not_false_eq_true, if_true]
    exact coupled_raise _

theorem createFilePayloadBuffer_coupled (fileName content : List UInt8) (hnull : 0 ∉ content) :
    (self.pairing K).Coupled Eq (createFilePayloadBuffer fileName content)
      (createFilePayloadBuffer fileName content) := by
  unfold createFilePayloadBuffer
  apply Pairing.coupled_bind (coupled_newArray _)
  intro buffer buffer' _
  apply Pairing.coupled_pure
  apply Subtype.ext
  exact createFilePayloadBuffer_memory fileName content hnull buffer buffer'

theorem openOutput_coupled (path : List UInt8) :
    (self.pairing K).Coupled Eq (FileHandler.openOutput path) (FileHandler.openOutput path) := by
  unfold FileHandler.openOutput
  apply Pairing.coupled_bind (coupled_outside (.ofstream path) trivial)
  rintro opened _ rfl
  exact coupled_ofOption _ _

theorem handleFileEncryptionAndSend_coupled (encrypted_aes_key privateKey : List UInt8)
    (clientId : ClientId) :
    (self.pairing K).Coupled Eq
      (self.handleFileEncryptionAndSend crypto encrypted_aes_key privateKey clientId)
      (self.handleFileEncryptionAndSend crypto encrypted_aes_key privateKey clientId) := by
  unfold handleFileEncryptionAndSend
  apply Pairing.coupled_bind (V := Eq)
  · apply Pairing.coupled_bind (coupled_outside (.rsaDecrypt encrypted_aes_key privateKey) trivial)
    rintro plain _ rfl
    exact coupled_ofOption _ plain
  · rintro aes_key _ rfl
    apply Pairing.coupled_bind (V := Eq)
    · apply Pairing.coupled_bind (coupled_outside (.ifstream self.filePath) trivial)
      rintro file _ rfl
      exact coupled_ofOption _ file
    · rintro fileContents _ rfl
      apply Pairing.coupled_bind (self.encrypt_with_aes_coupled crypto fileContents aes_key)
      rintro encrypted_content _ ⟨rfl, hnull⟩
      apply Pairing.coupled_bind (self.createFilePayloadBuffer_coupled _ encrypted_content hnull)
      rintro payloadBuffer _ rfl
      exact self.handleRetrySendFile_coupled _ rfl 3 clientId

end Transfer

section Keys

variable (crypto : CryptoPP) (self : ProtocolHandler) {K : Prop}

theorem writeToFile_coupled (filename content : List UInt8) :
    (self.pairing K).Coupled Eq (FileHandler.writeToFile filename content)
      (FileHandler.writeToFile filename content) := by
  unfold FileHandler.writeToFile
  apply Pairing.coupled_bind (self.openOutput_coupled filename)
  intro _ _ _
  apply Pairing.coupled_bind (coupled_outside (.put filename content) trivial)
  intro _ _ _
  exact Pairing.coupled_pure rfl

-- Two client ids that the memory left different do not get into me.info.
theorem saveMeInfo_coupled (clientName : List UInt8) (clientId clientId' : ClientId)
    (privateKey : List UInt8) :
    (self.pairing (clientId = clientId')).Coupled (fun _ _ => clientId = clientId')
      (FileHandler.saveMeInfo crypto clientName clientId privateKey)
      (FileHandler.saveMeInfo crypto clientName clientId' privateKey) := by
  rw [FileHandler.saveMeInfo_eq, FileHandler.saveMeInfo_eq]
  unfold FileHandler.writeToFile
  apply Pairing.coupled_bind (self.openOutput_coupled ME_INFO_PATH)
  intro _ _ _
  apply Pairing.coupled_bind (coupled_put_meInfo _ _ fun hclientId => by rw [hclientId])
  intro _ _ hclientId
  exact Pairing.coupled_pure hclientId

theorem handleRSARegistration_coupled (clientId clientId' : ClientId) :
    (self.pairing (clientId = clientId')).Coupled
      (fun result result' => result = result' ∧ clientId = clientId')
      (self.handleRSARegistration crypto clientId) (self.handleRSARegistration crypto clientId') := by
  unfold handleRSARegistration
  apply Pairing.coupled_bind (V := Eq)
  · apply Pairing.coupled_bind (coupled_outside .generateKeyPair trivial)
    rintro keys _ rfl
    exact coupled_ofOption _ keys
  · rintro keys _ rfl
    apply Pairing.coupled_bind (coupled_newArray _)
    intro buffer buffer' _
    apply Pairing.coupled_bind (self.writeToFile_coupled PRIVATE_KEY_PATH keys.privateKey)
    intro _ _ _
    apply Pairing.coupled_bind (self.saveMeInfo_coupled crypto _ clientId clientId' _)
    -- From here on me.info has been written: the two client ids are one.
    rintro _ _ hclientId
    apply coupled_exchange
    · intro _
      rw [← hclientId]
      exact self.pubkeyRequest_memory clientId keys.publicKey buffer buffer'
    · intro response response' hresponse _
      have hcodes : SEND_PUBLIC_KEY ≠ CRC_INCORRECT_RESEND ∧
          SEND_PUBLIC_KEY ≠ CRC_INCORRECT_DONE := by
        decide
      obtain rfl := (hresponse.resolve_left hcodes.1).resolve_left hcodes.2
      exact Pairing.coupled_pure ⟨rfl, hclientId⟩

theorem approved_coupled (clientId clientId' : ClientId) :
    let approved := fun clientId => do
      let (serverResponse, privateKey) ← self.handleRSARegistration crypto clientId
      if serverResponse.code ≠ RECEIVED_PUBLIC_KEY_SEND_AES then
        return false
      else
        let encrypted_aes_key ← skipClientId serverResponse.payload
        self.handleFileEncryptionAndSend crypto encrypted_aes_key privateKey clientId
    (self.pairing (clientId = clientId')).Coupled Eq (approved clientId) (approved clientId') := by
  intro approved
  apply Pairing.coupled_bind (self.handleRSARegistration_coupled crypto clientId clientId')
  rintro ⟨response, privateKey⟩ _ ⟨rfl, hclientId⟩
  by_cases hcode : response.code = RECEIVED_PUBLIC_KEY_SEND_AES
  · simp only [hcode, ne_eq, not_true_eq_false, if_false]
    apply Pairing.coupled_bind (V := Eq)
    · unfold skipClientId
      by_cases hlength : 16 ≤ response.payload.length
      · simp only [hlength, if_true]
        exact Pairing.coupled_pure rfl
      · simp only [hlength, if_false]
        exact coupled_raise _
    · rintro encrypted_aes_key _ rfl
      rw [← hclientId]
      exact self.handleFileEncryptionAndSend_coupled crypto encrypted_aes_key privateKey clientId
  · simp only [hcode, ne_eq, not_false_eq_true, if_true]
    exact Pairing.coupled_pure rfl

end Keys

section Flows

variable (crypto : CryptoPP) (self : ProtocolHandler)

-- The first exchange of a flow. The two client ids may differ behind it, as long as
-- they are not used.
theorem connection_lockstep (requestCode : UInt16)
    (hcode : requestCode = REGISTRATION ∨ requestCode = RECONNECT)
    (next : ClientId × Response → Client Bool) (world other : World) (htwins : Twins world other)
    (hinitialised : Initialised self
      ((newArray 16 >>= fun clientId =>
        self.handleConnectionRequest clientId requestCode >>= next).exec World.handler world).steps)
    (hnext : ∀ clientId clientId' response after after', Twins after after' →
      Initialised self ((next (clientId, response)).exec World.handler after).steps →
      (Approves (self.connectionRequest requestCode, response) →
        WritesMeInfo ((next (clientId, response)).exec World.handler after).trace →
          clientId = clientId') →
      Lockstep Twins (· ≠ .undefined) Eq ((next (clientId, response)).exec World.handler after)
        ((next (clientId', response)).exec World.handler after')) :
    Lockstep Twins (· ≠ .undefined) Eq
      ((newArray 16 >>= fun clientId =>
        self.handleConnectionRequest clientId requestCode >>= next).exec World.handler world)
      ((newArray 16 >>= fun clientId =>
        self.handleConnectionRequest clientId requestCode >>= next).exec World.handler other) := by
  have hread : requestCode ≠ CRC_INCORRECT_RESEND ∧ requestCode ≠ CRC_INCORRECT_DONE := by
    rcases hcode with rfl | rfl
    · decide
    · decide
  apply Lockstep.call
  obtain ⟨_, hrest⟩ : Initialised self [_] ∧ Initialised self _ := hinitialised.of_append
  refine lockstep_exchange (K := True) (self.connectionRequest requestCode)
    (self.connectionRequest requestCode) _ _ _ _ (htwins.newArray 16) ⟨hrest, fun _ => trivial⟩
    (fun _ => rfl) ?_
  intro reading response response' after after' hafter hanswer hresponse hassumed
  obtain rfl := (hresponse.resolve_left hread.1).resolve_left hread.2
  apply hnext _ _ response after after' hafter hassumed.1
  intro happroves hwrites
  have hlength := hanswer.clientId happroves hwrites
  apply Subtype.ext
  rw [storeClientId_val _ _ hlength, storeClientId_val _ _ hlength]

theorem handleRegistration_lockstep (world other : World) (htwins : Twins world other)
    (hinitialised : Initialised self
      ((self.handleRegistration crypto).exec World.handler world).steps) :
    Lockstep Twins (· ≠ .undefined) Eq ((self.handleRegistration crypto).exec World.handler world)
      ((self.handleRegistration crypto).exec World.handler other) := by
  apply connection_lockstep self REGISTRATION (.inl rfl) _ world other htwins hinitialised
  intro clientId clientId' response after after' hafter hrest hk
  by_cases hcode : response.code = REGISTRATION_SUCCESS
  · simp only [hcode, ne_eq, not_true_eq_false, if_false] at hrest hk ⊢
    exact self.approved_coupled crypto clientId clientId' after after' hafter
      ⟨hrest, hk (.inl ⟨rfl, hcode⟩)⟩
  · simp only [hcode, ne_eq, not_false_eq_true, if_true]
    exact ⟨rfl, .ok _ _ rfl, hafter⟩

theorem handleReconnection_lockstep (world other : World) (htwins : Twins world other)
    (hinitialised : Initialised self
      ((self.handleReconnection crypto).exec World.handler world).steps) :
    Lockstep Twins (· ≠ .undefined) Eq ((self.handleReconnection crypto).exec World.handler world)
      ((self.handleReconnection crypto).exec World.handler other) := by
  apply connection_lockstep self RECONNECT (.inr rfl) _ world other htwins hinitialised
  intro clientId clientId' response after after' hafter hrest hk
  by_cases hreject : response.code = RECONNECT_REJECTED
  · simp only [hreject, if_true] at hrest ⊢
    exact self.handleRegistration_lockstep crypto after after' hafter hrest
  · by_cases happrove : response.code = APPROVE_RECONNECT_SEND_AES
    · simp only [happrove, ne_eq, not_true_eq_false, if_false] at hrest hk ⊢
      exact self.approved_coupled crypto clientId clientId' after after' hafter
        ⟨hrest, hk (.inr ⟨rfl, happrove⟩)⟩
    · simp only [hreject, happrove, ne_eq, not_false_eq_true, if_true, if_false]
      exact ⟨rfl, .ok _ _ rfl, hafter⟩

end Flows

end ProtocolHandler

-- What a run gets into files, in order.
def written (trace : Trace) : List (List UInt8 × List UInt8) :=
  trace.filterMap fun event =>
    match event with
    | ⟨.put path content, count⟩ => some (path, content.take count)
    | _ => none

-- What can be seen of a run: the bytes that are sent, the files and the outcome.
structure SameEffects (first second : Execution Ans Stop Bool World) : Prop where
  wire : first.final.socket.queued = second.final.socket.queued
  files : written first.trace = written second.trace
  outcome : first.outcome = second.outcome

-- What gets into files when these questions are asked from this time on.
def putFrom (replies : Nat → (op : Op) → Ans op) : Nat → List Op → List (List UInt8 × List UInt8)
  | _, [] => []
  | clock, .put path content :: ops =>
      (path, content.take (replies clock (.put path content))) :: putFrom replies (clock + 1) ops
  | clock, _ :: ops => putFrom replies (clock + 1) ops

theorem written_exec {α : Type} (program : Client α) (world : World) :
    written (program.exec World.handler world).trace =
      putFrom world.replies world.clock (program.exec World.handler world).ops := by
  induction program generalizing world with
  | done value => rfl
  | stop error => rfl
  | call op next ih =>
      have hrest := ih (World.handler op world).1 (World.handler op world).2
      cases op with
      | put path content => exact congrArg (_ :: ·) hrest
      | _ => exact hrest

theorem SameEffects.of_lockstep {program : Client Bool} {world other : World}
    (htwins : Twins world other)
    (hlockstep : Lockstep Twins (· ≠ .undefined) Eq (program.exec World.handler world)
      (program.exec World.handler other)) :
    SameEffects (program.exec World.handler world) (program.exec World.handler other) ∧
      (program.exec World.handler world).outcome ≠ .error .undefined := by
  obtain ⟨hops, hends, hfinal⟩ := hlockstep
  have hfiles : written (program.exec World.handler world).trace =
      written (program.exec World.handler other).trace := by
    rw [written_exec, written_exec, hops, htwins.clock, htwins.replies]
  have hwire := congrArg Socket.queued hfinal.socket
  refine ⟨⟨hwire, hfiles, hends.eq⟩, ?_⟩
  intro hundefined
  rw [hundefined] at hends
  exact hends.permitted rfl

namespace Sample

def registering : World :=
  world (approval 2100 :: transferring)

end Sample

namespace ProtocolHandler

-- What the memory held before a run has no part in what can be seen of it.
theorem flows_initialised (crypto : CryptoPP) (self : ProtocolHandler) (world : World)
    (memory : Nat → Nat → UInt8) :
    let registration := (self.handleRegistration crypto).exec World.handler
    let reconnection := (self.handleReconnection crypto).exec World.handler
    (Initialised self (registration world).steps →
      SameEffects (registration world) (registration { world with memory }) ∧
        (registration world).outcome ≠ .error .undefined) ∧
    (Initialised self (reconnection world).steps →
      SameEffects (reconnection world) (reconnection { world with memory }) ∧
        (reconnection world).outcome ≠ .error .undefined) := by
  intro registration reconnection
  have htwins : Twins world { world with memory } := ⟨rfl, rfl, rfl, rfl⟩
  constructor
  · intro hinitialised
    apply SameEffects.of_lockstep htwins
    exact self.handleRegistration_lockstep crypto world _ htwins hinitialised
  · intro hinitialised
    apply SameEffects.of_lockstep htwins
    exact self.handleReconnection_lockstep crypto world _ htwins hinitialised

-- A registration that succeeds, with whole responses and a client id of 16 bytes.
theorem initialised_registered :
    Initialised Sample.client
      ((Sample.client.handleRegistration Sample.crypto).exec World.handler Sample.registering).steps := by
  have hpath : 0 ∉ Sample.client.filePath := by decide
  constructor
  · refine .cons (by simp) (.exchange rfl rfl ⟨?_, ?_, ?_, fun _ => hpath⟩ ?_)
    · exact .inr (.inr (by decide))
    · exact fun _ _ => by decide
    · exact fun h => absurd h (by decide)
    iterate 6 refine .cons (fun _ h => by cases h) ?_
    refine .exchange rfl rfl ⟨?_, ?_, ?_, fun _ => hpath⟩ ?_
    · exact .inr (.inr (by decide +kernel))
    · exact fun h => absurd h (by decide +kernel)
    · exact fun h => absurd h (by decide)
    iterate 4 refine .cons (fun _ h => by cases h) ?_
    refine .exchange rfl rfl ⟨?_, ?_, ?_, fun _ => hpath⟩ ?_
    · exact .inr (.inr (by decide +kernel))
    · exact fun h => absurd h (by decide +kernel)
    · exact fun _ _ => by decide +kernel
    iterate 2 refine .cons (fun _ h => by cases h) ?_
    refine .exchange rfl rfl ⟨?_, ?_, ?_, fun _ => hpath⟩ .nil
    · exact .inr (.inr (by decide +kernel))
    · exact fun h => absurd h (by decide +kernel)
    · exact fun h => absurd h (by decide)
  · have hreadings : readings (((Sample.client.handleRegistration Sample.crypto).exec World.handler
        Sample.registering).steps.map Step.event) = [.contents []] := by decide +kernel
    intro reading hmem
    rw [hreadings, List.mem_singleton] at hmem
    obtain ⟨crc, _, hcrc⟩ := crcOf_contents [] (by decide)
    rw [hmem, hcrc]
    intro h
    cases h

theorem flows_initialised_registered :
    let registration := (Sample.client.handleRegistration Sample.crypto).exec World.handler
    SameEffects (registration Sample.registering)
        (registration { Sample.registering with memory := fun _ _ => 255 }) ∧
      (registration Sample.registering).outcome ≠ .error .undefined :=
  (flows_initialised Sample.crypto Sample.client Sample.registering fun _ _ => 255).1
    initialised_registered

-- The server approves with a payload of three bytes: the other thirteen bytes of the
-- client id in me.info are what the stack held.
theorem short_client_id_in_meInfo :
    let world := Sample.world [Sample.frame 2100 [1, 2, 3]]
    ¬SameEffects ((Sample.client.handleRegistration Sample.crypto).exec World.handler world)
      ((Sample.client.handleRegistration Sample.crypto).exec World.handler
        { world with memory := fun _ _ => 1 }) := by
  intro world hsame
  exact absurd hsame.files (by decide +kernel)

end ProtocolHandler

end TransferClient
