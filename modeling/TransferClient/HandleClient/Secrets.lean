import TransferClient.HandleClient.Fallback
import TransferClient.Interaction.Matching

namespace TransferClient

open Interaction Prog Bytes Client ServerRequests ServerResponses

-- Other private keys in the place of those that are made, and other contents in the place of
-- me.info, with the same name in its first line.
structure Rekeying where
  key : List UInt8 → List UInt8
  known : List UInt8 → List UInt8
  name : ∀ contents, (getline (known contents)).1 = (getline contents).1

-- A file in which no private key is kept.
def KeepsNoKey (path : List UInt8) : Prop :=
  path ≠ ME_INFO_PATH ∧ path ≠ PRIVATE_KEY_PATH

instance (path : List UInt8) : Decidable (KeepsNoKey path) :=
  inferInstanceAs (Decidable (_ ∧ _))

-- The operations that have nothing to do with a private key.
def Keyless : Op → Prop
  | .newArray _ | .socket | .connect _ _ | .sendRequest _ | .getResponse | .ofstream _ | .generateBlock => True
  | .ifstream path | .ifstreamAte path => KeepsNoKey path
  | .put _ _ | .generateKeyPair | .rsaDecrypt _ _ => False

-- The same event with other keys. The public key of a pair, what a decryption gives and
-- everything the server says stay as they are.
inductive Rekeyed (crypto : CryptoPP) (rekeying : Rekeying) : Event Ans → Event Ans → Prop where
  | same (event : Event Ans) (hop : Keyless event.op) : Rekeyed crypto rekeying event event
  | notMade : Rekeyed crypto rekeying ⟨.generateKeyPair, none⟩ ⟨.generateKeyPair, none⟩
  | made (publicKey privateKey : List UInt8) : Rekeyed crypto rekeying
      ⟨.generateKeyPair, some ⟨publicKey, privateKey⟩⟩
      ⟨.generateKeyPair, some ⟨publicKey, rekeying.key privateKey⟩⟩
  | keyWritten (privateKey : List UInt8) (count : Nat) : Rekeyed crypto rekeying
      ⟨.put PRIVATE_KEY_PATH privateKey, count⟩ ⟨.put PRIVATE_KEY_PATH (rekeying.key privateKey), count⟩
  | meInfoWritten (clientName : List UInt8) (clientId : ClientId) (privateKey : List UInt8) (count : Nat) :
      Rekeyed crypto rekeying
        ⟨.put ME_INFO_PATH (FileHandler.meInfo crypto clientName clientId privateKey), count⟩
        ⟨.put ME_INFO_PATH (FileHandler.meInfo crypto clientName clientId (rekeying.key privateKey)), count⟩
  | notKnown : Rekeyed crypto rekeying ⟨.ifstream ME_INFO_PATH, none⟩ ⟨.ifstream ME_INFO_PATH, none⟩
  | known (contents : List UInt8) : Rekeyed crypto rekeying
      ⟨.ifstream ME_INFO_PATH, some contents⟩ ⟨.ifstream ME_INFO_PATH, some (rekeying.known contents)⟩
  | decrypted (ciphertext privateKey : List UInt8) (plain : Option (List UInt8)) : Rekeyed crypto rekeying
      ⟨.rsaDecrypt ciphertext privateKey, plain⟩ ⟨.rsaDecrypt ciphertext (rekeying.key privateKey), plain⟩

-- Over the connection goes the same.
theorem Rekeyed.message {crypto : CryptoPP} {rekeying : Rekeying} {event event' : Event Ans}
    (hrekeyed : Rekeyed crypto rekeying event event') :
    Message.of event'.op event'.answer = Message.of event.op event.answer := by
  cases hrekeyed <;> rfl

theorem messages_of_rekeyed {crypto : CryptoPP} {rekeying : Rekeying} {trace trace' : Trace}
    (hrekeyed : List.Forall₂ (Rekeyed crypto rekeying) trace trace') :
    messages trace' = messages trace := by
  induction hrekeyed with
  | nil => rfl
  | cons hevent hrest ih =>
      simp only [messages, List.filterMap_cons, hevent.message] at ih ⊢
      rw [ih]

-- The file that transfer.info asks for is not one of the two that hold the key.
def SendsNoKeyFile (event : Event Ans) : Prop :=
  ∀ contents info, event = ⟨.ifstream TRANSFER_INFO_PATH, some contents⟩ →
    FileHandler.transferInfoOf contents = .ok info → KeepsNoKey info.filePath

section Rekeyed

variable (crypto : CryptoPP) (rekeying : Rekeying) {α β : Type}

abbrev GoesAlong (V : α → β → Prop) : Client α → Client β → Prop :=
  Matched SendsNoKeyFile (Rekeyed crypto rekeying) V

variable {crypto rekeying}

theorem goesAlong_of_asks {program : Client α} (hasks : program.Asks Keyless) :
    GoesAlong crypto rekeying Eq program program :=
  hasks.matched .same

theorem asks_ofOption (N : Op → Prop) (exception : Exception) (value : Option α) :
    (ofOption exception value).Asks N := by
  cases value <;> trivial

namespace FileHandler

theorem openOutput_asks (path : List UInt8) : (openOutput path).Asks Keyless :=
  (asks_ask _ trivial).bind fun _ => asks_ofOption _ _ _

theorem readFileContents_asks (path : List UInt8) (hpath : KeepsNoKey path) :
    (readFileContents path).Asks Keyless :=
  (asks_ask (Op.ifstream path) hpath).bind fun file => asks_ofOption _ _ file

theorem savePrivateRSAKey_goesAlong (privateKey : List UInt8) :
    GoesAlong crypto rekeying Eq (savePrivateRSAKey privateKey) (savePrivateRSAKey (rekeying.key privateKey)) := by
  refine (goesAlong_of_asks (openOutput_asks _)).bind fun _ _ _ => matched_ask_bind fun count _ => ?_
  exact ⟨count, .keyWritten privateKey count, rfl⟩

theorem saveMeInfo_goesAlong (clientName : List UInt8) (clientId : ClientId)
    (privateKey : List UInt8) :
    GoesAlong crypto rekeying Eq (saveMeInfo crypto clientName clientId privateKey)
      (saveMeInfo crypto clientName clientId (rekeying.key privateKey)) := by
  refine (goesAlong_of_asks (openOutput_asks _)).bind fun _ _ _ => matched_ask_bind fun count _ => ?_
  exact ⟨count, .meInfoWritten clientName clientId privateKey count, rfl⟩

-- Of me.info only the name is used.
theorem readMeInfo_goesAlong :
    GoesAlong crypto rekeying (fun info info' => info'.name = info.name) readMeInfo readMeInfo := by
  refine matched_ask_bind fun answer _ => ?_
  cases answer with
  | none => exact ⟨none, .notKnown, rfl⟩
  | some contents => exact ⟨some (rekeying.known contents), .known contents, rekeying.name contents⟩

theorem readTransferInfo_eq :
    readTransferInfo =
      (do
        let contents ← openFile TRANSFER_INFO_PATH (← ifstream TRANSFER_INFO_PATH)
        ofExcept ((transferInfoOf contents).mapError Stop.thrown)) := by
  have hpath : CLIENTS_BASE_PATH ++ TRANSFER_INFO_FILE_NAME = TRANSFER_INFO_PATH := rfl
  simp only [readTransferInfo, transferInfoOf, hpath]
  congr 1
  funext file
  congr 1
  funext contents
  by_cases hname : (getline (getline contents).2).1.length > 254
  · rw [if_pos hname, if_pos hname]
    rfl
  · rw [if_neg hname, if_neg hname]
    cases splitAddress TRANSFER_INFO_PATH _ _ _ <;> rfl

theorem readTransferInfo_goesAlong :
    GoesAlong crypto rekeying (fun info info' => info' = info ∧ KeepsNoKey info.filePath)
      readTransferInfo readTransferInfo := by
  have hkeyless : KeepsNoKey TRANSFER_INFO_PATH := by decide +kernel
  rw [readTransferInfo_eq]
  refine matched_ask_bind fun answer hsends => ⟨answer, .same _ hkeyless, ?_⟩
  cases answer with
  | none => exact matched_throw _
  | some contents =>
      have hfile := hsends contents
      change Matched _ _ _ (ofExcept ((transferInfoOf contents).mapError Stop.thrown)) (ofExcept _)
      cases hinfo : transferInfoOf contents with
      | error exception => exact matched_throw _
      | ok info => exact matched_pure ⟨rfl, hfile info rfl hinfo⟩

end FileHandler

namespace CryptoHandler

theorem generate_rsa_key_pair_goesAlong :
    GoesAlong crypto rekeying
      (fun keys keys' => keys' = { keys with privateKey := rekeying.key keys.privateKey })
      generate_rsa_key_pair generate_rsa_key_pair := by
  refine matched_ask_bind fun answer _ => ?_
  cases answer with
  | none => exact ⟨none, .notMade, rfl⟩
  | some keys => exact ⟨_, .made keys.publicKey keys.privateKey, rfl⟩

theorem decrypt_with_rsa_goesAlong (ciphertext privateKey : List UInt8) :
    GoesAlong crypto rekeying Eq (decrypt_with_rsa ciphertext privateKey)
      (decrypt_with_rsa ciphertext (rekeying.key privateKey)) := by
  refine matched_ask_bind fun answer _ => ⟨answer, .decrypted ciphertext privateKey answer, ?_⟩
  exact goesAlong_of_asks (asks_ofOption _ _ answer)

theorem encrypt_with_aes_asks (plaintext aes_key : List UInt8) :
    (encrypt_with_aes crypto plaintext aes_key).Asks Keyless := by
  unfold encrypt_with_aes
  split
  · trivial
  · refine Asks.bind ((asks_ask _ trivial).bind fun block => ?_) fun _ => trivial
    exact (asks_ofOption _ _ block).bind fun _ => trivial

end CryptoHandler

theorem createFilePayloadBuffer_asks (fileName content : List UInt8) :
    (createFilePayloadBuffer fileName content).Asks Keyless :=
  (asks_ask _ trivial).bind fun _ => trivial

theorem skipClientId_asks (payload : List UInt8) : (skipClientId payload).Asks Keyless := by
  unfold skipClientId
  split <;> trivial

theorem readCrc_asks (fname : List UInt8) (hfname : KeepsNoKey fname) :
    (readCrc fname).Asks Keyless := by
  refine (asks_ask (Op.ifstreamAte fname) hfname).bind fun reading => ?_
  cases crcOf reading <;> trivial

namespace ProtocolHandler

variable (self : ProtocolHandler)

theorem handleConnection_asks : self.handleConnection.Asks Keyless := by
  refine (asks_ask _ trivial).bind fun created => ?_
  cases created with
  | false => trivial
  | true => exact asks_ask _ trivial

theorem handleConnectionRequest_asks (clientId : ClientId) (requestCode : UInt16) :
    (self.handleConnectionRequest clientId requestCode).Asks Keyless :=
  (asks_ask _ trivial).bind fun _ => (asks_ask _ trivial).bind fun _ => trivial

theorem sendCRCStatusRequest_asks (clientId : ClientId) (code : UInt16) :
    (self.sendCRCStatusRequest clientId code).Asks Keyless :=
  (asks_ask _ trivial).bind fun _ => (asks_ask _ trivial).bind fun _ => (asks_ask _ trivial).bind fun _ => trivial

theorem attempt_asks (hpath : KeepsNoKey self.filePath) (encrypted_content : Request)
    (clientId : ClientId) :
    (self.attempt encrypted_content clientId).Asks Keyless := by
  have hstatus := self.sendCRCStatusRequest_asks clientId
  refine (asks_ask _ trivial).bind fun _ => (asks_ask _ trivial).bind fun response => ?_
  split
  · refine Asks.bind ?_ fun receivedCRC => (readCrc_asks _ hpath).bind fun calculatedCRC => ?_
    · cases trailingCRC response.payload <;> trivial
    · split
      · exact (hstatus CRC_CORRECT).bind fun _ => trivial
      · exact (hstatus CRC_INCORRECT_RESEND).bind fun _ => trivial
  · trivial

theorem retryLoop_asks (hpath : KeepsNoKey self.filePath) (encrypted_content : Request)
    (clientId : ClientId) (remaining : Nat) (retry_count : Int) :
    (self.retryLoop encrypted_content clientId remaining retry_count).Asks Keyless := by
  induction remaining generalizing retry_count with
  | zero => trivial
  | succ remaining ih =>
      refine (self.attempt_asks hpath encrypted_content clientId).bind fun status => ?_
      cases status with
      | none => exact ih (retry_count + 1)
      | some status => trivial

theorem handleRetrySendFile_asks (hpath : KeepsNoKey self.filePath) (encrypted_content : Request)
    (maxRetries : Int) (clientId : ClientId) :
    (self.handleRetrySendFile encrypted_content maxRetries clientId).Asks Keyless := by
  refine (self.retryLoop_asks hpath encrypted_content clientId _ _).bind fun ⟨status, retry_count⟩ => ?_
  show Asks Keyless (if retry_count = maxRetries then _ else _)
  split
  · exact (self.sendCRCStatusRequest_asks clientId _).bind fun _ => trivial
  · trivial

theorem handleFileEncryptionAndSend_goesAlong (hpath : KeepsNoKey self.filePath)
    (encrypted_aes_key privateKey : List UInt8) (clientId : ClientId) :
    GoesAlong crypto rekeying Eq (self.handleFileEncryptionAndSend crypto encrypted_aes_key privateKey clientId)
      (self.handleFileEncryptionAndSend crypto encrypted_aes_key (rekeying.key privateKey) clientId) := by
  refine (CryptoHandler.decrypt_with_rsa_goesAlong encrypted_aes_key privateKey).bind ?_
  rintro aes_key _ rfl
  refine goesAlong_of_asks ((FileHandler.readFileContents_asks _ hpath).bind fun fileContents => ?_)
  refine (CryptoHandler.encrypt_with_aes_asks fileContents aes_key).bind fun encrypted_content => ?_
  refine (createFilePayloadBuffer_asks _ encrypted_content).bind fun payloadBuffer => ?_
  exact self.handleRetrySendFile_asks hpath _ _ clientId

theorem handleRSARegistration_goesAlong (clientId : ClientId) :
    GoesAlong crypto rekeying (fun keyed keyed' => keyed' = (keyed.1, rekeying.key keyed.2))
      (handleRSARegistration crypto self clientId) (handleRSARegistration crypto self clientId) := by
  refine CryptoHandler.generate_rsa_key_pair_goesAlong.bind ?_
  rintro keys _ rfl
  refine matched_ask_bind fun buffer _ => ⟨buffer, .same _ trivial, ?_⟩
  refine (FileHandler.savePrivateRSAKey_goesAlong keys.privateKey).bind fun _ _ _ => ?_
  refine (FileHandler.saveMeInfo_goesAlong self.clientName clientId keys.privateKey).bind fun _ _ _ => ?_
  refine matched_ask_bind fun _ _ => ⟨(), .same _ trivial, ?_⟩
  refine matched_ask_bind fun answer _ => ⟨answer, .same _ trivial, rfl⟩

-- What both flows do behind an approval.
theorem approved_goesAlong (hpath : KeepsNoKey self.filePath) (clientId : ClientId) :
    GoesAlong crypto rekeying Eq
      (do
        let (serverResponse, privateKey) ← handleRSARegistration crypto self clientId
        if serverResponse.code ≠ RECEIVED_PUBLIC_KEY_SEND_AES then
          return false
        else
          let encrypted_aes_key ← skipClientId serverResponse.payload
          self.handleFileEncryptionAndSend crypto encrypted_aes_key privateKey clientId)
      (do
        let (serverResponse, privateKey) ← handleRSARegistration crypto self clientId
        if serverResponse.code ≠ RECEIVED_PUBLIC_KEY_SEND_AES then
          return false
        else
          let encrypted_aes_key ← skipClientId serverResponse.payload
          self.handleFileEncryptionAndSend crypto encrypted_aes_key privateKey clientId) := by
  refine (self.handleRSARegistration_goesAlong clientId).bind ?_
  rintro ⟨serverResponse, privateKey⟩ _ rfl
  by_cases hcode : serverResponse.code ≠ RECEIVED_PUBLIC_KEY_SEND_AES
  · simp only [if_pos hcode]
    rfl
  · simp only [if_neg hcode]
    refine (goesAlong_of_asks (skipClientId_asks serverResponse.payload)).bind ?_
    rintro encrypted_aes_key _ rfl
    exact self.handleFileEncryptionAndSend_goesAlong hpath encrypted_aes_key privateKey clientId

theorem handleRegistration_goesAlong (hpath : KeepsNoKey self.filePath) :
    GoesAlong crypto rekeying Eq (self.handleRegistration crypto) (self.handleRegistration crypto) := by
  refine matched_ask_bind fun buffer _ => ⟨buffer, .same _ trivial, ?_⟩
  refine (goesAlong_of_asks (self.handleConnectionRequest_asks buffer REGISTRATION)).bind ?_
  rintro ⟨clientId, serverResponse⟩ _ rfl
  by_cases hcode : serverResponse.code ≠ REGISTRATION_SUCCESS
  · simp only [if_pos hcode]
    rfl
  · simp only [if_neg hcode]
    exact self.approved_goesAlong hpath clientId

theorem handleReconnection_goesAlong (hpath : KeepsNoKey self.filePath) :
    GoesAlong crypto rekeying Eq (self.handleReconnection crypto) (self.handleReconnection crypto) := by
  refine matched_ask_bind fun buffer _ => ⟨buffer, .same _ trivial, ?_⟩
  refine (goesAlong_of_asks (self.handleConnectionRequest_asks buffer RECONNECT)).bind ?_
  rintro ⟨clientId, serverResponse⟩ _ rfl
  by_cases hreject : serverResponse.code = RECONNECT_REJECTED
  · simp only [if_pos hreject]
    exact self.handleRegistration_goesAlong hpath
  · simp only [if_neg hreject]
    by_cases happrove : serverResponse.code ≠ APPROVE_RECONNECT_SEND_AES
    · simp only [if_pos happrove]
      rfl
    · simp only [if_neg happrove]
      exact self.approved_goesAlong hpath clientId

end ProtocolHandler

theorem handleClient_goesAlong :
    GoesAlong crypto rekeying Eq (handleClient crypto) (handleClient crypto) := by
  have hconnecting (self : ProtocolHandler) (flow : Client Bool) (hflow : GoesAlong crypto rekeying Eq flow flow) :
      GoesAlong crypto rekeying Eq (do if ← self.handleConnection then flow else return false)
        (do if ← self.handleConnection then flow else return false) := by
    refine (goesAlong_of_asks self.handleConnection_asks).bind ?_
    rintro connected _ rfl
    cases connected with
    | false => rfl
    | true => exact hflow
  refine FileHandler.readTransferInfo_goesAlong.bind ?_
  rintro transferInfo _ ⟨rfl, hpath⟩
  refine Matched.tryCatch (FileHandler.readMeInfo_goesAlong.bind ?_) fun stop => ?_
  · intro meInfo meInfo' hname
    simp only [hname]
    exact hconnecting _ _ (ProtocolHandler.handleReconnection_goesAlong _ hpath)
  · split
    · exact hconnecting _ _ (ProtocolHandler.handleRegistration_goesAlong _ hpath)
    · exact matched_throw _

end Rekeyed

-- The server learns nothing of a private key but what decryptions with it give: from a run
-- on any keys comes a run on any other keys, with the same requests, the same responses and
-- the same outcome, if these decryptions give the same. Of me.info it learns the name only.
theorem messages_independent_of_keys (crypto : CryptoPP) (rekeying : Rekeying) (trace : Trace)
    (outcome : Except Stop Bool) (hruns : (handleClient crypto).Runs trace outcome)
    (hfile : ∀ event ∈ trace, SendsNoKeyFile event) :
    ∃ trace', (handleClient crypto).Runs trace' outcome ∧
      List.Forall₂ (Rekeyed crypto rekeying) trace trace' ∧ messages trace' = messages trace := by
  obtain ⟨trace', hruns', hrekeyed⟩ := handleClient_goesAlong.runs hruns hfile
  exact ⟨trace', hruns', hrekeyed, messages_of_rekeyed hrekeyed⟩

namespace Sample

-- Every pair gets another private key, and of me.info only the name is left.
def rekeying : Rekeying where
  key privateKey := privateKey ++ [1]
  known contents := (getline contents).1
  name _ := List.takeWhile_idem

def configures : Event Ans → Bool
  | ⟨.ifstream path, contents⟩ =>
      path != TRANSFER_INFO_PATH ||
        contents == some (text "127.0.0.1:8080" ++ [10] ++ text "name" ++ [10] ++ text "file")
  | _ => true

theorem info_of_configures {trace : Trace} (hconfigures : ∀ event ∈ trace, configures event = true)
    (contents : List UInt8) (info : TransferInfo)
    (hmem : ⟨.ifstream TRANSFER_INFO_PATH, some contents⟩ ∈ trace)
    (hinfo : FileHandler.transferInfoOf contents = .ok info) :
    info = ⟨text "127.0.0.1", 8080, text "name", text "file"⟩ := by
  have hcontents := hconfigures _ hmem
  simp only [configures, bne_self_eq_false, Bool.false_or, beq_iff_eq,
    Option.some.injEq] at hcontents
  subst hcontents
  exact (Except.ok.inj hinfo).symm

end Sample

theorem messages_independent_of_keys_known :
    ∃ (run : Execution Ans Stop Bool World) (trace' : Trace),
      run = (handleClient Sample.crypto).exec World.handler (Sample.approving (some [])) ∧
        (handleClient Sample.crypto).Runs trace' run.outcome ∧
        List.Forall₂ (Rekeyed Sample.crypto Sample.rekeying) run.trace trace' ∧
        messages trace' = messages run.trace := by
  have hruns :=
    Prog.exec_runs World.handler (handleClient Sample.crypto) (Sample.approving (some []))
  generalize hrun : (handleClient Sample.crypto).exec World.handler (Sample.approving (some [])) = run at hruns
  have hconfigures : ∀ event ∈ run.trace, Sample.configures event = true := by
    rw [← hrun]
    decide +kernel
  have hfile : ∀ event ∈ run.trace, SendsNoKeyFile event := by
    rintro event hevent contents info rfl hinfo
    rw [Sample.info_of_configures hconfigures contents info hevent hinfo]
    decide +kernel
  obtain ⟨trace', hsame⟩ :=
    messages_independent_of_keys Sample.crypto Sample.rekeying run.trace run.outcome hruns hfile
  exact ⟨run, trace', rfl, hsame⟩

end TransferClient
