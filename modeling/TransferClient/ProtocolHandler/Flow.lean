import TransferClient.FileHandler.Runs
import TransferClient.ProtocolHandler.Runs

namespace TransferClient

open Interaction Bytes Client ServerRequests ServerResponses

namespace CryptoHandler

theorem runs_generate_rsa_key_pair (trace : Trace) (outcome : Except Stop KeyPair) :
    generate_rsa_key_pair.Runs trace outcome ↔
      ∃ keys, trace = [⟨.generateKeyPair, keys⟩] ∧
        outcome = keys.elim (.error (.thrown .cryptoPP)) .ok := by
  simp [generate_rsa_key_pair, runs_ofOption]

theorem runs_decrypt_with_rsa (ciphertext private_key : List UInt8) (trace : Trace)
    (outcome : Except Stop (List UInt8)) :
    (decrypt_with_rsa ciphertext private_key).Runs trace outcome ↔
      ∃ plain, trace = [⟨.rsaDecrypt ciphertext private_key, plain⟩] ∧
        outcome = plain.elim (.error (.thrown .cryptoPP)) .ok := by
  simp [decrypt_with_rsa, runs_ofOption]

-- The part of a file that `encrypt` is told of, by a length of 32 bits.
def encryptedPart (plaintext : List UInt8) : List UInt8 :=
  plaintext.take (UInt32.ofNat plaintext.length).toNat

-- What `encrypt_with_aes` returns for this IV.
def encryptedContent (crypto : CryptoPP) (plaintext aes_key : List UInt8) (iv : Buffer 16) :
    List UInt8 :=
  hex (iv.val ++ crypto.cbcEncryption aes_key iv.val (encryptedPart plaintext))

theorem runs_encrypt_with_aes (crypto : CryptoPP) (plaintext aes_key : List UInt8) (trace : Trace)
    (outcome : Except Stop (List UInt8))
    (hruns : (encrypt_with_aes crypto plaintext aes_key).Runs trace outcome) :
    (aes_key.length ≠ 16 ∧ trace = [] ∧
      outcome = .error (.thrown (.invalidArgument (text "Key length must be 16 bytes.")))) ∨
    (aes_key.length = 16 ∧ ∃ block, trace = [⟨.generateBlock, block⟩] ∧
      outcome = block.elim (.error (.thrown .cryptoPP))
        (fun iv => .ok (encryptedContent crypto plaintext aes_key iv))) := by
  unfold encrypt_with_aes encrypt at hruns
  by_cases hlength : aes_key.length = 16
  · simp only [hlength, ne_eq, not_true_eq_false, if_false] at hruns
    refine .inr ⟨hlength, ?_⟩
    rw [Prog.runs_bind] at hruns
    simp only [Prog.runs_ask_bind] at hruns
    rcases hruns with ⟨encrypted, _, rest, rfl, ⟨block, last, rfl, hblock⟩, rfl, rfl⟩ |
      ⟨stop, rfl, block, last, rfl, hblock⟩
    · refine ⟨block, ?_⟩
      cases block with
      | none => cases hblock.2
      | some iv =>
          obtain ⟨rfl, hencrypted⟩ := hblock
          cases hencrypted
          exact ⟨rfl, rfl⟩
    · refine ⟨block, ?_⟩
      cases block with
      | none =>
          obtain ⟨rfl, hstop⟩ := hblock
          cases hstop
          exact ⟨rfl, rfl⟩
      | some iv => cases hblock.2
  · simp only [hlength, ne_eq, not_false_eq_true, if_true] at hruns
    exact .inl ⟨hlength, hruns.1, hruns.2⟩

end CryptoHandler

theorem runs_createFilePayloadBuffer (fileName content : List UInt8) (trace : Trace)
    (outcome : Except Stop {payload : List UInt8 // 4 + 255 + content.length ≤ payload.length})
    (hruns : (createFilePayloadBuffer fileName content).Runs trace outcome) :
    ∃ (buffer : Buffer (4 + 255 + content.length + 1)) (payload : _),
      trace = [⟨.newArray (4 + 255 + content.length + 1), buffer⟩] ∧ outcome = .ok payload ∧
      payload.val = fillPayloadBuffer fileName content buffer.val := by
  simp only [createFilePayloadBuffer, Prog.runs_ask_bind] at hruns
  obtain ⟨buffer, _, rfl, rfl, rfl⟩ := hruns
  exact ⟨buffer, _, rfl, rfl, rfl⟩

namespace ProtocolHandler

variable (crypto : CryptoPP) (self : ProtocolHandler)

theorem runs_handleConnectionRequest (clientId : ClientId) (requestCode : UInt16) (trace : Trace)
    (outcome : Except Stop (ClientId × Response))
    (hruns : (self.handleConnectionRequest clientId requestCode).Runs trace outcome) :
    ∃ answer, trace = [sent (self.connectionRequest requestCode), got answer] ∧
      outcome = .ok (storeClientId clientId answer.payload, answer) := by
  simp only [handleConnectionRequest, runs_sendRequest_bind] at hruns
  obtain ⟨_, rfl, hruns⟩ := hruns
  simp only [Prog.runs_ask_bind] at hruns
  obtain ⟨answer, _, rfl, rfl, rfl⟩ := hruns
  exact ⟨answer, rfl, rfl⟩

-- The events of the exchange of the keys up to the private key file.
def keysMade (keys : KeyPair) (buffer : Buffer (NAME_FIELD_SIZE + keys.publicKey.length)) : Trace :=
  [⟨.generateKeyPair, some keys⟩, ⟨.newArray (NAME_FIELD_SIZE + keys.publicKey.length), buffer⟩]

-- What the exchange of the keys can do. Both files are written before the
-- request goes out.
inductive Keying (clientId : ClientId) : Trace → Except Stop (Response × List UInt8) → Prop where
  | noKeys : Keying clientId [⟨.generateKeyPair, none⟩] (.error (.thrown .cryptoPP))
  | noKeyFile (keys : KeyPair) (buffer : Buffer (NAME_FIELD_SIZE + keys.publicKey.length)) :
      Keying clientId (keysMade keys buffer ++ [⟨.ofstream PRIVATE_KEY_PATH, false⟩])
        (.error (unableToOpen PRIVATE_KEY_PATH))
  | noMeInfo (keys : KeyPair) (buffer : Buffer (NAME_FIELD_SIZE + keys.publicKey.length))
      (keyCount : Nat) :
      Keying clientId
        (keysMade keys buffer ++
          [⟨.ofstream PRIVATE_KEY_PATH, true⟩, ⟨.put PRIVATE_KEY_PATH keys.privateKey, keyCount⟩,
            ⟨.ofstream ME_INFO_PATH, false⟩])
        (.error (unableToOpen ME_INFO_PATH))
  | offered (keys : KeyPair) (buffer : Buffer (NAME_FIELD_SIZE + keys.publicKey.length))
      (answer : Response) (keyCount infoCount : Nat) :
      Keying clientId
        (keysMade keys buffer ++
          [⟨.ofstream PRIVATE_KEY_PATH, true⟩, ⟨.put PRIVATE_KEY_PATH keys.privateKey, keyCount⟩,
            ⟨.ofstream ME_INFO_PATH, true⟩,
            ⟨.put ME_INFO_PATH (FileHandler.meInfo crypto self.clientName clientId keys.privateKey), infoCount⟩,
            sent (self.pubkeyRequest clientId keys.publicKey buffer), got answer])
        (.ok (answer, keys.privateKey))

theorem handleRSARegistration_keying (clientId : ClientId) (trace : Trace)
    (outcome : Except Stop (Response × List UInt8))
    (hruns : (self.handleRSARegistration crypto clientId).Runs trace outcome) :
    Keying crypto self clientId trace outcome := by
  simp only [handleRSARegistration, FileHandler.savePrivateRSAKey_eq,
    FileHandler.saveMeInfo_eq] at hruns
  rw [Prog.runs_bind] at hruns
  simp only [CryptoHandler.runs_generate_rsa_key_pair] at hruns
  rcases hruns with ⟨keys, _, rest, rfl, ⟨made, rfl, hmade⟩, hruns⟩ |
    ⟨stop, rfl, made, rfl, hstop⟩
  · cases made with
    | none => cases hmade
    | some made =>
        cases hmade
        simp only [Prog.runs_ask_bind] at hruns
        obtain ⟨buffer, rest, rfl, hruns⟩ := hruns
        rw [FileHandler.runs_writeToFile_bind] at hruns
        rcases hruns with ⟨keyCount, rest, rfl, hruns⟩ | ⟨rfl, rfl⟩
        · rw [FileHandler.runs_writeToFile_bind] at hruns
          rcases hruns with ⟨infoCount, rest, rfl, hruns⟩ | ⟨rfl, rfl⟩
          · simp only [runs_sendRequest_bind] at hruns
            obtain ⟨_, rfl, hruns⟩ := hruns
            simp only [Prog.runs_ask_bind] at hruns
            obtain ⟨answer, _, rfl, rfl, rfl⟩ := hruns
            exact .offered keys buffer answer keyCount infoCount
          · exact .noMeInfo keys buffer keyCount
        · exact .noKeyFile keys buffer
  · cases made with
    | none =>
        cases hstop
        exact .noKeys
    | some keys => cases hstop

-- The operations of an exchange of the keys: it makes keys, writes both files and offers
-- the public key.
def KeyingOp (clientId : ClientId) : Op → Prop
  | .sendRequest request => request.code = SEND_PUBLIC_KEY
  | .put path content => path = PRIVATE_KEY_PATH ∨
      ∃ privateKey, content = FileHandler.meInfo crypto self.clientName clientId privateKey
  | .newArray _ | .getResponse | .ofstream _ | .generateKeyPair => True
  | .socket | .connect _ _ | .ifstream _ | .ifstreamAte _ | .rsaDecrypt _ _ | .generateBlock =>
      False

theorem Keying.ops {crypto : CryptoPP} {self : ProtocolHandler} {clientId : ClientId}
    {trace : Trace}
    {result : Except Stop (Response × List UInt8)}
    (hkeying : Keying crypto self clientId trace result) :
    ∀ event ∈ trace, KeyingOp crypto self clientId event.op := by
  cases hkeying with
  | noKeys => simp [KeyingOp]
  | noKeyFile keys buffer => simp [KeyingOp, keysMade]
  | noMeInfo keys buffer => simp [KeyingOp, keysMade]
  | offered keys buffer answer =>
      have hcode : (self.pubkeyRequest clientId keys.publicKey buffer).code = SEND_PUBLIC_KEY := rfl
      have hstored : KeyingOp crypto self clientId (.put ME_INFO_PATH
          (FileHandler.meInfo crypto self.clientName clientId keys.privateKey)) := .inr ⟨_, rfl⟩
      refine List.forall_mem_append.mpr ⟨by simp [KeyingOp, keysMade], ?_⟩
      simp only [List.forall_mem_cons]
      exact ⟨trivial, .inl rfl, trivial, hstored, hcode, trivial, by simp⟩

-- What the sending of the file can do: four steps that can fail, and the loop.
inductive FileSending (encrypted_aes_key privateKey : List UInt8) (clientId : ClientId) :
    Trace → Except Stop Bool → Prop where
  | noAesKey : FileSending encrypted_aes_key privateKey clientId
      [⟨.rsaDecrypt encrypted_aes_key privateKey, none⟩] (.error (.thrown .cryptoPP))
  | noFile (aes_key : List UInt8) : FileSending encrypted_aes_key privateKey clientId
      [⟨.rsaDecrypt encrypted_aes_key privateKey, some aes_key⟩, ⟨.ifstream self.filePath, none⟩]
      (.error (unableToOpen self.filePath))
  | wrongKey (aes_key contents : List UInt8) (hlength : aes_key.length ≠ 16) :
      FileSending encrypted_aes_key privateKey clientId
        [⟨.rsaDecrypt encrypted_aes_key privateKey, some aes_key⟩,
          ⟨.ifstream self.filePath, some contents⟩]
        (.error (.thrown (.invalidArgument (text "Key length must be 16 bytes."))))
  | noBlock (aes_key contents : List UInt8) (hlength : aes_key.length = 16) :
      FileSending encrypted_aes_key privateKey clientId
        [⟨.rsaDecrypt encrypted_aes_key privateKey, some aes_key⟩,
          ⟨.ifstream self.filePath, some contents⟩, ⟨.generateBlock, none⟩]
        (.error (.thrown .cryptoPP))
  | sending (aes_key contents : List UInt8) (iv : Buffer 16)
      (buffer : Buffer
        (4 + 255 + (CryptoHandler.encryptedContent crypto contents aes_key iv).length + 1))
      (payload : {payload : List UInt8 //
        4 + 255 + (CryptoHandler.encryptedContent crypto contents aes_key iv).length ≤
          payload.length})
      (failed : List Trace) (trace : Trace) (outcome : Except Stop Bool)
      (hlength : aes_key.length = 16)
      (hpayload : payload.val = fillPayloadBuffer self.filePath
        (CryptoHandler.encryptedContent crypto contents aes_key iv) buffer.val)
      (hretries : Retries self (fileRequest clientId _ payload) clientId 3 failed trace outcome) :
      FileSending encrypted_aes_key privateKey clientId
        ([⟨.rsaDecrypt encrypted_aes_key privateKey, some aes_key⟩,
          ⟨.ifstream self.filePath, some contents⟩, ⟨.generateBlock, some iv⟩,
          ⟨.newArray
            (4 + 255 + (CryptoHandler.encryptedContent crypto contents aes_key iv).length + 1),
            buffer⟩] ++ trace)
        outcome

-- The steps behind the reading of the file.
theorem encryptAndSend_sending (encrypted_aes_key privateKey : List UInt8) (clientId : ClientId)
    (aes_key contents : List UInt8) (trace : Trace) (outcome : Except Stop Bool)
    (hruns : Prog.Runs
      (do
        let encrypted_content ← CryptoHandler.encrypt_with_aes crypto contents aes_key
        let payloadBuffer ← createFilePayloadBuffer self.filePath encrypted_content
        self.handleRetrySendFile (fileRequest clientId encrypted_content payloadBuffer) 3 clientId)
      trace outcome) :
    FileSending crypto self encrypted_aes_key privateKey clientId
      ([⟨.rsaDecrypt encrypted_aes_key privateKey, some aes_key⟩] ++
        ([⟨.ifstream self.filePath, some contents⟩] ++ trace)) outcome := by
  rw [Prog.runs_bind] at hruns
  rcases hruns with ⟨encrypted_content, first, rest, rfl, hencrypt, hruns⟩ | ⟨stop, rfl, hencrypt⟩
  · rcases CryptoHandler.runs_encrypt_with_aes crypto contents aes_key _ _ hencrypt with
      ⟨_, _, he⟩ | ⟨hlength, block, rfl, he⟩
    · cases he
    · cases block with
      | none => cases he
      | some iv =>
          cases he
          rw [Prog.runs_bind] at hruns
          rcases hruns with ⟨payload, _, rest, rfl, hcreate, hruns⟩ | ⟨stop, rfl, hcreate⟩
          · obtain ⟨buffer, _, rfl, he, hpayload⟩ := runs_createFilePayloadBuffer _ _ _ _ hcreate
            cases he
            obtain ⟨failed, hretries⟩ := self.handleRetrySendFile_retries _ clientId 3 (by omega) _ _
              hruns
            exact .sending aes_key contents iv buffer payload failed rest outcome hlength hpayload
              hretries
          · obtain ⟨_, _, _, he, _⟩ := runs_createFilePayloadBuffer _ _ _ _ hcreate
            cases he
  · rcases CryptoHandler.runs_encrypt_with_aes crypto contents aes_key _ _ hencrypt with
      ⟨hlength, rfl, he⟩ | ⟨hlength, block, rfl, he⟩
    · cases he
      exact .wrongKey aes_key contents hlength
    · cases block with
      | none =>
          cases he
          exact .noBlock aes_key contents hlength
      | some iv => cases he

theorem handleFileEncryptionAndSend_sending (encrypted_aes_key privateKey : List UInt8)
    (clientId : ClientId) (trace : Trace) (outcome : Except Stop Bool)
    (hruns : (self.handleFileEncryptionAndSend crypto encrypted_aes_key privateKey clientId).Runs
      trace outcome) :
    FileSending crypto self encrypted_aes_key privateKey clientId trace outcome := by
  unfold handleFileEncryptionAndSend at hruns
  rw [Prog.runs_bind] at hruns
  simp only [CryptoHandler.runs_decrypt_with_rsa] at hruns
  rcases hruns with ⟨aes_key, _, rest, rfl, ⟨plain, rfl, hplain⟩, hruns⟩ | ⟨stop, rfl, plain, rfl, hstop⟩
  · cases plain with
    | none => cases hplain
    | some plain =>
        cases hplain
        rw [Prog.runs_bind] at hruns
        rcases hruns with ⟨contents, _, rest, rfl, hread, hruns⟩ | ⟨stop, rfl, hread⟩
        · rw [FileHandler.runs_readFileContents] at hread
          rcases hread with ⟨_, rfl, he⟩ | ⟨_, he⟩
          · cases he
            exact self.encryptAndSend_sending crypto encrypted_aes_key privateKey clientId aes_key
              contents rest outcome hruns
          · cases he
        · rw [FileHandler.runs_readFileContents] at hread
          rcases hread with ⟨_, _, he⟩ | ⟨rfl, he⟩
          · cases he
          · cases he
            exact .noFile aes_key
  · cases plain with
    | none =>
        cases hstop
        exact .noAesKey
    | some plain => cases hstop

theorem FileSending.ops {crypto : CryptoPP} {self : ProtocolHandler}
    {encrypted_aes_key privateKey : List UInt8} {clientId : ClientId} {trace : Trace}
    {outcome : Except Stop Bool}
    (hsending : FileSending crypto self encrypted_aes_key privateKey clientId trace outcome) :
    ∀ event ∈ trace, TransferOp event.op := by
  cases hsending with
  | noAesKey => simp [TransferOp]
  | noFile aes_key => simp [TransferOp]
  | wrongKey aes_key contents hlength => simp [TransferOp]
  | noBlock aes_key contents hlength => simp [TransferOp]
  | sending aes_key contents iv buffer payload failed trace outcome hlength hpayload hretries =>
      have hloop : ∀ event ∈ trace, TransferOp event.op :=
        fun event he => (hretries.ops event he).transfer rfl
      exact List.forall_mem_append.mpr ⟨by simp [TransferOp], hloop⟩

-- What can follow the approval of the client, under the id that it now has.
inductive Approved (clientId : ClientId) : Trace → Except Stop Bool → Prop where
  | unkeyed (trace : Trace) (stop : Stop)
      (hkeying : Keying crypto self clientId trace (.error stop)) :
      Approved clientId trace (.error stop)
  | refused (trace : Trace) (answer : Response) (privateKey : List UInt8)
      (hkeying : Keying crypto self clientId trace (.ok (answer, privateKey)))
      (hcode : answer.code ≠ RECEIVED_PUBLIC_KEY_SEND_AES) :
      Approved clientId trace (.ok false)
  | short (trace : Trace) (answer : Response) (privateKey : List UInt8)
      (hkeying : Keying crypto self clientId trace (.ok (answer, privateKey)))
      (hcode : answer.code = RECEIVED_PUBLIC_KEY_SEND_AES) (hlength : answer.payload.length < 16) :
      Approved clientId trace (.error (.thrown .outOfRange))
  | keyed (trace : Trace) (answer : Response) (privateKey : List UInt8) (rest : Trace)
      (outcome : Except Stop Bool)
      (hkeying : Keying crypto self clientId trace (.ok (answer, privateKey)))
      (hcode : answer.code = RECEIVED_PUBLIC_KEY_SEND_AES) (hlength : 16 ≤ answer.payload.length)
      (hsending : FileSending crypto self (answer.payload.drop 16) privateKey clientId rest outcome) :
      Approved clientId (trace ++ rest) outcome

-- The last part of both flows.
theorem approved_of_runs (clientId : ClientId) (trace : Trace) (outcome : Except Stop Bool)
    (hruns : Prog.Runs
      (do
        let (serverResponse, privateKey) ← self.handleRSARegistration crypto clientId
        if serverResponse.code ≠ RECEIVED_PUBLIC_KEY_SEND_AES then
          return false
        else
          let encrypted_aes_key ← skipClientId serverResponse.payload
          self.handleFileEncryptionAndSend crypto encrypted_aes_key privateKey clientId)
      trace outcome) :
    Approved crypto self clientId trace outcome := by
  rw [Prog.runs_bind] at hruns
  rcases hruns with ⟨⟨answer, privateKey⟩, first, rest, rfl, hkeying, hruns⟩ | ⟨stop, rfl, hkeying⟩
  · have hkeying := self.handleRSARegistration_keying crypto clientId first _ hkeying
    by_cases hcode : answer.code = RECEIVED_PUBLIC_KEY_SEND_AES
    · simp only [hcode, ne_eq, not_true_eq_false, if_false] at hruns
      by_cases hlength : 16 ≤ answer.payload.length
      · simp only [skipClientId, hlength, if_true, Prog.runs_pure_bind] at hruns
        have hsending := self.handleFileEncryptionAndSend_sending crypto _ _ clientId rest _ hruns
        exact .keyed first answer privateKey rest outcome hkeying hcode hlength hsending
      · simp only [skipClientId, hlength, if_false] at hruns
        obtain ⟨rfl, rfl⟩ := hruns
        rw [List.append_nil]
        exact .short first answer privateKey hkeying hcode (by omega)
    · simp only [hcode, ne_eq, not_false_eq_true, if_true] at hruns
      obtain ⟨rfl, rfl⟩ := hruns
      rw [List.append_nil]
      exact .refused first answer privateKey hkeying hcode
  · exact .unkeyed trace stop (self.handleRSARegistration_keying crypto clientId trace _ hkeying)

-- The first exchange of a flow, which asks the server for this client's id.
def asked (requestCode : UInt16) (buffer : ClientId) (answer : Response) : Trace :=
  [⟨.newArray 16, buffer⟩, sent (self.connectionRequest requestCode), got answer]

@[simp] theorem messages_asked (requestCode : UInt16) (buffer : ClientId) (answer : Response) :
    messages (self.asked requestCode buffer answer) =
      [.request (self.connectionRequest requestCode), .response answer] := by
  simp [messages, asked]

@[simp] theorem codes_asked (requestCode : UInt16) (buffer : ClientId) (answer : Response) :
    codes (self.asked requestCode buffer answer) = [requestCode] := by
  simp [codes, requests, connectionRequest]

inductive Registration : Trace → Except Stop Bool → Prop where
  | refused (buffer : ClientId) (answer : Response) (hcode : answer.code ≠ REGISTRATION_SUCCESS) :
      Registration (self.asked REGISTRATION buffer answer) (.ok false)
  | approved (buffer : ClientId) (answer : Response) (rest : Trace) (outcome : Except Stop Bool)
      (hcode : answer.code = REGISTRATION_SUCCESS)
      (happroved : Approved crypto self (storeClientId buffer answer.payload) rest outcome) :
      Registration (self.asked REGISTRATION buffer answer ++ rest) outcome

theorem handleRegistration_registration (trace : Trace) (outcome : Except Stop Bool)
    (hruns : (self.handleRegistration crypto).Runs trace outcome) :
    Registration crypto self trace outcome := by
  simp only [handleRegistration, Prog.runs_ask_bind] at hruns
  obtain ⟨buffer, rest, rfl, hruns⟩ := hruns
  rw [Prog.runs_bind] at hruns
  rcases hruns with ⟨⟨clientId, answer⟩, _, rest, rfl, hrequest, hruns⟩ | ⟨stop, rfl, hrequest⟩
  · obtain ⟨_, rfl, he⟩ := self.runs_handleConnectionRequest buffer REGISTRATION _ _ hrequest
    cases he
    by_cases hcode : answer.code = REGISTRATION_SUCCESS
    · simp only [hcode, ne_eq, not_true_eq_false, if_false] at hruns
      exact .approved buffer answer rest outcome hcode (self.approved_of_runs crypto _ rest _ hruns)
    · simp only [hcode, ne_eq, not_false_eq_true, if_true] at hruns
      obtain ⟨rfl, rfl⟩ := hruns
      exact .refused buffer answer hcode
  · obtain ⟨_, _, he⟩ := self.runs_handleConnectionRequest buffer REGISTRATION _ _ hrequest
    cases he

inductive Reconnection : Trace → Except Stop Bool → Prop where
  | rejected (buffer : ClientId) (answer : Response) (rest : Trace) (outcome : Except Stop Bool)
      (hcode : answer.code = RECONNECT_REJECTED)
      (hregistration : Registration crypto self rest outcome) :
      Reconnection (self.asked RECONNECT buffer answer ++ rest) outcome
  | refused (buffer : ClientId) (answer : Response) (hreject : answer.code ≠ RECONNECT_REJECTED)
      (happrove : answer.code ≠ APPROVE_RECONNECT_SEND_AES) :
      Reconnection (self.asked RECONNECT buffer answer) (.ok false)
  | approved (buffer : ClientId) (answer : Response) (rest : Trace) (outcome : Except Stop Bool)
      (hcode : answer.code = APPROVE_RECONNECT_SEND_AES)
      (happroved : Approved crypto self (storeClientId buffer answer.payload) rest outcome) :
      Reconnection (self.asked RECONNECT buffer answer ++ rest) outcome

theorem handleReconnection_reconnection (trace : Trace) (outcome : Except Stop Bool)
    (hruns : (self.handleReconnection crypto).Runs trace outcome) :
    Reconnection crypto self trace outcome := by
  simp only [handleReconnection, Prog.runs_ask_bind] at hruns
  obtain ⟨buffer, rest, rfl, hruns⟩ := hruns
  rw [Prog.runs_bind] at hruns
  rcases hruns with ⟨⟨clientId, answer⟩, _, rest, rfl, hrequest, hruns⟩ | ⟨stop, rfl, hrequest⟩
  · obtain ⟨_, rfl, he⟩ := self.runs_handleConnectionRequest buffer RECONNECT _ _ hrequest
    cases he
    by_cases hreject : answer.code = RECONNECT_REJECTED
    · simp only [hreject, if_true] at hruns
      exact .rejected buffer answer rest outcome hreject
        (self.handleRegistration_registration crypto rest outcome hruns)
    · by_cases happrove : answer.code = APPROVE_RECONNECT_SEND_AES
      · simp only [happrove, ne_eq, not_true_eq_false, if_false] at hruns
        exact .approved buffer answer rest outcome happrove
          (self.approved_of_runs crypto _ rest _ hruns)
      · simp only [hreject, happrove, ne_eq, not_false_eq_true, if_true, if_false] at hruns
        obtain ⟨rfl, rfl⟩ := hruns
        exact .refused buffer answer hreject happrove
  · obtain ⟨_, _, he⟩ := self.runs_handleConnectionRequest buffer RECONNECT _ _ hrequest
    cases he

-- What holds of every event of an opening exchange, of an exchange of the keys and of a
-- transfer holds of the events of the flows.
section Events

variable {crypto self} (P : Event Ans → Prop)
  (hregister : ∀ buffer answer, ∀ event ∈ self.asked REGISTRATION buffer answer, P event)
  (hreconnect : ∀ buffer answer, ∀ event ∈ self.asked RECONNECT buffer answer, P event)
  (hkeying : ∀ clientId event, KeyingOp crypto self clientId event.op → P event)
  (htransfer : ∀ event, TransferOp event.op → P event)

include hkeying htransfer in
theorem Approved.forall_mem {clientId : ClientId} {trace : Trace} {outcome : Except Stop Bool}
    (happroved : Approved crypto self clientId trace outcome) : ∀ event ∈ trace, P event := by
  have hkeyed (first : Trace) (result : Except Stop (Response × List UInt8))
      (hkeys : Keying crypto self clientId first result) : ∀ event ∈ first, P event :=
    fun event he => hkeying clientId event (hkeys.ops event he)
  cases happroved with
  | unkeyed trace stop hkeys => exact hkeyed _ _ hkeys
  | refused trace answer privateKey hkeys hcode => exact hkeyed _ _ hkeys
  | short trace answer privateKey hkeys hcode hlength => exact hkeyed _ _ hkeys
  | keyed trace answer privateKey rest outcome hkeys hcode hlength hsending =>
      have hrest : ∀ event ∈ rest, P event :=
        fun event he => htransfer event (hsending.ops event he)
      exact List.forall_mem_append.mpr ⟨hkeyed _ _ hkeys, hrest⟩

include hregister hkeying htransfer

theorem Registration.forall_mem {trace : Trace} {outcome : Except Stop Bool}
    (hregistration : Registration crypto self trace outcome) : ∀ event ∈ trace, P event := by
  cases hregistration with
  | refused buffer answer hcode => exact hregister buffer answer
  | approved buffer answer rest outcome hcode happroved =>
      have hrest := happroved.forall_mem P hkeying htransfer
      exact List.forall_mem_append.mpr ⟨hregister buffer answer, hrest⟩

include hreconnect

theorem Reconnection.forall_mem {trace : Trace} {outcome : Except Stop Bool}
    (hreconnection : Reconnection crypto self trace outcome) : ∀ event ∈ trace, P event := by
  cases hreconnection with
  | rejected buffer answer rest outcome hcode hregistration =>
      have hrest := hregistration.forall_mem P hregister hkeying htransfer
      exact List.forall_mem_append.mpr ⟨hreconnect buffer answer, hrest⟩
  | refused buffer answer hreject happrove => exact hreconnect buffer answer
  | approved buffer answer rest outcome hcode happroved =>
      have hrest := happroved.forall_mem P hkeying htransfer
      exact List.forall_mem_append.mpr ⟨hreconnect buffer answer, hrest⟩

end Events

end ProtocolHandler

end TransferClient
