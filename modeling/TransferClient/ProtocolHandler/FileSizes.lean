import TransferClient.ProtocolHandler.FilePayload
import TransferClient.Socket.Memory

namespace TransferClient

open Interaction Bytes Client ServerRequests ServerResponses

-- The length of the hex text of an IV and of a padded file.
def encryptedSize (length : Nat) : Nat :=
  2 * (16 + 16 * (length / 16 + 1))

-- The sizes of a request as they should be for this file: `encrypt` has been told the whole
-- length of the file, as the run's key and IV show, and the size at the head of the payload, that
-- of the payload and that of the frame are right.
structure SizesExact (crypto : CryptoPP) (trace : Trace) (p : List UInt8) (request : Request) :
    Prop where
  plaintext : ∃ encrypted_aes_key privateKey aes_key iv,
    ⟨.rsaDecrypt encrypted_aes_key privateKey, some aes_key⟩ ∈ trace ∧
    ⟨.generateBlock, some iv⟩ ∈ trace ∧
      (request.payload.drop 259).take (encryptedSize p.length) =
        hex (iv.val ++ crypto.cbcEncryption aes_key iv.val p)
  content : fromBigEndian (request.payload.take 4) = encryptedSize p.length
  payload : request.payloadSize.toNat = 259 + encryptedSize p.length
  frame : request.frame.length = 24 + (259 + encryptedSize p.length)

namespace ProtocolHandler

-- Every run that reads this file sends it with exact sizes, and a file whose sizes do not
-- fit is not sent.
structure SizesHold (crypto : CryptoPP) (client : ProtocolHandler)
    (encrypted_aes_key privateKey : List UInt8) (clientId : ClientId) (p : List UInt8) : Prop where
  exact : ∀ trace outcome,
    (client.handleFileEncryptionAndSend crypto encrypted_aes_key privateKey clientId).Runs trace outcome →
    ⟨.ifstream client.filePath, some p⟩ ∈ trace →
    ∀ request, sent request ∈ trace → request.code = SEND_FILE → SizesExact crypto trace p request
  unfit : 2 ^ 32 ≤ 259 + encryptedSize p.length → ∀ trace outcome,
    (client.handleFileEncryptionAndSend crypto encrypted_aes_key privateKey clientId).Runs trace outcome →
    ⟨.ifstream client.filePath, some p⟩ ∈ trace → SEND_FILE ∉ codes trace ∧ outcome ≠ .ok true

variable {crypto : CryptoPP} {self : ProtocolHandler} {encrypted_aes_key privateKey : List UInt8}
  {clientId : ClientId} {p : List UInt8}

-- The loop does not read the file that it sends.
theorem Retries.op_ne_ifstream {file : Request} {maxRetries : Nat} {failed : List Trace}
    {trace : Trace}
    {outcome : Except Stop Bool}
    (hretries : Retries self file clientId maxRetries failed trace outcome) :
    ∀ event ∈ trace, ∀ path, event.op ≠ .ifstream path := by
  intro event he path hop
  have hretry := hretries.ops event he
  rw [hop] at hretry
  exact hretry

-- A SEND_FILE is made from the file that the run has read.
theorem FileSending.fileRequest {trace : Trace} {outcome : Except Stop Bool}
    (hsending : FileSending crypto self encrypted_aes_key privateKey clientId trace outcome)
    (request : Request) (hsent : sent request ∈ trace) (hcode : request.code = SEND_FILE)
    (hread : ⟨.ifstream self.filePath, some p⟩ ∈ trace) :
    ∃ (aes_key : List UInt8) (iv : Buffer 16)
      (buffer : Buffer (4 + 255 + (CryptoHandler.encryptedContent crypto p aes_key iv).length + 1))
      (payload : {payload : List UInt8 //
        4 + 255 + (CryptoHandler.encryptedContent crypto p aes_key iv).length ≤ payload.length}),
      ⟨.rsaDecrypt encrypted_aes_key privateKey, some aes_key⟩ ∈ trace ∧
      ⟨.generateBlock, some iv⟩ ∈ trace ∧
      aes_key.length = 16 ∧
      payload.val = fillPayloadBuffer self.filePath (CryptoHandler.encryptedContent crypto p aes_key iv)
        buffer.val ∧
      request = ProtocolHandler.fileRequest clientId _ payload := by
  cases hsending with
  | noAesKey => simp at hsent
  | noFile aes_key => simp at hsent
  | wrongKey aes_key contents hlength => simp at hsent
  | noBlock aes_key contents hlength => simp at hsent
  | sending aes_key contents iv buffer payload failed loop outcome hlength hpayload hretries =>
      have hloop : ⟨.ifstream self.filePath, some p⟩ ∉ loop := fun h =>
        hretries.op_ne_ifstream _ h self.filePath rfl
      obtain rfl : p = contents := by simpa [hloop] using hread
      exact ⟨aes_key, iv, buffer, payload, by simp, by simp, hlength, hpayload,
        hretries.file_only request (by simpa using hsent) hcode⟩

-- There is a run that reads this file and sends it, whatever its size is.
theorem handleFileEncryptionAndSend_sends (crypto : CryptoPP) (self : ProtocolHandler)
    (encrypted_aes_key privateKey : List UInt8) (clientId : ClientId) (p : List UInt8) :
    ∃ trace outcome request,
      (self.handleFileEncryptionAndSend crypto encrypted_aes_key privateKey clientId).Runs trace outcome ∧
      ⟨.ifstream self.filePath, some p⟩ ∈ trace ∧ sent request ∈ trace ∧
      request.code = SEND_FILE := by
  have hkey : (List.replicate 16 (0 : UInt8)).length = 16 := List.length_replicate
  let content :=
    CryptoHandler.encryptedContent crypto p (List.replicate 16 0) ⟨List.replicate 16 0, hkey⟩
  have hbuffer : (List.replicate (4 + 255 + content.length + 1) (0 : UInt8)).length =
      4 + 255 + content.length + 1 := List.length_replicate
  let payload : {payload : List UInt8 // 4 + 255 + content.length ≤ payload.length} :=
    ⟨fillPayloadBuffer self.filePath content (List.replicate (4 + 255 + content.length + 1) 0), by
      have h := length_le_fillPayloadBuffer self.filePath content
        (List.replicate (4 + 255 + content.length + 1) 0)
      omega⟩
  -- The answer to the file is too short for a checksum, and ends the run.
  let answer : Response := ⟨PROTOCOL_VERSION, FILE_RECEIVED_CRC_OK, 0, []⟩
  refine ⟨[⟨.rsaDecrypt encrypted_aes_key privateKey, some (List.replicate 16 0)⟩,
    ⟨.ifstream self.filePath, some p⟩, ⟨.generateBlock, some ⟨List.replicate 16 0, hkey⟩⟩,
    ⟨.newArray (4 + 255 + content.length + 1), ⟨_, hbuffer⟩⟩,
    sent (ProtocolHandler.fileRequest clientId content payload), got answer], .error .undefined,
    ProtocolHandler.fileRequest clientId content payload, ?_, by simp, by simp, rfl⟩
  exact ⟨_, _, rfl, _, _, rfl, _, _, rfl, _, _, rfl, _, _, rfl, _, _, rfl, rfl, rfl⟩

-- The sizes of a file that fits.
theorem sizesExact_of_fits (hcbcLength : ∀ key iv plain, key.length = 16 → iv.length = 16 →
      (crypto.cbcEncryption key iv plain).length = 16 * (plain.length / 16 + 1))
    {trace : Trace} (aes_key : List UInt8) (iv : Buffer 16)
    (hdecrypted : ⟨.rsaDecrypt encrypted_aes_key privateKey, some aes_key⟩ ∈ trace)
    (hblock : ⟨.generateBlock, some iv⟩ ∈ trace) (hkey : aes_key.length = 16)
    (buffer : Buffer (4 + 255 + (CryptoHandler.encryptedContent crypto p aes_key iv).length + 1))
    (payload : {payload : List UInt8 //
      4 + 255 + (CryptoHandler.encryptedContent crypto p aes_key iv).length ≤ payload.length})
    (hpayload : payload.val = fillPayloadBuffer self.filePath
      (CryptoHandler.encryptedContent crypto p aes_key iv) buffer.val)
    (hfits : 259 + encryptedSize p.length < 2 ^ 32) :
    SizesExact crypto trace p (ProtocolHandler.fileRequest clientId _ payload) := by
  have hlarger : p.length ≤ encryptedSize p.length := by
    unfold encryptedSize
    omega
  obtain ⟨hcontent, hlength, hnull⟩ := encryptedContent_of_small crypto aes_key p iv (by omega)
    (hcbcLength aes_key iv.val p hkey iv.property)
  have hsmall : (CryptoHandler.encryptedContent crypto p aes_key iv).length = encryptedSize p.length := hlength
  obtain ⟨hsize, htake⟩ := fileRequest_payload self.filePath _ clientId buffer payload hpayload hnull
    (by omega)
  rw [hsmall] at hsize htake
  have hword := word_of_lt (encryptedSize p.length) (by omega)
  constructor
  · refine ⟨encrypted_aes_key, privateKey, aes_key, iv, hdecrypted, hblock, ?_⟩
    have htext := congrArg (List.drop 259) htake
    rw [List.drop_take, Nat.add_sub_cancel_left, show 259 = 4 + 255 from rfl] at htext
    rw [htext, ← hcontent]
    exact List.drop_left' (by rw [List.length_append, length_bigEndian, length_strncpy])
  · have hfour : (ProtocolHandler.fileRequest clientId _ payload).payload.take 4 =
        bigEndian 4 (encryptedSize p.length) := by
      have hprefix := congrArg (List.take 4) htake
      rw [List.take_take, Nat.min_eq_left (by omega), hword, List.append_assoc,
        List.take_left' (length_bigEndian _ _)] at hprefix
      exact hprefix
    rw [hfour, fromBigEndian_bigEndian, Nat.mod_eq_of_lt (by omega)]
  · exact hsize
  · rw [Request.frame, List.length_append, Socket.length_frame_header,
      List.length_take_of_le (ProtocolHandler.fileRequest clientId _ payload).inBounds, hsize]

-- The sizes of a file hold exactly when the largest of them fits into 32 bits.
theorem sizesHold_iff (crypto : CryptoPP)
    (hcbcLength : ∀ key iv plain, key.length = 16 → iv.length = 16 →
      (crypto.cbcEncryption key iv plain).length = 16 * (plain.length / 16 + 1))
    (self : ProtocolHandler) (encrypted_aes_key privateKey : List UInt8) (clientId : ClientId)
    (p : List UInt8) :
    SizesHold crypto self encrypted_aes_key privateKey clientId p ↔
      259 + encryptedSize p.length < 2 ^ 32 := by
  constructor
  · intro hsizes
    obtain ⟨trace, outcome, request, hruns, hread, hsent, hcode⟩ :=
      handleFileEncryptionAndSend_sends crypto self encrypted_aes_key privateKey clientId p
    have hpayload := (hsizes.exact trace outcome hruns hread request hsent hcode).payload
    have hlt := request.payloadSize.toNat_lt
    omega
  · intro hfits
    constructor
    · intro trace outcome hruns hread request hsent hcode
      have hsending :=
        self.handleFileEncryptionAndSend_sending crypto _ _ clientId trace outcome hruns
      obtain ⟨aes_key, iv, buffer, payload, hdecrypted, hblock, hkey, hpayload, rfl⟩ :=
        hsending.fileRequest request hsent hcode hread
      exact sizesExact_of_fits hcbcLength aes_key iv hdecrypted hblock hkey buffer payload hpayload
        hfits
    · intro hunfit
      omega

theorem sizesHold_empty : SizesHold Sample.crypto Sample.client [] [] Sample.clientId [] :=
  (sizesHold_iff Sample.crypto (fun _ _ plain _ _ => Sample.length_cipher plain) Sample.client [] []
    Sample.clientId []).mpr (by decide)

-- The encrypted text of a file of 2 GiB exceeds 4 GiB.
theorem sizes_of_2_GiB :
    ¬SizesHold Sample.crypto Sample.client [] [] Sample.clientId (List.replicate (2 ^ 31) 0) := by
  intro hsizes
  have hlarge : 2 ^ 32 ≤ 259 + encryptedSize (List.replicate (2 ^ 31) (0 : UInt8)).length := by
    rw [List.length_replicate]
    decide
  obtain ⟨trace, outcome, request, hruns, hread, hsent, hcode⟩ :=
    handleFileEncryptionAndSend_sends Sample.crypto Sample.client [] [] Sample.clientId
      (List.replicate (2 ^ 31) 0)
  have hpayload := (hsizes.exact trace outcome hruns hread request hsent hcode).payload
  have hlt := request.payloadSize.toNat_lt
  omega

end ProtocolHandler

end TransferClient
