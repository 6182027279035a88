import TransferClient.ProtocolHandler.Flow
import TransferClient.ProtocolHandler.Payloads
import TransferClient.World

namespace TransferClient

open Interaction Bytes Client ServerRequests ServerResponses

-- What a receiver takes out of the payload of SEND_FILE.
structure ReceivedFile where
  size : Nat
  name : List UInt8
  iv : List UInt8
  ciphertext : List UInt8
deriving DecidableEq

-- The receiver's reading: a size, a name field, and as many bytes of hex text. The
-- first 16 bytes of the content are the IV.
def receiveFile (payload : List UInt8) : Option ReceivedFile :=
  let size := fromBigEndian (payload.take 4)
  let content := payload.drop 259
  if payload.length = 259 + size then do
    let bytes ← unhex content
    return ⟨size, cString ((payload.drop 4).take 255), bytes.take 16, bytes.drop 16⟩
  else
    none

theorem receiveFile_payload (fileName content iv ciphertext : List UInt8)
    (hcontent : content = hex (iv ++ ciphertext)) (hiv : iv.length = 16)
    (hsmall : content.length < 2 ^ 32) :
    receiveFile (bigEndian 4 (UInt32.ofNat content.length).toNat ++ strncpy fileName 255 ++ content) =
      some ⟨content.length, (cString fileName).take 255, iv, ciphertext⟩ := by
  have hword := word_of_lt content.length hsmall
  rw [hword, List.append_assoc]
  have hsize : (bigEndian 4 content.length ++ (strncpy fileName 255 ++ content)).take 4 =
      bigEndian 4 content.length := List.take_left' (length_bigEndian _ _)
  have hrest : (bigEndian 4 content.length ++ (strncpy fileName 255 ++ content)).drop 4 =
      strncpy fileName 255 ++ content := List.drop_left' (length_bigEndian _ _)
  have hname : (strncpy fileName 255 ++ content).take 255 = strncpy fileName 255 :=
    List.take_left' (length_strncpy _ _)
  have htext : (bigEndian 4 content.length ++ (strncpy fileName 255 ++ content)).drop 259 =
      content := by
    rw [show 259 = 4 + 255 from rfl, ← List.drop_drop, hrest]
    exact List.drop_left' (length_strncpy _ _)
  have hvalue : fromBigEndian (bigEndian 4 content.length) = content.length := by
    rw [fromBigEndian_bigEndian, Nat.mod_eq_of_lt (by omega)]
  have hlength : (bigEndian 4 content.length ++ (strncpy fileName 255 ++ content)).length =
      259 + content.length := by
    rw [List.length_append, List.length_append, length_bigEndian, length_strncpy]
    omega
  have hunhex : unhex content = some (iv ++ ciphertext) := by
    rw [hcontent, unhex_hex]
  have hfirst : (iv ++ ciphertext).take 16 = iv := List.take_left' hiv
  have hsecond : (iv ++ ciphertext).drop 16 = ciphertext := List.drop_left' hiv
  simp only [receiveFile, hsize, hrest, hname, htext, hvalue, hlength, if_true, hunhex,
    Option.bind_eq_bind, Option.bind_some, Option.pure_def, hfirst, hsecond, cString_strncpy]

-- The size of a file that fits into a request fits into the length of `encrypt`.
theorem encryptedPart_of_small (p : List UInt8) (hp : p.length < 2 ^ 32) :
    CryptoHandler.encryptedPart p = p := by
  rw [CryptoHandler.encryptedPart, word_of_lt p.length hp, List.take_length]

-- The content of the request is hex text of the IV and of the whole file's ciphertext.
theorem encryptedContent_of_small (crypto : CryptoPP) (aes_key p : List UInt8) (iv : Buffer 16)
    (hsmall : p.length < 2 ^ 32)
    (hcipher : (crypto.cbcEncryption aes_key iv.val p).length = 16 * (p.length / 16 + 1)) :
    CryptoHandler.encryptedContent crypto p aes_key iv =
        hex (iv.val ++ crypto.cbcEncryption aes_key iv.val p) ∧
      (CryptoHandler.encryptedContent crypto p aes_key iv).length =
        2 * (16 + 16 * (p.length / 16 + 1)) ∧
      0 ∉ CryptoHandler.encryptedContent crypto p aes_key iv := by
  have hcontent : CryptoHandler.encryptedContent crypto p aes_key iv =
      hex (iv.val ++ crypto.cbcEncryption aes_key iv.val p) := by
    rw [CryptoHandler.encryptedContent, encryptedPart_of_small p hsmall]
  refine ⟨hcontent, ?_, ?_⟩
  · rw [hcontent, length_hex, List.length_append, iv.property, hcipher]
  · rw [hcontent]
    exact null_notMem_hex _

-- The part of the request's memory that `payloadSize` covers.
theorem fileRequest_payload (fileName content : List UInt8) (clientId : ClientId)
    (buffer : Buffer (4 + 255 + content.length + 1))
    (payload : {payload : List UInt8 // 4 + 255 + content.length ≤ payload.length})
    (hpayload : payload.val = fillPayloadBuffer fileName content buffer.val) (hnull : 0 ∉ content)
    (hsmall : 259 + content.length < 2 ^ 32) :
    (ProtocolHandler.fileRequest clientId content payload).payloadSize.toNat = 259 + content.length ∧
    (ProtocolHandler.fileRequest clientId content payload).payload.take (259 + content.length) =
      bigEndian 4 (UInt32.ofNat content.length).toNat ++ strncpy fileName 255 ++ content := by
  constructor
  · show (UInt32.ofNat (4 + 255 + content.length)).toNat = 259 + content.length
    rw [word_of_lt _ (by omega)]
  · show payload.val.take (259 + content.length) = _
    rw [hpayload, fillPayloadBuffer_eq fileName content buffer hnull, ← List.append_assoc]
    apply List.take_left'
    rw [List.length_append, List.length_append, length_bigEndian, length_strncpy]

-- `readCrc` of a file that has these contents.
theorem readCrc_unchanged (fname contents : List UInt8) (result : Except Stop UInt32) :
    (readCrc fname).Runs [⟨.ifstreamAte fname, .contents contents⟩] result ↔
      result = crcOf (.contents contents) := by
  rw [runs_readCrc]
  constructor
  · rintro ⟨reading, htrace, hresult⟩
    cases htrace
    exact hresult
  · intro hresult
    exact ⟨.contents contents, rfl, hresult⟩

namespace ProtocolHandler

-- The loop sends one request with this code, over and over.
theorem Retries.file_only {self : ProtocolHandler} {file : Request} {clientId : ClientId}
    {maxRetries : Nat} {failed : List Trace} {trace : Trace} {outcome : Except Stop Bool}
    (hretries : Retries self file clientId maxRetries failed trace outcome) (request : Request)
    (hsent : sent request ∈ trace) (hcode : request.code = SEND_FILE) : request = file := by
  rcases hretries.ops _ hsent with hfile | ⟨code, buffer, hstatus, rfl⟩
  · exact hfile
  · exact absurd hcode hstatus.ne.2.2.2

-- From the file to the plaintext of a receiver: the payload is written to its last
-- byte, its fields are read back, and decryption gives the file and its checksum.
theorem sendFile_roundTrip (crypto : CryptoPP)
    (cbcDecryption : (key iv cipher : List UInt8) → List UInt8)
    (hcbcLength : ∀ key iv plain, key.length = 16 → iv.length = 16 →
      (crypto.cbcEncryption key iv plain).length = 16 * (plain.length / 16 + 1))
    (hcbcInverse : ∀ key iv plain, key.length = 16 → iv.length = 16 →
      cbcDecryption key iv (crypto.cbcEncryption key iv plain) = plain)
    (self : ProtocolHandler) (encrypted_aes_key privateKey : List UInt8) (clientId : ClientId)
    (aes_key p : List UInt8) (iv : Buffer 16) (rest : Trace) (outcome : Except Stop Bool)
    (hruns : (self.handleFileEncryptionAndSend crypto encrypted_aes_key privateKey clientId).Runs
      ([⟨.rsaDecrypt encrypted_aes_key privateKey, some aes_key⟩, ⟨.ifstream self.filePath, some p⟩,
        ⟨.generateBlock, some iv⟩] ++ rest) outcome)
    (hbound : 259 + 2 * (16 + 16 * (p.length / 16 + 1)) < 2 ^ 32)
    (request : Request) (hsent : sent request ∈ rest) (hcode : request.code = SEND_FILE) :
    request.payloadSize.toNat = 259 + 2 * (16 + 16 * (p.length / 16 + 1)) ∧
    request.payload.take request.payloadSize.toNat =
      bigEndian 4 (2 * (16 + 16 * (p.length / 16 + 1))) ++ strncpy self.filePath 255 ++
        hex (iv.val ++ crypto.cbcEncryption aes_key iv.val p) ∧
    ∃ received, receiveFile (request.payload.take request.payloadSize.toNat) = some received ∧
      received.size = 2 * (16 + 16 * (p.length / 16 + 1)) ∧
      received.name = (cString self.filePath).take 255 ∧ received.iv = iv.val ∧
      cbcDecryption aes_key received.iv received.ciphertext = p ∧
      ∃ crc : UInt32,
        Checksum.memcrc (cbcDecryption aes_key received.iv received.ciphertext)
          (BitVec.ofNat 64 (cbcDecryption aes_key received.iv received.ciphertext).length) =
            some (BitVec.ofNat 64 crc.toNat) ∧
        crcOf (.contents p) = .ok crc ∧
        ∀ result, (readCrc self.filePath).Runs [⟨.ifstreamAte self.filePath, .contents p⟩] result ↔
          result = .ok crc := by
  generalize hall : ([⟨.rsaDecrypt encrypted_aes_key privateKey, some aes_key⟩,
    ⟨.ifstream self.filePath, some p⟩, ⟨.generateBlock, some iv⟩] ++ rest : Trace) = trace at hruns
  have hflow := self.handleFileEncryptionAndSend_sending crypto _ _ clientId trace outcome hruns
  cases hflow with
  | noAesKey => cases hall
  | noFile => cases hall
  | wrongKey => cases hall
  | noBlock => cases hall
  | sending key contents block buffer payload failed loop outcome hkey hpayload hretries =>
      cases hall
      have hfile := hretries.file_only request (by simpa using hsent) hcode
      obtain ⟨hcontent, hlength, hnull⟩ := encryptedContent_of_small crypto aes_key p iv (by omega)
        (hcbcLength aes_key iv.val p hkey iv.property)
      obtain ⟨hsize, htake⟩ := fileRequest_payload self.filePath _ clientId buffer payload hpayload hnull
        (by omega)
      have hword := word_of_lt (2 * (16 + 16 * (p.length / 16 + 1))) (by omega)
      have hreceive := receiveFile_payload self.filePath _ iv.val _ hcontent iv.property (by omega)
      rw [← htake] at hreceive
      rw [hlength] at hsize htake hreceive
      rw [hfile, hsize]
      have hplain := hcbcInverse aes_key iv.val p hkey iv.property
      refine ⟨rfl, by rw [htake, hword, hcontent], _, hreceive, rfl, rfl, rfl, hplain, ?_⟩
      rw [hplain]
      obtain ⟨crc, hdefined, hcrc⟩ := crcOf_contents p (by omega)
      refine ⟨crc, hdefined, hcrc, fun result => ?_⟩
      rw [readCrc_unchanged, hcrc]

end ProtocolHandler

namespace Sample

-- Takes the padding off. The two ciphertexts of AES end in a byte that no padding has.
def decipher (ciphertext : List UInt8) : List UInt8 :=
  if ciphertext = emptyCiphertext then []
  else if ciphertext = nullCiphertext then nullFile
  else ciphertext.take (ciphertext.length - (ciphertext.getLastD 0).toNat)

theorem length_cipher (plain : List UInt8) :
    (cipher plain).length = 16 * (plain.length / 16 + 1) := by
  unfold cipher
  split
  · rename_i hempty
    rw [hempty]
    rfl
  · split
    · rename_i hnull
      rw [hnull]
      rfl
    · rw [List.length_append, List.length_replicate]
      omega

theorem decipher_padded (plain : List UInt8) (pad : Nat) (hpad : pad < 16) :
    decipher (plain ++ List.replicate (pad + 1) (UInt8.ofNat (pad + 1))) = plain := by
  have hbyte : (UInt8.ofNat (pad + 1)).toNat = pad + 1 := by
    rw [UInt8.toNat_ofNat']
    omega
  have hlast : ((plain ++ List.replicate (pad + 1) (UInt8.ofNat (pad + 1))).getLastD 0).toNat =
      pad + 1 := by
    rw [List.replicate_succ', ← List.append_assoc, List.getLastD_concat, hbyte]
  have hother (ciphertext : List UInt8) (hciphertext : 16 < (ciphertext.getLastD 0).toNat) :
      plain ++ List.replicate (pad + 1) (UInt8.ofNat (pad + 1)) ≠ ciphertext := by
    rintro rfl
    omega
  rw [decipher, if_neg (hother emptyCiphertext (by decide)),
    if_neg (hother nullCiphertext (by decide)), hlast, List.length_append, List.length_replicate,
    Nat.add_sub_cancel, List.take_left]

theorem decipher_cipher (plain : List UInt8) : decipher (cipher plain) = plain := by
  unfold cipher
  split
  · rename_i hempty
    rw [hempty]
    rfl
  · split
    · rename_i hnull
      rw [hnull]
      rfl
    · obtain ⟨pad, hpad⟩ : ∃ pad, 16 - plain.length % 16 = pad + 1 :=
        ⟨15 - plain.length % 16, by omega⟩
      rw [hpad]
      exact decipher_padded plain pad (by omega)

end Sample

namespace ProtocolHandler

-- A file with a NUL byte in it, under the path "file". The server reports its checksum.
theorem sendFile_roundTrip_null :
    let run := (Sample.client.handleFileEncryptionAndSend Sample.crypto [] [] Sample.clientId).exec
      World.handler (World.serving [Sample.frame 2103 [135, 33, 118, 30], Sample.bare 2104]
        fun _ => { Sample.machine with files := fun _ => some Sample.nullFile }.replies)
    run.outcome = .ok true ∧
    ∃ request, sent request ∈ run.trace ∧ request.code = SEND_FILE ∧
      request.payload.take request.payloadSize.toNat =
        bigEndian 4 64 ++ strncpy (text "file") 255 ++ hex (List.replicate 16 9 ++ Sample.nullCiphertext) ∧
      ∃ received, receiveFile (request.payload.take request.payloadSize.toNat) = some received ∧
        received.size = 64 ∧ received.name = text "file" ∧
        Sample.decipher received.ciphertext = Sample.nullFile ∧
        ∃ crc, (readCrc (text "file")).Runs
          [⟨.ifstreamAte (text "file"), .contents Sample.nullFile⟩] (.ok crc) := by
  intro run
  have hstart : run.trace = [⟨.rsaDecrypt [] [], some Sample.machine.aesKey⟩,
      ⟨.ifstream Sample.client.filePath, some Sample.nullFile⟩,
      ⟨.generateBlock, some Sample.machine.block⟩] ++ run.trace.drop 3 := rfl
  have hruns : (Sample.client.handleFileEncryptionAndSend Sample.crypto [] [] Sample.clientId).Runs
      run.trace run.outcome := Prog.exec_runs _ _ _
  rw [hstart] at hruns
  have hcode : SEND_FILE ∈ codes (run.trace.drop 3) := by decide +kernel
  obtain ⟨request, hsent, hfile⟩ := (mem_codes _ _).mp hcode
  obtain ⟨_, hpayload, received, hreceived, hsize, hname, _, hplain, crc, _, _, hcrc⟩ :=
    sendFile_roundTrip Sample.crypto (fun _ _ ciphertext => Sample.decipher ciphertext)
      (fun _ _ plain _ _ => Sample.length_cipher plain)
      (fun _ _ plain _ _ => Sample.decipher_cipher plain) Sample.client [] [] Sample.clientId
      Sample.machine.aesKey Sample.nullFile Sample.machine.block (run.trace.drop 3) run.outcome hruns
      (by decide) request hsent hfile
  exact ⟨by decide +kernel, request, List.mem_of_mem_drop hsent, hfile, hpayload, received, hreceived,
    hsize, hname, hplain, crc, (hcrc _).mpr rfl⟩

end ProtocolHandler

end TransferClient
