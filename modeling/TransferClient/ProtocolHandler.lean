import TransferClient.Bytes.Theorems
import TransferClient.FileHandler
import TransferClient.CryptoHandler

namespace TransferClient

open Interaction Bytes Client ServerRequests ServerResponses

structure ProtocolHandler where
  serverAddress : List UInt8
  port : Int
  clientName : List UInt8
  filePath : List UInt8

-- One number of a dotted address: no sign, no leading zero, at most 255.
def octet (part : List UInt8) : Option Nat :=
  if part.all isDigit ∧ decimal part ≤ 255 ∧
      (part.length = 1 ∨ (part.length = 2 ∨ part.length = 3) ∧ part.head? ≠ some 48) then
    some (decimal part)
  else
    none

def inet_pton (address : List UInt8) : Option UInt32 :=
  match (cString address).splitOn 46 with
  | [a, b, c, d] => do
      let a ← octet a
      let b ← octet b
      let c ← octet c
      let d ← octet d
      return UInt32.ofNat (fromBigEndian [UInt8.ofNat a, UInt8.ofNat b, UInt8.ofNat c, UInt8.ofNat d])
  | _ => none

-- The trailing four bytes of a payload, in the byte order of the machine.
def trailingCRC (payload : List UInt8) : Option UInt32 :=
  if 4 ≤ payload.length then
    some (UInt32.ofNat (fromLittleEndian (payload.drop (payload.length - 4))))
  else
    none

-- The value of a file for `readCrc`, where 0 stands for every error.
def crcOf : Reading → Except Stop UInt32
  | .cannotOpen => .ok 0
  | .noSize => .ok 0
  | .noMemory => .error (.thrown .allocation)
  | .shortRead => .ok 0
  | .contents buffer =>
      match Checksum.memcrc buffer (BitVec.ofNat 64 buffer.length) with
      | some crcValue => .ok (UInt32.ofNat crcValue.toNat)
      | none => .error .undefined

def readCrc (fname : List UInt8) : Client UInt32 := do
  ofExcept (crcOf (← ifstreamAte fname))

-- `memcpy(clientId, payload.c_str(), std::min<size_t>(16, payload.size()))`
def storeClientId (clientId : ClientId) (payload : List UInt8) : ClientId :=
  ⟨write clientId.val 0 (payload.take 16), by
    rw [length_write _ _ _ (by simp [clientId.property]), clientId.property]⟩

-- `payload.substr(16)`
def skipClientId (payload : List UInt8) : Client (List UInt8) :=
  if 16 ≤ payload.length then pure (payload.drop 16) else raise .outOfRange

theorem payloadSize_inBounds {size : Nat} {payload : List UInt8} (h : size ≤ payload.length) :
    (UInt32.ofNat size).toNat ≤ payload.length := by
  simpa using Nat.le_trans (Nat.mod_le size _) h

def fillPayloadBuffer (fileName content buffer : List UInt8) : List UInt8 :=
  let totalPayloadSize := 4 + 255 + content.length
  let buffer := write buffer 0 (List.replicate totalPayloadSize 0)
  let buffer := write buffer 0 (bigEndian 4 (UInt32.ofNat content.length).toNat)
  let buffer := write buffer 4 (strncpy fileName 255)
  write buffer (4 + 255) (strcpy content)

theorem length_le_fillPayloadBuffer (fileName content buffer : List UInt8) :
    buffer.length ≤ (fillPayloadBuffer fileName content buffer).length := by
  unfold fillPayloadBuffer
  iterate 3 refine le_trans ?_ (length_le_write _ _ _)
  exact length_le_write _ _ _

def createFilePayloadBuffer (fileName content : List UInt8) :
    Client {payload : List UInt8 // 4 + 255 + content.length ≤ payload.length} := do
  let totalPayloadSize := 4 + 255 + content.length
  let buffer ← newArray (totalPayloadSize + 1)
  return ⟨fillPayloadBuffer fileName content buffer.val, by
    have h := length_le_fillPayloadBuffer fileName content buffer.val
    have hb := buffer.property
    omega⟩

namespace ProtocolHandler

def handleConnection (self : ProtocolHandler) : Client Bool := do
  let created ← socket
  if created then
    let sin_port := UInt16.ofNat (self.port % 2 ^ 16).toNat
    let sin_addr := (inet_pton self.serverAddress).getD 0
    connect sin_addr sin_port
  else
    return false

def statusRequest (self : ProtocolHandler) (clientId : ClientId) (code : UInt16)
    (payload_buffer : Buffer (self.filePath.length + 1)) : Request :=
  { clientId
    version := PROTOCOL_VERSION
    code
    payloadSize := UInt32.ofNat (self.filePath.length + 1)
    payload := write payload_buffer.val 0 (strcpy self.filePath)
    inBounds := payloadSize_inBounds
      (payload_buffer.property.symm.le.trans (length_le_write _ _ _)) }

def sendCRCStatusRequest (self : ProtocolHandler) (clientId : ClientId) (code : UInt16) :
    Client Bool := do
  let payload_buffer ← newArray (self.filePath.length + 1)
  sendRequest (self.statusRequest clientId code payload_buffer)
  let file_response ← getResponse
  return file_response.code == CONFIRM_MSG

-- One round of the loop: `some status` leaves it by `break`, `none` goes on.
def attempt (self : ProtocolHandler) (encrypted_content : Request) (clientId : ClientId) :
    Client (Option Bool) := do
  sendRequest encrypted_content
  let response ← getResponse
  if response.code = FILE_RECEIVED_CRC_OK then
    let receivedCRC ← (trailingCRC response.payload).elim undefinedBehaviour pure
    let calculatedCRC ← readCrc self.filePath
    if receivedCRC = calculatedCRC then
      let status ← self.sendCRCStatusRequest clientId CRC_CORRECT
      return some status
    else
      let _ ← self.sendCRCStatusRequest clientId CRC_INCORRECT_RESEND
      return none
  else
    return none

-- The loop `while (retry_count < maxRetries)` has `remaining` rounds left. It
-- gives `status` and `retry_count` as they are behind the loop.
def retryLoop (self : ProtocolHandler) (encrypted_content : Request) (clientId : ClientId) :
    Nat → Int → Client (Bool × Int)
  | 0, retry_count => return (false, retry_count)
  | remaining + 1, retry_count => do
      match ← self.attempt encrypted_content clientId with
      | some status => return (status, retry_count)
      | none => self.retryLoop encrypted_content clientId remaining (retry_count + 1)

def handleRetrySendFile (self : ProtocolHandler) (encrypted_content : Request) (maxRetries : Int)
    (clientId : ClientId) : Client Bool := do
  let (status, retry_count) ← self.retryLoop encrypted_content clientId maxRetries.toNat 0
  if retry_count = maxRetries then
    let _ ← self.sendCRCStatusRequest clientId CRC_INCORRECT_DONE
    return status
  else
    return status

-- The request object of `handleConnectionRequest`, with the empty client id.
def connectionRequest (self : ProtocolHandler) (requestCode : UInt16) : Request :=
  let payload_buffer := List.replicate NAME_FIELD_SIZE 0
  { clientId := ⟨List.replicate 16 0, List.length_replicate⟩
    version := PROTOCOL_VERSION
    code := requestCode
    payloadSize := UInt32.ofNat NAME_FIELD_SIZE
    payload := write payload_buffer 0 (strncpy self.clientName (NAME_FIELD_SIZE - 1))
    inBounds := payloadSize_inBounds
      (List.length_replicate.symm.le.trans (length_le_write _ _ _)) }

def handleConnectionRequest (self : ProtocolHandler) (clientId : ClientId) (requestCode : UInt16) :
    Client (ClientId × Response) := do
  sendRequest (self.connectionRequest requestCode)
  let serverResponse ← getResponse
  return (storeClientId clientId serverResponse.payload, serverResponse)

def pubkeyPayload (self : ProtocolHandler) (publicKey payload_buffer : List UInt8) : List UInt8 :=
  let payload_buffer := write payload_buffer 0
    (List.replicate (NAME_FIELD_SIZE + publicKey.length) 0)
  let payload_buffer := write payload_buffer 0 (strncpy self.clientName (NAME_FIELD_SIZE - 1))
  write payload_buffer NAME_FIELD_SIZE (strncpy publicKey publicKey.length)

theorem length_le_pubkeyPayload (self : ProtocolHandler) (publicKey payload_buffer : List UInt8) :
    payload_buffer.length ≤ (self.pubkeyPayload publicKey payload_buffer).length := by
  unfold pubkeyPayload
  iterate 2 refine le_trans ?_ (length_le_write _ _ _)
  exact length_le_write _ _ _

def pubkeyRequest (self : ProtocolHandler) (clientId : ClientId) (publicKey : List UInt8)
    (payload_buffer : Buffer (NAME_FIELD_SIZE + publicKey.length)) : Request :=
  { clientId
    version := PROTOCOL_VERSION
    code := SEND_PUBLIC_KEY
    payloadSize := UInt32.ofNat (NAME_FIELD_SIZE + publicKey.length)
    payload := self.pubkeyPayload publicKey payload_buffer.val
    inBounds := payloadSize_inBounds
      (payload_buffer.property.symm.le.trans (self.length_le_pubkeyPayload _ _)) }

def handleRSARegistration (crypto : CryptoPP) (self : ProtocolHandler) (clientId : ClientId) :
    Client (Response × List UInt8) := do
  let keys ← CryptoHandler.generate_rsa_key_pair
  let payload_buffer ← newArray (NAME_FIELD_SIZE + keys.publicKey.length)
  let pubkey_request := self.pubkeyRequest clientId keys.publicKey payload_buffer
  FileHandler.savePrivateRSAKey keys.privateKey
  FileHandler.saveMeInfo crypto self.clientName clientId keys.privateKey
  sendRequest pubkey_request
  let serverResponse ← getResponse
  return (serverResponse, keys.privateKey)

def fileRequest (clientId : ClientId) (encrypted_content : List UInt8)
    (payloadBuffer : {payload : List UInt8 // 4 + 255 + encrypted_content.length ≤ payload.length}) :
    Request :=
  { clientId
    version := PROTOCOL_VERSION
    code := SEND_FILE
    payloadSize := UInt32.ofNat (4 + 255 + encrypted_content.length)
    payload := payloadBuffer.val
    inBounds := payloadSize_inBounds payloadBuffer.property }

def handleFileEncryptionAndSend (crypto : CryptoPP) (self : ProtocolHandler)
    (encrypted_aes_key privateKey : List UInt8) (clientId : ClientId) : Client Bool := do
  let aes_key ← CryptoHandler.decrypt_with_rsa encrypted_aes_key privateKey
  let fileContents ← FileHandler.readFileContents self.filePath
  let encrypted_content ← CryptoHandler.encrypt_with_aes crypto fileContents aes_key
  let payloadBuffer ← createFilePayloadBuffer self.filePath encrypted_content
  self.handleRetrySendFile (fileRequest clientId encrypted_content payloadBuffer) 3 clientId

def handleRegistration (crypto : CryptoPP) (self : ProtocolHandler) : Client Bool := do
  let clientId ← newArray 16
  let (clientId, serverResponse) ← self.handleConnectionRequest clientId REGISTRATION
  if serverResponse.code ≠ REGISTRATION_SUCCESS then
    return false
  else
    let (serverResponse, privateKey) ← self.handleRSARegistration crypto clientId
    if serverResponse.code ≠ RECEIVED_PUBLIC_KEY_SEND_AES then
      return false
    else
      let encrypted_aes_key ← skipClientId serverResponse.payload
      self.handleFileEncryptionAndSend crypto encrypted_aes_key privateKey clientId

def handleReconnection (crypto : CryptoPP) (self : ProtocolHandler) : Client Bool := do
  let clientId ← newArray 16
  let (clientId, serverResponse) ← self.handleConnectionRequest clientId RECONNECT
  if serverResponse.code = RECONNECT_REJECTED then
    self.handleRegistration crypto
  else if serverResponse.code ≠ APPROVE_RECONNECT_SEND_AES then
    return false
  else
    let (serverResponse, privateKey) ← self.handleRSARegistration crypto clientId
    if serverResponse.code ≠ RECEIVED_PUBLIC_KEY_SEND_AES then
      return false
    else
      let encrypted_aes_key ← skipClientId serverResponse.payload
      self.handleFileEncryptionAndSend crypto encrypted_aes_key privateKey clientId

end ProtocolHandler

end TransferClient
