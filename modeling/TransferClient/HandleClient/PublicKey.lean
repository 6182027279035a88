import TransferClient.HandleClient.MeInfo
import TransferClient.HandleClient.WriteAhead
import TransferClient.Pem
import TransferClient.ProtocolHandler.RequestStream
import TransferClient.RSAWrapper
import TransferClient.Server

namespace TransferClient

open Interaction Bytes Client ProtocolHandler ServerRequests

-- The DER text in a public key, as a server reads it.
def publicKeyOf (pemKey : List UInt8) : Option (List UInt8) :=
  Pem.decode (text "-----BEGIN PUBLIC KEY-----") (text "-----END PUBLIC KEY-----") pemKey

section Encoder

variable {crypto : CryptoPP}
  (hencoder : ∀ key, (crypto.base64Encoder key).filter (· != 10) = Base64.encode key)

include hencoder

theorem notMem_base64Encoder {c : UInt8} (hline : c ≠ 10) (hvalue : Base64.value c = none)
    (hpad : c ≠ Base64.pad) (key : List UInt8) : c ∉ crypto.base64Encoder key := by
  intro hmem
  have hkept : c ∈ (crypto.base64Encoder key).filter (· != 10) :=
    List.mem_filter.mpr ⟨hmem, by simpa using hline⟩
  rw [hencoder] at hkept
  exact Base64.notMem_encode hvalue hpad key hkept

theorem null_notMem_getPublicKey (rsaPrivate : RSAPrivateWrapper) :
    0 ∉ rsaPrivate.getPublicKey crypto := by
  have hbody :=
    notMem_base64Encoder hencoder (c := 0) (by decide) (by decide) (by decide) rsaPrivate.derKey
  have hopening : 0 ∉ text "-----BEGIN PUBLIC KEY-----\n" := by decide
  have hclosing : 0 ∉ text "\n-----END PUBLIC KEY-----\n" := by decide
  simp only [RSAPrivateWrapper.getPublicKey, List.mem_append, not_or]
  exact ⟨⟨hopening, hbody⟩, hclosing⟩

theorem publicKeyOf_getPublicKey (rsaPrivate : RSAPrivateWrapper) :
    publicKeyOf (rsaPrivate.getPublicKey crypto) = some rsaPrivate.derKey := by
  have hbody :=
    notMem_base64Encoder hencoder (c := 45) (by decide) (by decide) (by decide) rsaPrivate.derKey
  have hlines := Pem.decode_lines (text "-----BEGIN PUBLIC KEY-----") (text "-----END PUBLIC KEY-----")
    (crypto.base64Encoder rsaPrivate.derKey) (by decide) (by decide) (by decide) hbody
  rw [hencoder, Base64.decode_encode] at hlines
  have hopening : text "-----BEGIN PUBLIC KEY-----\n" = text "-----BEGIN PUBLIC KEY-----" ++ [10] := by decide
  have hclosing : text "\n-----END PUBLIC KEY-----\n" =
      10 :: (text "-----END PUBLIC KEY-----" ++ [10]) := by
    decide
  rw [publicKeyOf, RSAPrivateWrapper.getPublicKey, hopening, hclosing, ← hlines]
  simp

end Encoder

-- In every run the server reads, out of a public key that is offered to it, the key itself and
-- the name of the client, and the private key to it is on the disk at that moment, if the disk
-- has taken it.
theorem offered_key_readable (crypto : CryptoPP)
    (hencoder : ∀ key, (crypto.base64Encoder key).filter (· != 10) = Base64.encode key)
    (trace : Trace) (outcome : Except Stop Bool) (hruns : (handleClient crypto).Runs trace outcome)
    (hmade : ∀ keys, ⟨.generateKeyPair, some keys⟩ ∈ trace → ∃ rsaPrivate : RSAPrivateWrapper,
      keys = rsaPrivate.keyPair crypto ∧ NAME_FIELD_SIZE + keys.publicKey.length < 2 ^ 32)
    (past future : Trace) (request : Request) (hsplit : trace = past ++ sent request :: future)
    (hcode : request.code = SEND_PUBLIC_KEY) :
    ∃ (rsaPrivate : RSAPrivateWrapper) (name : List UInt8),
      ⟨.generateKeyPair, some (rsaPrivate.keyPair crypto)⟩ ∈ past ∧ request.Exact ∧
        NameField name (request.payload.take NAME_FIELD_SIZE) ∧
        publicKeyOf (Server.offeredKey request) = some rsaPrivate.derKey ∧
        ((∀ event ∈ past, getsThrough event = true) → ∀ disk : Disk,
          disk.after past PRIVATE_KEY_PATH = some rsaPrivate.getPrivateKey ∧
          disk.after past ME_INFO_PATH =
            some (FileHandler.meInfo crypto name request.clientId rsaPrivate.getPrivateKey)) := by
  have hahead := ((handleClient_flow crypto trace outcome hruns).anywhere around_writtenAhead asked_writtenAhead
    Keying.writtenAhead FileSending.writtenAhead).atEach
  obtain ⟨earlier, self, keys, buffer, keyCount, infoCount, hrequest, hpast⟩ :=
    (hahead past (sent request) _ hsplit).offered request rfl hcode
  have hgenerated : (⟨.generateKeyPair, some keys⟩ : Event Ans) ∈ past := by simp [hpast, keysMade]
  obtain ⟨rsaPrivate, rfl, hsmall⟩ :=
    hmade keys (by rw [hsplit]; exact List.mem_append_left _ hgenerated)
  have hnull := null_notMem_getPublicKey hencoder rsaPrivate
  have hpayload := self.pubkeyRequest_payload request.clientId _ buffer hnull
  have hexact := self.pubkeyRequest_exact request.clientId _ buffer hnull hsmall
  rw [← hrequest] at hpayload hexact
  refine ⟨rsaPrivate, self.clientName, hgenerated, hexact, ?_, ?_, fun hwrites disk => ?_⟩
  · rw [hpayload, List.take_left' (length_nameField _)]
    exact nameField_isField self.clientName
  · have hwhole : request.payload.take request.payloadSize.toNat = request.payload :=
      List.take_of_length_le hexact.le
    rw [Server.offeredKey, hwhole, hpayload, List.drop_left' (length_nameField _)]
    exact publicKeyOf_getPublicKey hencoder rsaPrivate
  · rw [hpast, Disk.after_append]
    apply holds_after_keysWritten crypto self request.clientId (rsaPrivate.keyPair crypto)
    intro event hevent
    exact hwrites event (by simp [hpast, hevent])

namespace Sample

def rsaPrivate : RSAPrivateWrapper :=
  ⟨text "public", text "private"⟩

-- The known client, with keys in the form of the library.
def offering : World :=
  World.serving (approval 2105 :: transferring)
    fun _ => { known (some []) with keys := rsaPrivate.keyPair base64 }.replies

def makes : Event Ans → Bool
  | ⟨.generateKeyPair, keys⟩ => keys == some (rsaPrivate.keyPair base64)
  | _ => true

end Sample

theorem offered_key_readable_known :
    ∃ (run : Execution Ans Stop Bool World) (past future : Trace) (request : Request)
      (rsaPrivate : RSAPrivateWrapper) (name : List UInt8),
      run = (handleClient Sample.base64).exec World.handler Sample.offering ∧
        run.trace = past ++ sent request :: future ∧
        ⟨.generateKeyPair, some (rsaPrivate.keyPair Sample.base64)⟩ ∈ past ∧ request.Exact ∧
        NameField name (request.payload.take NAME_FIELD_SIZE) ∧
        publicKeyOf (Server.offeredKey request) = some rsaPrivate.derKey ∧
        ∀ disk : Disk, disk.after past PRIVATE_KEY_PATH = some rsaPrivate.getPrivateKey ∧
          disk.after past ME_INFO_PATH =
            some (FileHandler.meInfo Sample.base64 name request.clientId rsaPrivate.getPrivateKey) := by
  have hruns := Prog.exec_runs World.handler (handleClient Sample.base64) Sample.offering
  generalize hrun : (handleClient Sample.base64).exec World.handler Sample.offering = run at hruns
  have hcodes : SEND_PUBLIC_KEY ∈ codes run.trace := by
    rw [← hrun]
    decide +kernel
  have hmakes : ∀ event ∈ run.trace, Sample.makes event = true := by
    rw [← hrun]
    decide +kernel
  have hwrites : ∀ event ∈ run.trace, getsThrough event = true := by
    rw [← hrun]
    decide +kernel
  obtain ⟨request, hsent, hcode⟩ := (mem_codes _ _).mp hcodes
  obtain ⟨past, future, hsplit⟩ := List.append_of_mem hsent
  have hmade (keys : KeyPair) (hkeys : ⟨.generateKeyPair, some keys⟩ ∈ run.trace) :
      ∃ rsaPrivate : RSAPrivateWrapper,
        keys = rsaPrivate.keyPair Sample.base64 ∧
        NAME_FIELD_SIZE + keys.publicKey.length < 2 ^ 32 := by
    have hsame : keys = Sample.rsaPrivate.keyPair Sample.base64 := by
      simpa [Sample.makes] using hmakes _ hkeys
    refine ⟨Sample.rsaPrivate, hsame, ?_⟩
    rw [hsame]
    decide +kernel
  have hpast : ∀ event ∈ past, getsThrough event = true :=
    fun event hevent => hwrites event (by simp [hsplit, hevent])
  obtain ⟨rsaPrivate, name, hgenerated, hexact, hname, hkey, hstored⟩ := offered_key_readable Sample.base64
    Sample.base64_encoder run.trace run.outcome hruns hmade past future request hsplit hcode
  exact ⟨run, past, future, request, rsaPrivate, name, rfl, hsplit, hgenerated, hexact, hname, hkey,
    hstored hpast⟩

end TransferClient
