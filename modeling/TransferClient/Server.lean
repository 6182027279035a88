import TransferClient.Checksum.Theorems
import TransferClient.ProtocolHandler.FilePayload
import TransferClient.Socket.Requests

namespace TransferClient

open Interaction Bytes ServerRequests ServerResponses

-- The other side of the protocol, with the AES key that it has chosen: how it decrypts a
-- file, and which texts are an encryption of this key under a public key.
structure Server where
  rsaEncrypts : (publicKey ciphertext : List UInt8) → Prop
  cbcDecryption : (key iv ciphertext : List UInt8) → List UInt8
  aesKey : List UInt8

namespace Server

variable (server : Server)

-- The name and the contents of the file that a request brings.
def stored (request : Request) : Option (List UInt8 × List UInt8) := do
  let received ← receiveFile (request.payload.take request.payloadSize.toNat)
  return (received.name, server.cbcDecryption server.aesKey received.iv received.ciphertext)

-- What stands behind the name field of a request.
def offeredKey (request : Request) : List UInt8 :=
  (request.payload.take request.payloadSize.toNat).drop NAME_FIELD_SIZE

-- A server that lets the client in, sends its key under the public key that it was offered,
-- answers a file with the standard checksum of what it has stored, and accepts the verdict.
structure Serves (request : Request) (response : Response) : Prop where
  registration : request.code = REGISTRATION → response.code = REGISTRATION_SUCCESS
  reconnect : request.code = RECONNECT →
    response.code = APPROVE_RECONNECT_SEND_AES ∨ response.code = RECONNECT_REJECTED
  publicKey : request.code = SEND_PUBLIC_KEY → response.code = RECEIVED_PUBLIC_KEY_SEND_AES ∧
    16 ≤ response.payload.length ∧
    server.rsaEncrypts (offeredKey request) (response.payload.drop 16)
  file : request.code = SEND_FILE → ∀ stored ∈ server.stored request,
    response.code = FILE_RECEIVED_CRC_OK ∧
    littleEndian 4 (Checksum.cksum stored.2).toNat <:+ response.payload
  verdict : request.code = CRC_CORRECT → response.code = CONFIRM_MSG

instance [DecidableRel server.rsaEncrypts] (request : Request) (response : Response) :
    Decidable (server.Serves request response) :=
  decidable_of_iff
    ((request.code = REGISTRATION → response.code = REGISTRATION_SUCCESS) ∧
      (request.code = RECONNECT →
        response.code = APPROVE_RECONNECT_SEND_AES ∨ response.code = RECONNECT_REJECTED) ∧
      (request.code = SEND_PUBLIC_KEY → response.code = RECEIVED_PUBLIC_KEY_SEND_AES ∧
        16 ≤ response.payload.length ∧
        server.rsaEncrypts (offeredKey request) (response.payload.drop 16)) ∧
      (request.code = SEND_FILE → ∀ stored ∈ server.stored request,
        response.code = FILE_RECEIVED_CRC_OK ∧
        littleEndian 4 (Checksum.cksum stored.2).toNat <:+ response.payload) ∧
      (request.code = CRC_CORRECT → response.code = CONFIRM_MSG))
    ⟨fun ⟨h₁, h₂, h₃, h₄, h₅⟩ => ⟨h₁, h₂, h₃, h₄, h₅⟩, fun ⟨h₁, h₂, h₃, h₄, h₅⟩ => ⟨h₁, h₂, h₃, h₄, h₅⟩⟩

-- The ciphers of both sides belong together. CBC pads to whole blocks.
structure Matches (crypto : CryptoPP) : Prop where
  keyed : server.aesKey.length = 16
  padded : ∀ key iv plain, key.length = 16 → iv.length = 16 →
    (crypto.cbcEncryption key iv plain).length = 16 * (plain.length / 16 + 1)
  inverse : ∀ key iv plain, key.length = 16 → iv.length = 16 →
    server.cbcDecryption key iv (crypto.cbcEncryption key iv plain) = plain

end Server

-- The machine does what it is asked: it connects, it can write files, it makes keys and
-- random blocks, and the file at `path` has these contents whenever it is read.
def Works (path contents : List UInt8) : (op : Op) → Ans op → Prop
  | .socket, created => created = true
  | .connect _ _, connected => connected = true
  | .ofstream _, opened => opened = true
  | .ifstream other, file => other = path → file = some contents
  | .ifstreamAte other, reading => other = path → reading = .contents contents
  | .generateKeyPair, keys => ∃ pair ∈ keys, 0 ∉ pair.publicKey ∧
      NAME_FIELD_SIZE + pair.publicKey.length < 2 ^ 32
  | .generateBlock, block => block.isSome = true
  | .newArray _, _ => True
  | .sendRequest _, _ => True
  | .getResponse, _ => True
  | .put _ _, _ => True
  | .rsaDecrypt _ _, _ => True

instance (path contents : List UInt8) :
    (op : Op) → (answer : Ans op) → Decidable (Works path contents op answer)
  | .socket, created => inferInstanceAs (Decidable (created = true))
  | .connect _ _, connected => inferInstanceAs (Decidable (connected = true))
  | .ofstream _, opened => inferInstanceAs (Decidable (opened = true))
  | .ifstream other, file => inferInstanceAs (Decidable (other = path → file = some contents))
  | .ifstreamAte other, reading =>
      inferInstanceAs (Decidable (other = path → reading = .contents contents))
  | .generateKeyPair, keys => inferInstanceAs (Decidable (∃ pair ∈ keys, 0 ∉ pair.publicKey ∧
      NAME_FIELD_SIZE + pair.publicKey.length < 2 ^ 32))
  | .generateBlock, block => inferInstanceAs (Decidable (block.isSome = true))
  | .newArray _, _ => .isTrue trivial
  | .sendRequest _, _ => .isTrue trivial
  | .getResponse, _ => .isTrue trivial
  | .put _ _, _ => .isTrue trivial
  | .rsaDecrypt _ _, _ => .isTrue trivial

-- A run in which the machine and the server do their part. A private key opens what is
-- encrypted under the public key that it was made with.
structure Cooperates (server : Server) (path contents : List UInt8) (trace : Trace) : Prop where
  works : ∀ event ∈ trace, Works path contents event.op event.answer
  decrypts : ∀ (keys : KeyPair) (ciphertext : List UInt8) (plain : Option (List UInt8)),
    ⟨.generateKeyPair, some keys⟩ ∈ trace → server.rsaEncrypts keys.publicKey ciphertext →
    ⟨.rsaDecrypt ciphertext keys.privateKey, plain⟩ ∈ trace → plain = some server.aesKey
  serves : ∀ past request response future,
    trace = past ++ sent request :: got response :: future → server.Serves request response

namespace Cooperates

variable {server : Server} {path contents : List UInt8}

theorem of_append_left {first second : Trace}
    (hcooperates : Cooperates server path contents (first ++ second)) :
    Cooperates server path contents first where
  works event hevent := hcooperates.works event (List.mem_append_left _ hevent)
  decrypts keys ciphertext plain hkeys hsealed hplain := hcooperates.decrypts keys ciphertext plain
    (List.mem_append_left _ hkeys) hsealed (List.mem_append_left _ hplain)
  serves past request response future hsplit := by
    apply hcooperates.serves past request response (future ++ second)
    rw [hsplit, List.append_assoc, List.cons_append, List.cons_append]

theorem of_append_right {first second : Trace}
    (hcooperates : Cooperates server path contents (first ++ second)) :
    Cooperates server path contents second where
  works event hevent := hcooperates.works event (List.mem_append_right _ hevent)
  decrypts keys ciphertext plain hkeys hsealed hplain := hcooperates.decrypts keys ciphertext plain
    (List.mem_append_right _ hkeys) hsealed (List.mem_append_right _ hplain)
  serves past request response future hsplit := by
    apply hcooperates.serves (first ++ past) request response future
    rw [hsplit, List.append_assoc]

end Cooperates

-- Each request with the response behind it.
def answered : List Message → List Exchange
  | .request request :: .response response :: rest => (request, response) :: answered rest
  | _ :: rest => answered rest
  | [] => []

theorem mem_answered (past future : List Message) (request : Request) (response : Response) :
    (request, response) ∈ answered (past ++ .request request :: .response response :: future) := by
  generalize hlist : past ++ .request request :: .response response :: future = list
  fun_induction answered list generalizing past with
  | case1 other answer rest ih =>
      match past with
      | [] =>
          cases hlist
          exact List.mem_cons_self
      | [message] =>
          cases hlist
      | first :: second :: past =>
          cases hlist
          exact List.mem_cons_of_mem _ (ih past rfl)
  | case2 message rest hother ih =>
      cases past with
      | nil =>
          cases hlist
          exact absurd rfl (hother request response future rfl)
      | cons first past =>
          cases hlist
          exact ih past rfl
  | case3 => cases past <;> cases hlist

-- It is enough to look at each exchange of a run.
theorem of_answered {P : Request → Response → Prop} {trace : Trace}
    (hanswered : ∀ exchange ∈ answered (messages trace), P exchange.1 exchange.2) (past : Trace)
    (request : Request) (response : Response) (future : Trace)
    (hsplit : trace = past ++ sent request :: got response :: future) : P request response := by
  have hmessages : messages trace =
      messages past ++ .request request :: .response response :: messages future := by
    simp [hsplit, messages]
  rw [hmessages] at hanswered
  exact hanswered _ (mem_answered _ _ request response)

end TransferClient
