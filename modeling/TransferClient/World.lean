import TransferClient.ProtocolHandler
import TransferClient.Socket.Responses

namespace TransferClient

open Interaction

-- The world of a run: the clock counts the questions. `memory t` is what an
-- allocation finds at time `t`; files, keys and random blocks answer by `replies`.
structure World where
  clock : Nat := 0
  memory : Nat → Nat → UInt8
  replies : Nat → (op : Op) → Ans op
  socket : Socket
  upcoming : Nat → Socket

namespace World

def tick (world : World) : World :=
  { world with clock := world.clock + 1 }

def handler : Handler Ans World
  | .newArray size, world =>
      (⟨(List.range size).map (world.memory world.clock), by simp⟩, world.tick)
  | .connect address port, world =>
      let connected := world.replies world.clock (.connect address port)
      let socket := if connected then world.upcoming world.clock else world.socket
      (connected, { world.tick with socket })
  | .sendRequest request, world =>
      ((), { world.tick with
        socket := world.socket.sendRequest (world.memory world.clock) request })
  | .getResponse, world =>
      let (response, socket) := world.socket.getResponse (world.memory world.clock)
      (response, { world.tick with socket })
  | op, world => (world.replies world.clock op, world.tick)

-- The server sends these frames, and no transfer is cut.
def serving (frames : List ResponseFrame) (replies : Nat → (op : Op) → Ans op) : World :=
  { memory := fun _ _ => 0
    replies
    socket := Socket.chunked (ResponseFrame.stream frames) (fun _ => 2 ^ 32) fun _ => .moves (2 ^ 64)
    upcoming := fun _ =>
      Socket.chunked (ResponseFrame.stream frames) (fun _ => 2 ^ 32) fun _ => .moves (2 ^ 64) }

end World

-- A machine whose files, keys and random blocks stay the same during a run.
structure Machine where
  files : List UInt8 → Option (List UInt8)
  writable : List UInt8 → Bool
  keys : KeyPair
  aesKey : List UInt8
  block : Buffer 16

namespace Machine

def replies (machine : Machine) : (op : Op) → Ans op
  | .newArray size => ⟨List.replicate size 0, List.length_replicate⟩
  | .socket => true
  | .connect _ _ => true
  | .sendRequest _ => ()
  | .getResponse => ⟨0, 0, 0, []⟩
  | .ifstream path => machine.files path
  | .ifstreamAte path => (machine.files path).elim .cannotOpen .contents
  | .ofstream path => machine.writable path
  | .put _ content => content.length
  | .generateKeyPair => some machine.keys
  | .rsaDecrypt _ _ => some machine.aesKey
  | .generateBlock => some machine.block

end Machine

-- Small values for fixed runs. The transferred file is empty, with the checksum
-- 0xffffffff.
namespace Sample

def machine : Machine where
  files _ := some []
  writable _ := true
  keys := ⟨Bytes.text "public", Bytes.text "private"⟩
  aesKey := List.replicate 16 7
  block := ⟨List.replicate 16 9, rfl⟩

-- A file of three bytes, one of them NUL. Its checksum is 511058311.
def nullFile : List UInt8 :=
  [65, 0, 66]

-- The ciphertexts of AES under the key and the block above, of the empty file and of this one.
def emptyCiphertext : List UInt8 :=
  [205, 119, 97, 59, 216, 59, 234, 17, 134, 202, 63, 27, 200, 202, 123, 106]

def nullCiphertext : List UInt8 :=
  [170, 193, 122, 238, 70, 197, 210, 96, 174, 18, 109, 249, 22, 23, 219, 213]

-- A cipher that pads as CBC does and then leaves the blocks as they are, but for these two files.
def cipher (plain : List UInt8) : List UInt8 :=
  if plain = [] then emptyCiphertext
  else if plain = nullFile then nullCiphertext
  else plain ++ List.replicate (16 - plain.length % 16) (UInt8.ofNat (16 - plain.length % 16))

-- The Base64 texts are those of the private keys here.
def crypto : CryptoPP where
  base64Encoder key :=
    (if key = Bytes.text "private" then Bytes.text "cHJpdmF0ZQ==" else Bytes.text "b3RoZXI=") ++ [10]
  cbcEncryption _ _ plain := cipher plain

def client : ProtocolHandler :=
  ⟨Bytes.text "127.0.0.1", 8080, Bytes.text "name", Bytes.text "file"⟩

def clientId : ClientId :=
  ⟨List.replicate 16 1, rfl⟩

def file : Request where
  clientId := clientId
  version := PROTOCOL_VERSION
  code := ServerRequests.SEND_FILE
  payloadSize := 0
  payload := []
  inBounds := Nat.le_refl 0

def frame (code : UInt16) (payload : List UInt8) (small : payload.length < 2 ^ 32 := by decide) :
    ResponseFrame :=
  ⟨PROTOCOL_VERSION, code, payload, small⟩

def approval (code : UInt16) : ResponseFrame :=
  frame code (List.replicate 16 1)

def bare (code : UInt16) : ResponseFrame :=
  frame code []

-- What the server sends to a client that it lets in, up to the end of the transfer.
def transferring : List ResponseFrame :=
  [frame 2102 (List.replicate 20 1), frame 2103 [255, 255, 255, 255], bare 2104]

-- The world of a run against a server that sends these frames.
def world (frames : List ResponseFrame) : World :=
  World.serving frames fun _ => machine.replies

end Sample

end TransferClient
