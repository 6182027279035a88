import TransferClient.Message

namespace TransferClient

open Bytes

-- What the transport does with one call of `recv` or `send`: it fails, or it
-- moves up to this many bytes.
inductive Transfer where
  | fails
  | moves (count : Nat)
deriving DecidableEq

-- A connected stream socket. `incoming` holds the bytes of the server that the
-- client has not received; when they run out, the server has closed the stream.
structure Socket where
  incoming : List UInt8
  receipts : Nat → Transfer
  received : Nat := 0
  queued : List UInt8 := []
  sendings : Nat → Transfer
  sent : Nat := 0

namespace Socket

-- How many of the `available` bytes one call moves: at least one, when it can.
def moved (count available : Nat) : Nat :=
  min (max 1 count) available

-- `none` is the result -1.
def recv (length : Nat) (socket : Socket) : Option (List UInt8) × Socket :=
  let next := { socket with received := socket.received + 1 }
  match socket.receipts socket.received with
  | .fails => (none, next)
  | .moves count =>
      let size := moved count (min length socket.incoming.length)
      (some (socket.incoming.take size), { next with incoming := socket.incoming.drop size })

def send (buffer : List UInt8) (socket : Socket) : Option Nat × Socket :=
  let next := { socket with sent := socket.sent + 1 }
  match socket.sendings socket.sent with
  | .fails => (none, next)
  | .moves count =>
      let size := moved count buffer.length
      (some size, { next with queued := socket.queued ++ buffer.take size })

-- `memory` is what the fresh send buffer holds. A failed `send` is logged only,
-- and a short count is not looked at.
def sendRequest (memory : Nat → UInt8) (request : Request) (socket : Socket) : Socket :=
  let totalSize := 24 + request.payloadSize.toNat
  let buffer := (List.range totalSize).map memory
  let buffer := write buffer 0 request.header
  let buffer := write buffer 24 (request.payload.take request.payloadSize.toNat)
  (socket.send buffer).2

-- The exception of a failed `recv` is caught at once and becomes -1 again.
def safeReceive (length : Nat) (socket : Socket) : Option (List UInt8) × Socket :=
  socket.recv length

-- What the local `Response` holds before its fields are set.
def uninitialised (memory : Nat → UInt8) : Response :=
  { version := memory 0
    code := UInt16.ofNat (fromLittleEndian [memory 2, memory 3])
    payloadSize := UInt32.ofNat (fromLittleEndian [memory 4, memory 5, memory 6, memory 7])
    payload := [] }

-- The fixed-size part; the version becomes an ASCII digit.
def deserialize (header_buffer : List UInt8) : Response :=
  { version := UInt8.ofNat ((header_buffer.headD 0).toNat + 48)
    code := UInt16.ofNat (fromBigEndian ((header_buffer.drop 1).take 2))
    payloadSize := UInt32.ofNat (fromBigEndian (header_buffer.drop 3))
    payload := [] }

-- A short header leaves every field as it was, a short payload leaves only the
-- payload empty.
def getResponse (memory : Nat → UInt8) (socket : Socket) : Response × Socket :=
  let (header_buffer, socket) := socket.safeReceive 7
  if header_buffer.map List.length ≠ some 7 then
    (uninitialised memory, socket)
  else
    let response := deserialize (header_buffer.getD [])
    let (payload_buffer, socket) := socket.safeReceive response.payloadSize.toNat
    if payload_buffer.map List.length ≠ some response.payloadSize.toNat then
      (response, socket)
    else
      ({ response with payload := payload_buffer.getD [] }, socket)

end Socket

end TransferClient
