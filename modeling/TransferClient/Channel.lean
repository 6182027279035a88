import TransferClient.World
import TransferClient.Socket.Requests

namespace TransferClient

open Interaction

-- A connection as the two parties think of it: whole messages, in order. `inbox` is what
-- the server sends and the client has not read, `outbox` what the client has sent.
structure Channel where
  inbox : List ResponseFrame
  outbox : List Request := []

namespace Channel

def send (request : Request) (channel : Channel) : Channel :=
  { channel with outbox := channel.outbox ++ [request] }

-- Behind the last message the client finds what its memory holds.
def receive (memory : Nat → UInt8) (channel : Channel) : Response × Channel :=
  match channel.inbox with
  | [] => (Socket.uninitialised memory, channel)
  | frame :: rest => (frame.toResponse, { channel with inbox := rest })

end Channel

-- The world of a run, with channels in the place of sockets.
structure MessageWorld where
  clock : Nat := 0
  memory : Nat → Nat → UInt8
  replies : Nat → (op : Op) → Ans op
  channel : Channel
  upcoming : Nat → Channel

namespace MessageWorld

def tick (view : MessageWorld) : MessageWorld :=
  { view with clock := view.clock + 1 }

def handler : Handler Ans MessageWorld
  | .newArray size, view =>
      (⟨(List.range size).map (view.memory view.clock), by simp⟩, view.tick)
  | .connect address port, view =>
      let connected := view.replies view.clock (.connect address port)
      let channel := if connected then view.upcoming view.clock else view.channel
      (connected, { view.tick with channel })
  | .sendRequest request, view =>
      ((), { view.tick with channel := view.channel.send request })
  | .getResponse, view =>
      let (response, channel) := view.channel.receive (view.memory view.clock)
      (response, { view.tick with channel })
  | op, view => (view.replies view.clock op, view.tick)

end MessageWorld

-- From the k-th `recv` on, the transport gives the two parts of each of these frames whole.
def Socket.ReceivesWhole (receipts : Nat → Transfer) : Nat → List ResponseFrame → Prop
  | _, [] => True
  | k, frame :: rest =>
      (receipts k).whole 7 = true ∧ (receipts (k + 1)).whole frame.payload.length = true ∧
        ReceivesWhole receipts (k + 2) rest

-- The bytes of the socket are those of the messages, and no transfer is cut.
structure Carries (socket : Socket) (channel : Channel) : Prop where
  incoming : socket.incoming = ResponseFrame.stream channel.inbox
  receives : Socket.ReceivesWhole socket.receipts socket.received channel.inbox
  queued : socket.queued = frames channel.outbox
  sends : ∀ k (request : Request), (socket.sendings k).whole request.frame.length = true

-- The two worlds differ in their connections only, and each socket carries its channel.
structure Realises (world : World) (view : MessageWorld) : Prop where
  clock : world.clock = view.clock
  memory : world.memory = view.memory
  replies : world.replies = view.replies
  carries : Carries world.socket view.channel
  upcoming : ∀ t, Carries (world.upcoming t) (view.upcoming t)

end TransferClient
