import TransferClient.Channel
import TransferClient.Interaction.Simulation
import TransferClient.Trace

namespace TransferClient

open Interaction Bytes

theorem Transfer.whole_moves {length : Nat} {transfer : Transfer}
    (hwhole : transfer.whole length = true) :
    ∃ count, transfer = .moves count ∧ length ≤ max 1 count := by
  cases transfer with
  | fails => cases hwhole
  | moves count => exact ⟨count, rfl, by simpa [Transfer.whole] using hwhole⟩

namespace Carries

variable {socket : Socket} {channel : Channel}

-- A `send` moves one message from the client to the queue.
theorem send (hcarries : Carries socket channel) (memory : Nat → UInt8) (request : Request) :
    Carries (socket.sendRequest memory request) (channel.send request) := by
  obtain ⟨hincoming, hreceives, hqueued, hsends⟩ := hcarries
  have hsent : socket.sendRequest memory request =
      { socket with sent := socket.sent + 1, queued := socket.queued ++ request.frame } := by
    rw [Socket.sendRequest_frame, Socket.send_whole _ _ (hsends socket.sent request)]
  rw [hsent]
  refine ⟨hincoming, hreceives, ?_, hsends⟩
  show socket.queued ++ request.frame = frames (channel.outbox ++ [request])
  rw [frames_append, ← hqueued]
  simp [frames]

-- At the end of the stream no header comes, whether `recv` gives nothing or fails.
theorem receive_nothing (hcarries : Carries socket channel) (hinbox : channel.inbox = [])
    (memory : Nat → UInt8) :
    (socket.getResponse memory).1 = Socket.uninitialised memory ∧
      Carries (socket.getResponse memory).2 channel := by
  obtain ⟨hincoming, hreceives, hqueued, hsends⟩ := hcarries
  rw [hinbox] at hincoming hreceives
  have hempty : socket.incoming = [] := hincoming
  have hheader : ((socket.recv 7).1.map List.length ≠ some 7) ∧
      (socket.recv 7).2 = { socket with received := socket.received + 1 } := by
    cases htransfer : socket.receipts socket.received with
    | fails => simp [Socket.recv, htransfer]
    | moves count => simp [Socket.recv, htransfer, hempty]
  have hresponse : socket.getResponse memory =
      (Socket.uninitialised memory, { socket with received := socket.received + 1 }) := by
    simp only [Socket.getResponse, Socket.safeReceive, hheader.1, ne_eq, not_false_eq_true, if_true,
      hheader.2]
  rw [hresponse]
  exact ⟨rfl, hinbox ▸ hincoming, hinbox ▸ trivial, hqueued, hsends⟩

theorem receive_frame (hcarries : Carries socket channel) (frame : ResponseFrame)
    (rest : List ResponseFrame) (hinbox : channel.inbox = frame :: rest) (memory : Nat → UInt8) :
    (socket.getResponse memory).1 = frame.toResponse ∧
      Carries (socket.getResponse memory).2 { channel with inbox := rest } := by
  obtain ⟨hincoming, hreceives, hqueued, hsends⟩ := hcarries
  rw [hinbox] at hincoming hreceives
  obtain ⟨hheader, hpayload, hrest⟩ := hreceives
  obtain ⟨first, hfirst, h7⟩ := Transfer.whole_moves hheader
  obtain ⟨second, hsecond, hlength⟩ := Transfer.whole_moves hpayload
  have hstream : socket.incoming = frame.encode ++ ResponseFrame.stream rest := by
    rw [hincoming, ResponseFrame.stream, List.flatMap_cons]
    rfl
  have hresponse := Socket.getResponse_uncut memory frame (ResponseFrame.stream rest) first second socket
    hstream hfirst (by omega) hsecond hlength
  rw [hresponse]
  exact ⟨rfl, rfl, hrest, hqueued, hsends⟩

-- A `recv` of a header and one of a payload together take one message.
theorem receive (hcarries : Carries socket channel) (memory : Nat → UInt8) :
    (socket.getResponse memory).1 = (channel.receive memory).1 ∧
      Carries (socket.getResponse memory).2 (channel.receive memory).2 := by
  obtain ⟨inbox, outbox⟩ := channel
  cases inbox with
  | nil => exact hcarries.receive_nothing rfl memory
  | cons frame rest => exact hcarries.receive_frame frame rest rfl memory

end Carries

-- Each operation does the same in both worlds.
theorem Realises.handler {world : World} {view : MessageWorld} (hrealises : Realises world view)
    (op : Op) :
    (World.handler op world).1 = (MessageWorld.handler op view).1 ∧
      Realises (World.handler op world).2 (MessageWorld.handler op view).2 := by
  obtain ⟨clock, memory, replies, socket, upcoming⟩ := world
  obtain ⟨clock', memory', replies', channel, upcoming'⟩ := view
  obtain ⟨rfl, rfl, rfl, hcarries, hupcoming⟩ := hrealises
  cases op with
  | newArray size => exact ⟨rfl, rfl, rfl, rfl, hcarries, hupcoming⟩
  | connect address port =>
      refine ⟨rfl, rfl, rfl, rfl, ?_, hupcoming⟩
      show Carries (if _ then _ else _) (if _ then _ else _)
      by_cases hconnected : replies clock (.connect address port) = true
      · simp only [hconnected, if_true]
        exact hupcoming clock
      · simp only [hconnected]
        exact hcarries
  | sendRequest request => exact ⟨rfl, rfl, rfl, rfl, hcarries.send _ request, hupcoming⟩
  | getResponse =>
      obtain ⟨hanswer, hnext⟩ := hcarries.receive (memory clock)
      exact ⟨hanswer, rfl, rfl, rfl, hnext, hupcoming⟩
  | _ => exact ⟨rfl, rfl, rfl, rfl, hcarries, hupcoming⟩

def realisation : Simulation World.handler MessageWorld.handler where
  related := Realises
  answer op _ _ hrealises := (hrealises.handler op).1
  next op _ _ hrealises := (hrealises.handler op).2

-- No program of the client sees the bytes: in the world of the sockets and in the world of
-- the channels it asks the same, gets the same answers and ends alike, and the sockets still
-- carry the channels.
theorem exec_realises {α : Type} (program : Client α) (world : World) (view : MessageWorld)
    (hrealises : Realises world view) :
    (program.exec World.handler world).trace = (program.exec MessageWorld.handler view).trace ∧
      (program.exec World.handler world).outcome = (program.exec MessageWorld.handler view).outcome ∧
      Realises (program.exec World.handler world).final (program.exec MessageWorld.handler view).final :=
  realisation.exec program world view hrealises

section Serving

-- The server sends these messages on every connection.
def MessageWorld.serving (sent : List ResponseFrame) (replies : Nat → (op : Op) → Ans op) :
    MessageWorld :=
  { memory := fun _ _ => 0, replies, channel := ⟨sent, []⟩, upcoming := fun _ => ⟨sent, []⟩ }

theorem receivesWhole_of_small (size : Nat) (hsize : 2 ^ 32 ≤ size) (k : Nat)
    (frames : List ResponseFrame) :
    Socket.ReceivesWhole (fun _ => .moves size) k frames := by
  induction frames generalizing k with
  | nil => trivial
  | cons frame rest ih =>
      have hsmall := frame.small
      refine ⟨?_, ?_, ih _⟩
      · simp only [Transfer.whole, decide_eq_true_eq]
        omega
      · simp only [Transfer.whole, decide_eq_true_eq]
        omega

-- A transport that cuts nothing carries the frames that its server sends.
theorem serving_carries (sent : List ResponseFrame) :
    Carries (Socket.chunked (ResponseFrame.stream sent) (fun _ => 2 ^ 32) fun _ => .moves (2 ^ 64))
      ⟨sent, []⟩ where
  incoming := rfl
  receives := receivesWhole_of_small _ (Nat.le_refl _) 0 sent
  queued := rfl
  sends k request := by
    have hsize := request.payloadSize.toNat_lt
    simp only [Socket.chunked, Transfer.whole, decide_eq_true_eq, request.length_frame]
    omega

theorem serving_realises (sent : List ResponseFrame) (replies : Nat → (op : Op) → Ans op) :
    Realises (World.serving sent replies) (MessageWorld.serving sent replies) :=
  ⟨rfl, rfl, rfl, serving_carries sent, fun _ => serving_carries sent⟩

-- A registration up to the end of its transfer.
theorem exec_realises_registration :
    let sent := Sample.approval 2100 :: Sample.transferring
    let program := Sample.client.handleRegistration Sample.crypto
    (program.exec World.handler (Sample.world sent)).outcome = .ok true ∧
      (program.exec World.handler (Sample.world sent)).trace =
        (program.exec MessageWorld.handler (.serving sent fun _ => Sample.machine.replies)).trace := by
  intro sent program
  obtain ⟨htrace, houtcome, _⟩ := exec_realises program (Sample.world sent) _
    (serving_realises sent fun _ => Sample.machine.replies)
  refine ⟨?_, htrace⟩
  rw [houtcome]
  decide +kernel

end Serving

end TransferClient
