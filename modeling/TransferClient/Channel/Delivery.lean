import TransferClient.Channel.Theorems

namespace TransferClient

open Interaction

def Event.connects : Event Ans → Bool
  | ⟨.connect _ _, connected⟩ => connected
  | _ => false

-- The part of a run that is on its present connection.
def sinceConnected (trace : Trace) : Trace :=
  trace.foldl (fun part event => if Event.connects event then [] else part ++ [event]) []

@[simp] theorem sinceConnected_append (past : Trace) (event : Event Ans) :
    sinceConnected (past ++ [event]) =
      if Event.connects event then [] else sinceConnected past ++ [event] := by
  simp [sinceConnected]

-- What a run has made of a channel: it has sent its requests in order, and has read the
-- first messages of the server, each once. Answers past the last message are not messages.
structure Delivered (opened channel : Channel) (trace : Trace) : Prop where
  outbox : channel.outbox = opened.outbox ++ requests trace
  inbox : channel.inbox = opened.inbox.drop (responses trace).length
  received : (responses trace).take opened.inbox.length =
    (opened.inbox.take (responses trace).length).map ResponseFrame.toResponse

namespace Delivered

variable {opened channel : Channel} {trace : Trace}

theorem start (channel : Channel) : Delivered channel channel [] := by
  refine ⟨?_, ?_, ?_⟩ <;> simp [requests, responses, messages]

theorem silent (hdelivered : Delivered opened channel trace) {event : Event Ans}
    (hsilent : Message.of event.op event.answer = none) :
    Delivered opened channel (trace ++ [event]) := by
  have hmessages : messages [event] = [] := by
    simp only [messages, List.filterMap_cons, hsilent, List.filterMap_nil]
  have hrequests : requests (trace ++ [event]) = requests trace := by simp [requests, hmessages]
  have hresponses : responses (trace ++ [event]) = responses trace := by simp [responses, hmessages]
  obtain ⟨houtbox, hinbox, hreceived⟩ := hdelivered
  refine ⟨?_, ?_, ?_⟩
  · rw [hrequests, houtbox]
  · rw [hresponses, hinbox]
  · rw [hresponses, hreceived]

theorem send (hdelivered : Delivered opened channel trace) (request : Request) :
    Delivered opened (channel.send request) (trace ++ [sent request]) := by
  have hrequests : requests [sent request] = [request] := by simp [requests, messages]
  have hresponses : responses [sent request] = [] := by simp [responses, messages]
  obtain ⟨houtbox, hinbox, hreceived⟩ := hdelivered
  refine ⟨?_, ?_, ?_⟩
  · rw [requests_append, hrequests, ← List.append_assoc, ← houtbox]
    rfl
  · rw [responses_append, hresponses, List.append_nil]
    exact hinbox
  · rw [responses_append, hresponses, List.append_nil]
    exact hreceived

theorem receive (hdelivered : Delivered opened channel trace) (memory : Nat → UInt8) :
    Delivered opened (channel.receive memory).2 (trace ++ [got (channel.receive memory).1]) := by
  have hrequests (answer : Response) : requests [got answer] = [] := by simp [requests, messages]
  have hresponses (answer : Response) : responses [got answer] = [answer] := by
    simp [responses, messages]
  obtain ⟨houtbox, hinbox, hreceived⟩ := hdelivered
  cases hnext : channel.inbox with
  | nil =>
      -- Every message has been read: the answer is not one of them.
      have hall : opened.inbox.length ≤ (responses trace).length := by
        rw [hinbox] at hnext
        exact List.drop_eq_nil_iff.mp hnext
      have hanswer : channel.receive memory = (Socket.uninitialised memory, channel) := by
        simp only [Channel.receive, hnext]
      rw [hanswer]
      refine ⟨?_, ?_, ?_⟩
      · rw [requests_append, hrequests, List.append_nil, houtbox]
      · rw [hnext, eq_comm, List.drop_eq_nil_iff, responses_append, List.length_append]
        omega
      · rw [responses_append, List.take_append_of_le_length hall, hreceived,
          List.take_of_length_le hall, List.take_of_length_le]
        rw [List.length_append]
        omega
  | cons frame rest =>
      have hsplit : opened.inbox.drop (responses trace).length = frame :: rest := by
        rw [← hinbox, hnext]
      have hlt : (responses trace).length < opened.inbox.length := by
        by_contra hle
        rw [List.drop_eq_nil_of_le (Nat.le_of_not_lt hle)] at hsplit
        cases hsplit
      have hanswer : channel.receive memory =
          (frame.toResponse, { channel with inbox := rest }) := by
        simp only [Channel.receive, hnext]
      have hcount : (responses (trace ++ [got frame.toResponse])).length =
          (responses trace).length + 1 := by
        rw [responses_append, hresponses, List.length_append, List.length_singleton]
      have hframe : opened.inbox[(responses trace).length] = frame := by
        have hhead := congrArg List.head? hsplit
        rw [List.head?_drop, List.head?_cons, List.getElem?_eq_getElem hlt] at hhead
        exact Option.some.inj hhead
      rw [hanswer]
      refine ⟨?_, ?_, ?_⟩
      · rw [requests_append, hrequests, List.append_nil, ← houtbox]
      · rw [hcount, ← List.tail_drop, hsplit]
        rfl
      · rw [List.take_of_length_le (Nat.le_of_lt hlt)] at hreceived
        show (responses (trace ++ [got frame.toResponse])).take opened.inbox.length =
          (opened.inbox.take (responses (trace ++ [got frame.toResponse])).length).map
            ResponseFrame.toResponse
        rw [List.take_of_length_le (by omega), hcount, List.take_add_one,
          List.getElem?_eq_getElem hlt, hframe, List.map_append, ← hreceived, responses_append,
          hresponses]
        rfl

end Delivered

-- The present channel of a world, with the channel that it was when it was connected.
def MessageWorld.Delivers (start : MessageWorld) (trace : Trace) (view : MessageWorld) : Prop :=
  view.upcoming = start.upcoming ∧
    ∃ opened, (opened = start.channel ∨ ∃ t, opened = start.upcoming t) ∧
      Delivered opened view.channel (sinceConnected trace)

theorem MessageWorld.Delivers.handler {start view : MessageWorld} {trace : Trace} (op : Op)
    (hdelivers : start.Delivers trace view) :
    start.Delivers (trace ++ [⟨op, (MessageWorld.handler op view).1⟩])
      (MessageWorld.handler op view).2 := by
  obtain ⟨hupcoming, opened, hopened, hdelivered⟩ := hdelivers
  have hsilent (answer : Ans op) (channel : Channel) (hchannel : channel = view.channel)
      (hop : Event.connects ⟨op, answer⟩ = false) (hmessage : Message.of op answer = none) :
      ∃ opened, (opened = start.channel ∨ ∃ t, opened = start.upcoming t) ∧
        Delivered opened channel (sinceConnected (trace ++ [⟨op, answer⟩])) := by
    rw [hchannel]
    refine ⟨opened, hopened, ?_⟩
    rw [sinceConnected_append, hop]
    exact hdelivered.silent hmessage
  cases op with
  | connect address port =>
      refine ⟨hupcoming, ?_⟩
      have hhandler : MessageWorld.handler (.connect address port) view =
          (view.replies view.clock (.connect address port), { view.tick with
            channel := if view.replies view.clock (.connect address port) then view.upcoming view.clock
              else view.channel }) := rfl
      rw [hhandler]
      generalize view.replies view.clock (.connect address port) = connected
      cases connected with
      | true =>
          refine ⟨view.upcoming view.clock, .inr ⟨view.clock, by rw [hupcoming]⟩, ?_⟩
          rw [sinceConnected_append]
          exact .start _
      | false => exact hsilent false view.channel rfl rfl rfl
  | sendRequest request =>
      refine ⟨hupcoming, opened, hopened, ?_⟩
      rw [sinceConnected_append]
      exact hdelivered.send request
  | getResponse =>
      refine ⟨hupcoming, opened, hopened, ?_⟩
      rw [sinceConnected_append]
      exact hdelivered.receive (view.memory view.clock)
  | _ => exact ⟨hupcoming, hsilent _ _ rfl rfl rfl⟩

theorem MessageWorld.exec_delivers {α : Type} (program : Client α) (view : MessageWorld) :
    view.Delivers (program.exec MessageWorld.handler view).trace
      (program.exec MessageWorld.handler view).final := by
  have hstart : view.Delivers [] view := ⟨rfl, view.channel, .inl rfl, .start _⟩
  exact Prog.exec_invariant MessageWorld.handler view.Delivers
    (fun _ _ op h => h.handler op) program [] view
    hstart

namespace Request

-- The part of a request that goes over the connection.
def transmitted (request : Request) : ReceivedRequest :=
  ⟨request.clientId.val, request.version, request.code, request.payload.take request.payloadSize.toNat⟩

-- The request without the memory behind its payload.
def trimmed (request : Request) : Request :=
  { request with
    payload := request.payload.take request.payloadSize.toNat
    inBounds := (List.length_take_of_le request.inBounds).ge }

theorem trimmed_exact (request : Request) : request.trimmed.Exact :=
  List.length_take_of_le request.inBounds

theorem trimmed_frame (request : Request) : request.trimmed.frame = request.frame := by
  simp only [frame, header, trimmed, List.take_take, Nat.min_self]

end Request

-- What a receiver reads from the frames of any requests.
theorem receiveStream_transmitted (requests : List Request) :
    receiveStream (frames requests) = some (requests.map Request.transmitted) := by
  have hframes : frames requests = frames (requests.map Request.trimmed) := by
    simp only [frames, List.flatMap_map, Request.trimmed_frame]
  have hexact : ∀ request ∈ requests.map Request.trimmed, request.Exact := by
    intro request hrequest
    obtain ⟨other, _, rfl⟩ := List.mem_map.mp hrequest
    exact other.trimmed_exact
  rw [hframes, receiveStream_frames _ hexact, List.map_map]
  rfl

-- No message is lost, doubled or brought out of order by a transport that cuts nothing: on
-- the present connection the server's reader recovers the requests of the run, and the
-- client has been given the first messages of the server.
theorem messages_delivered {α : Type} (program : Client α) (world : World) (view : MessageWorld)
    (hrealises : Realises world view) (hfresh : view.channel.outbox = [])
    (hupcoming : ∀ t, (view.upcoming t).outbox = []) :
    let run := program.exec World.handler world
    ∃ opened : Channel, (opened = view.channel ∨ ∃ t, opened = view.upcoming t) ∧
      receiveStream run.final.socket.queued =
        some ((requests (sinceConnected run.trace)).map Request.transmitted) ∧
      run.final.socket.incoming =
        ResponseFrame.stream (opened.inbox.drop (responses (sinceConnected run.trace)).length) ∧
      (responses (sinceConnected run.trace)).take opened.inbox.length =
        (opened.inbox.take (responses (sinceConnected run.trace)).length).map ResponseFrame.toResponse := by
  intro run
  obtain ⟨htrace, _, hfinal⟩ := exec_realises program world view hrealises
  obtain ⟨_, opened, hopened, hdelivered⟩ := view.exec_delivers program
  have hempty : opened.outbox = [] := by
    rcases hopened with rfl | ⟨t, rfl⟩
    · exact hfresh
    · exact hupcoming t
  rw [← htrace] at hdelivered
  refine ⟨opened, hopened, ?_, ?_, hdelivered.received⟩
  · rw [hfinal.carries.queued, hdelivered.outbox, hempty, List.nil_append,
      receiveStream_transmitted]
  · rw [hfinal.carries.incoming, hdelivered.inbox]

-- The four requests of a registration, up to the end of its transfer.
theorem messages_delivered_registration :
    ∃ run, run = (Sample.client.handleRegistration Sample.crypto).exec World.handler
        (Sample.world (Sample.approval 2100 :: Sample.transferring)) ∧
      (requests (sinceConnected run.trace)).length = 4 ∧
      receiveStream run.final.socket.queued =
        some ((requests (sinceConnected run.trace)).map Request.transmitted) := by
  obtain ⟨_, _, hqueued, _⟩ := messages_delivered (Sample.client.handleRegistration Sample.crypto) _ _
    (serving_realises (Sample.approval 2100 :: Sample.transferring) fun _ => Sample.machine.replies) rfl
    fun _ => rfl
  exact ⟨_, rfl, by decide +kernel, hqueued⟩

end TransferClient
