import Mathlib.Data.List.TakeDrop
import TransferClient.ProtocolHandler.Exchanges
import TransferClient.Socket.Requests
import TransferClient.World

namespace TransferClient

open Interaction Bytes Client ServerRequests ServerResponses

namespace Socket

-- A `send` puts a first part of the buffer into the queue; it is the whole buffer
-- exactly when the transport takes that much.
theorem send_queued (buffer : List UInt8) (socket : Socket) (hbuffer : 0 < buffer.length) :
    ∃ size, size ≤ buffer.length ∧
      (socket.send buffer).2.queued = socket.queued ++ buffer.take size ∧
      ((socket.sendings socket.sent).whole buffer.length = true ↔ size = buffer.length) := by
  cases htransfer : socket.sendings socket.sent with
  | fails =>
      refine ⟨0, Nat.zero_le _, by simp [send, htransfer], ?_⟩
      constructor
      · intro hwhole
        cases hwhole
      · intro hzero
        omega
  | moves count =>
      refine ⟨moved count buffer.length, Nat.min_le_right _ _, by simp [send, htransfer], ?_⟩
      rw [Transfer.whole, decide_eq_true_eq, moved]
      omega

theorem recv_queued (length : Nat) (socket : Socket) :
    (socket.recv length).2.queued = socket.queued := by
  unfold recv
  cases socket.receipts socket.received <;> rfl

theorem getResponse_queued (memory : Nat → UInt8) (socket : Socket) :
    (socket.getResponse memory).2.queued = socket.queued := by
  have hheader : (socket.safeReceive 7).2.queued = socket.queued := socket.recv_queued 7
  simp only [getResponse]
  split
  · exact hheader
  · split <;> exact (recv_queued _ _).trans hheader

end Socket

-- The transport, as it is before the `send`, takes the whole frame of the request.
def World.takes (world : World) (request : Request) : Prop :=
  (world.socket.sendings world.socket.sent).whole request.frame.length = true

instance (world : World) (request : Request) : Decidable (world.takes request) :=
  inferInstanceAs (Decidable (_ = true))

-- The request of the step, if it is a send, is taken whole.
def SentWhole (step : Step Ans World) : Prop :=
  ∀ request ∈ requests [step.event], step.before.takes request

instance (step : Step Ans World) : Decidable (SentWhole step) :=
  inferInstanceAs (Decidable (∀ request ∈ _, _))

-- Whenever a run goes on to another request, or ends with success, what has been queued
-- is the frames of all its requests so far.
structure TransmitsWhole (world : World) (execution : Execution Ans Stop Bool World) : Prop where
  goesOn : ∀ past step future request, execution.steps = past ++ step :: future →
    step.event = sent request →
      step.before.socket.queued = world.socket.queued ++ frames (requests (past.map Step.event))
  succeeds : execution.outcome = .ok true →
    execution.final.socket.queued = world.socket.queued ++ frames (requests execution.trace)

-- With this answer to this request the flow is over.
def EndsFlow (request : Request) (response : Response) : Prop :=
  if request.code = SEND_FILE then
    response.code = FILE_RECEIVED_CRC_OK ∧ trailingCRC response.payload = none
  else if request.code = CRC_INCORRECT_RESEND then False
  else
    response.code ∉ awaited request.code ∨
      request.code = SEND_PUBLIC_KEY ∧ response.payload.length < 16

instance (request : Request) (response : Response) : Decidable (EndsFlow request response) := by
  unfold EndsFlow
  infer_instance

-- The transport refuses or cuts only requests whose answer then ends the flow.
def CutRequestsEnd (steps : List (Step Ans World)) : Prop :=
  ∀ past asking future, steps = past ++ asking :: future → SentWhole asking ∨
    ∃ request response answering rest, future = answering :: rest ∧ asking.event = sent request ∧
      answering.event = got response ∧ EndsFlow request response

section Chains

variable {world final : World} {steps : List (Step Ans World)}

-- An operation other than `connect` adds to the queue at most the frame of its request,
-- and all of it exactly when the transport takes all of it.
theorem handler_queued (op : Op) (hconnect : ∀ address port, op ≠ .connect address port) :
    ∃ bytes, (World.handler op world).2.socket.queued = world.socket.queued ++ bytes ∧
      bytes.length ≤ (frames (requests [⟨op, (World.handler op world).1⟩])).length ∧
      (bytes = frames (requests [⟨op, (World.handler op world).1⟩]) ↔
        SentWhole ⟨world, ⟨op, (World.handler op world).1⟩⟩) := by
  have hsilent (hqueued : (World.handler op world).2.socket.queued = world.socket.queued)
      (hrequests : requests [⟨op, (World.handler op world).1⟩] = []) :
      ∃ bytes, (World.handler op world).2.socket.queued = world.socket.queued ++ bytes ∧
        bytes.length ≤ (frames (requests [⟨op, (World.handler op world).1⟩])).length ∧
        (bytes = frames (requests [⟨op, (World.handler op world).1⟩]) ↔
          SentWhole ⟨world, ⟨op, (World.handler op world).1⟩⟩) := by
    refine ⟨[], by rw [hqueued, List.append_nil], by simp, ?_⟩
    rw [SentWhole, hrequests]
    exact iff_of_true rfl (by simp)
  cases op with
  | connect address port => exact absurd rfl (hconnect address port)
  | sendRequest request =>
      have hlength := request.length_frame
      obtain ⟨size, hsize, hqueued, hwhole⟩ :=
        Socket.send_queued request.frame world.socket (by omega)
      have hframes : frames (requests [⟨.sendRequest request, ()⟩]) = request.frame := by
        simp [frames, requests, messages]
      refine ⟨request.frame.take size, ?_, ?_, ?_⟩
      · show (world.socket.sendRequest _ request).queued = _
        rw [Socket.sendRequest_frame, hqueued]
      · rw [hframes, List.length_take]
        omega
      · rw [hframes, List.take_eq_self_iff]
        have hsentWhole : SentWhole ⟨world, sent request⟩ ↔ world.takes request := by
          simp [SentWhole, requests, messages]
        rw [hsentWhole]
        constructor
        · intro hall
          exact hwhole.mpr (by omega)
        · intro htaken
          have hsize := hwhole.mp htaken
          omega
  | getResponse =>
      exact hsilent (Socket.getResponse_queued _ _) rfl
  | _ => exact hsilent rfl rfl

-- The queue has grown by the frames of all requests exactly when each was taken whole.
theorem chain_queued (hchain : Chain World.handler world steps final)
    (hconnect : ∀ step ∈ steps, ∀ address port, step.event.op ≠ .connect address port) :
    ∃ bytes, final.socket.queued = world.socket.queued ++ bytes ∧
      bytes.length ≤ (frames (requests (steps.map Step.event))).length ∧
      (bytes = frames (requests (steps.map Step.event)) ↔ ∀ step ∈ steps, SentWhole step) := by
  induction hchain with
  | nil state => exact ⟨[], by simp, Nat.zero_le _, by simp [frames, requests, messages]⟩
  | cons op state final steps hrest ih =>
      obtain ⟨rest, hqueued, hlength, hwhole⟩ :=
        ih fun step hstep => hconnect step (by simp [hstep])
      obtain ⟨bytes, hqueued', hlength', hwhole'⟩ :=
        handler_queued op (hconnect ⟨state, ⟨op, (World.handler op state).1⟩⟩ (by simp))
      have hframes : frames (requests ((⟨state, ⟨op, (World.handler op state).1⟩⟩ :: steps).map
          Step.event)) = frames (requests [⟨op, (World.handler op state).1⟩]) ++
            frames (requests (steps.map Step.event)) := by
        rw [← frames_append, ← requests_append]
        rfl
      refine ⟨bytes ++ rest, by rw [hqueued, hqueued', List.append_assoc], ?_, ?_⟩
      · rw [hframes, List.length_append, List.length_append]
        omega
      · rw [hframes, List.forall_mem_cons, ← hwhole, ← hwhole']
        constructor
        · intro h
          have htotal := congrArg List.length h
          rw [List.length_append, List.length_append] at htotal
          exact List.append_inj h (by omega)
        · rintro ⟨rfl, rfl⟩
          rfl

theorem chain_whole (hchain : Chain World.handler world steps final)
    (hconnect : ∀ step ∈ steps, ∀ address port, step.event.op ≠ .connect address port) :
    final.socket.queued = world.socket.queued ++ frames (requests (steps.map Step.event)) ↔
      ∀ step ∈ steps, SentWhole step := by
  obtain ⟨bytes, hqueued, _, hwhole⟩ := chain_queued hchain hconnect
  rw [hqueued, List.append_cancel_left_eq, hwhole]

end Chains

-- A run that stays on its connection transmits whole frames, as far as it goes on, exactly
-- when every frame that another request or a success follows has been taken whole.
theorem transmitsWhole_of_connected (program : Client Bool) (world : World)
    (hconnect : ∀ event ∈ (program.exec World.handler world).trace, ∀ address port,
      event.op ≠ .connect address port) :
    TransmitsWhole world (program.exec World.handler world) ↔
      ∀ past step future, (program.exec World.handler world).steps = past ++ step :: future →
        requests (future.map Step.event) ≠ [] ∨
        (program.exec World.handler world).outcome = .ok true →
        SentWhole step := by
  generalize hexecution : program.exec World.handler world = execution at hconnect ⊢
  have hchain : Chain World.handler world execution.steps execution.final := by
    rw [← hexecution]
    exact Prog.exec_chain World.handler program world
  have hconnected : ∀ step ∈ execution.steps, ∀ address port, step.event.op ≠ .connect address port :=
    fun step hstep => hconnect step.event (List.mem_map_of_mem hstep)
  -- The queue before a step of the run, by what the transport took before it.
  have hbefore (past : List (Step Ans World)) (step : Step Ans World) (future : List (Step Ans World))
      (hsteps : execution.steps = past ++ step :: future) :
      step.before.socket.queued = world.socket.queued ++ frames (requests (past.map Step.event)) ↔
        ∀ other ∈ past, SentWhole other := by
    rw [hsteps] at hchain hconnected
    exact chain_whole hchain.before fun other hother => hconnected other (by simp [hother])
  have hwhole := chain_whole hchain hconnected
  constructor
  · rintro ⟨hgoesOn, hsucceeds⟩ past step future hsteps (hnext | hsuccess)
    · obtain ⟨request, hrequest⟩ := List.exists_mem_of_ne_nil _ hnext
      obtain ⟨next, hmem, hsent⟩ := List.mem_map.mp ((mem_requests request _).mp hrequest)
      obtain ⟨middle, last, rfl⟩ := List.append_of_mem hmem
      have hsplit : execution.steps = (past ++ step :: middle) ++ next :: last := by
        rw [hsteps, List.append_assoc, List.cons_append]
      exact (hbefore _ next last hsplit).mp (hgoesOn _ next last request hsplit hsent) step
        (by simp)
    · exact hwhole.mp (hsucceeds hsuccess) step (by simp [hsteps])
  · intro htakes
    constructor
    · intro past step future request hsteps hsent
      refine (hbefore past step future hsteps).mpr fun other hother => ?_
      obtain ⟨first, middle, rfl⟩ := List.append_of_mem hother
      have hsplit : execution.steps = first ++ other :: (middle ++ step :: future) := by
        rw [hsteps, List.append_assoc, List.cons_append]
      refine htakes first other _ hsplit (.inl ?_)
      refine List.ne_nil_of_mem ((mem_requests request _).mpr (List.mem_map.mpr ⟨step, ?_, hsent⟩))
      simp
    · intro hsuccess
      refine hwhole.mpr fun step hstep => ?_
      obtain ⟨past, future, hsteps⟩ := List.append_of_mem hstep
      exact htakes past step future hsteps (.inr hsuccess)

namespace ProtocolHandler

variable {crypto : CryptoPP} {self : ProtocolHandler}

-- The flows do not connect: they run on the connection that there is.
def Connected (trace : Trace) : Prop :=
  ∀ event ∈ trace, ∀ address port, event.op ≠ .connect address port

theorem asked_connected (requestCode : UInt16) (buffer : ClientId) (answer : Response) :
    Connected (self.asked requestCode buffer answer) := by
  simp [Connected, asked]

theorem keying_connected (clientId : ClientId) (event : Event Ans)
    (hkeying : KeyingOp crypto self clientId event.op) (address : UInt32) (port : UInt16) :
    event.op ≠ .connect address port := by
  intro hop
  rw [hop] at hkeying
  exact hkeying

theorem transfer_connected (event : Event Ans) (htransfer : TransferOp event.op) (address : UInt32)
    (port : UInt16) : event.op ≠ .connect address port := by
  intro hop
  rw [hop] at htransfer
  exact htransfer

theorem Registration.connected {trace : Trace} {outcome : Except Stop Bool}
    (hregistration : Registration crypto self trace outcome) : Connected trace :=
  hregistration.forall_mem _ (asked_connected REGISTRATION) keying_connected transfer_connected

theorem Reconnection.connected {trace : Trace} {outcome : Except Stop Bool}
    (hreconnection : Reconnection crypto self trace outcome) : Connected trace :=
  hreconnection.forall_mem _ (asked_connected REGISTRATION) (asked_connected RECONNECT) keying_connected
    transfer_connected

-- An answer that ends the flow is the last thing that it sees, and no success.
theorem Exchanged.ends {outcome : Except Stop Bool} {request : Request} {response : Response}
    {future : Trace}
    (hexchange : Exchanged self outcome request response future)
    (hends : EndsFlow request response) :
    requests future = [] ∧ outcome ≠ .ok true := by
  have hne : REGISTRATION ≠ SEND_FILE ∧ REGISTRATION ≠ CRC_INCORRECT_RESEND ∧
      REGISTRATION ≠ SEND_PUBLIC_KEY ∧
      RECONNECT ≠ SEND_FILE ∧ RECONNECT ≠ CRC_INCORRECT_RESEND ∧
      RECONNECT ≠ SEND_PUBLIC_KEY := by decide
  have hkey : SEND_PUBLIC_KEY ≠ SEND_FILE ∧ SEND_PUBLIC_KEY ≠ CRC_INCORRECT_RESEND ∧
      awaited SEND_PUBLIC_KEY = [RECEIVED_PUBLIC_KEY_SEND_AES] := by decide
  have hverdict : CRC_CORRECT ≠ SEND_FILE ∧ CRC_CORRECT ≠ CRC_INCORRECT_RESEND ∧
      CRC_CORRECT ≠ SEND_PUBLIC_KEY ∧
      awaited CRC_CORRECT = [CONFIRM_MSG] := by decide
  unfold EndsFlow at hends
  cases hexchange with
  | refused requestCode answer hcode hanswer houtcome => exact ⟨rfl, by simp [houtcome]⟩
  | admitted requestCode answer future hcode hanswer hfuture =>
      rcases hcode with rfl | rfl <;> simp [connectionRequest, hne, hanswer] at hends
  | unkeyed request answer hrequest hcode houtcome => exact ⟨rfl, by simp [houtcome]⟩
  | keyShort request answer hrequest hcode hlength houtcome => exact ⟨rfl, by simp [houtcome]⟩
  | keyed request answer future hrequest hcode hlength hfuture =>
      simp [hrequest, hkey, hcode] at hends
      omega
  | unchecked file answer future hfile hcode honward => simp [hfile, hcode] at hends
  | crcShort file answer hfile hcode hcrc houtcome => exact ⟨rfl, by simp [houtcome]⟩
  | checked file answer received reading rest hfile hcode hcrc => simp [hfile, hcrc] at hends
  | resend request reply future hcode honward =>
      have hresend : CRC_INCORRECT_RESEND ≠ SEND_FILE := by decide
      simp [hcode, hresend] at hends
  | done request reply hcode houtcome => exact ⟨rfl, by simp [houtcome]⟩
  | verdict request reply hcode houtcome =>
      have hother : response.code ≠ CONFIRM_MSG := by simpa [hcode, hverdict] using hends
      exact ⟨rfl, by simp [houtcome, hother]⟩

-- A flow that returns does so behind an answer, which ends it or is the last confirmation.
def ReturnsOn (trace : Trace) (outcome : Except Stop Bool) : Prop :=
  ∃ past request response, trace = past ++ [sent request, got response] ∧
    (outcome = .ok true ∨ EndsFlow request response)

theorem ReturnsOn.append_left {rest : Trace} {outcome : Except Stop Bool}
    (hreturns : ReturnsOn rest outcome) (first : Trace) : ReturnsOn (first ++ rest) outcome := by
  obtain ⟨past, request, response, rfl, hends⟩ := hreturns
  exact ⟨first ++ past, request, response, by simp, hends⟩

section Returns

variable {clientId : ClientId} {trace : Trace} {status : Bool}

theorem Retries.returnsOn {file : Request} {maxRetries : Nat} {failed : List Trace}
    (hretries : Retries self file clientId maxRetries failed trace (.ok status)) :
    ReturnsOn trace (.ok status) := by
  cases hretries with
  | exhausted buffer reply hfailed hlength =>
      have hreport : ReturnsOn (self.status clientId CRC_INCORRECT_DONE buffer reply) (.ok false) :=
        ⟨[_], _, reply, rfl, .inr (by simp [EndsFlow, statusRequest, awaited, CRC_INCORRECT_DONE, SEND_FILE,
          CRC_INCORRECT_RESEND, REGISTRATION, RECONNECT, SEND_PUBLIC_KEY, CRC_CORRECT])⟩
      exact hreport.append_left _
  | settled last status hfailed hlength hlast =>
      refine ReturnsOn.append_left ?_ _
      generalize hresult : (.ok (some status) : Except Stop (Option Bool)) = result at hlast
      cases hlast with
      | other => cases hresult
      | short => cases hresult
      | unread => cases hresult
      | mismatched => cases hresult
      | matched answer received reading buffer reply hcode hcrc hread =>
          refine ReturnsOn.append_left
            ⟨[_], self.statusRequest clientId CRC_CORRECT buffer, reply, rfl, ?_⟩ _
          have hstatus : status = (reply.code == CONFIRM_MSG) := by simpa using hresult
          by_cases hreply : reply.code = CONFIRM_MSG
          · exact .inl (by simp [hstatus, hreply])
          · exact .inr (by simp [EndsFlow, statusRequest, awaited, hreply, SEND_FILE, CRC_INCORRECT_RESEND,
              REGISTRATION, RECONNECT, SEND_PUBLIC_KEY, CRC_CORRECT])

theorem FileSending.returnsOn {encrypted_aes_key privateKey : List UInt8}
    (hsending : FileSending crypto self encrypted_aes_key privateKey clientId trace (.ok status)) :
    ReturnsOn trace (.ok status) := by
  cases hsending with
  | sending aes_key contents iv buffer payload failed loop outcome hkey hpayload hretries =>
      exact hretries.returnsOn.append_left _

theorem Approved.returnsOn (happroved : Approved crypto self clientId trace (.ok status)) :
    ReturnsOn trace (.ok status) := by
  cases happroved with
  | refused trace answer privateKey hkeying hcode =>
      cases hkeying with
      | offered keys buffer answer keyCount infoCount =>
          refine ReturnsOn.append_left
            ⟨[_, _, _, _], self.pubkeyRequest clientId keys.publicKey buffer, answer, rfl,
            .inr ?_⟩ _
          simp [EndsFlow, pubkeyRequest, awaited, hcode, SEND_FILE, CRC_INCORRECT_RESEND,
            REGISTRATION, RECONNECT, SEND_PUBLIC_KEY]
  | keyed first answer privateKey rest outcome hkeying hcode hlength hsending =>
      exact hsending.returnsOn.append_left _

theorem asked_returnsOn {requestCode : UInt16} (buffer : ClientId) {answer : Response}
    (hcode : requestCode = REGISTRATION ∨ requestCode = RECONNECT)
    (hanswer : answer.code ∉ awaited requestCode)
    (outcome : Except Stop Bool) : ReturnsOn (self.asked requestCode buffer answer) outcome := by
  refine ⟨[⟨.newArray 16, buffer⟩], self.connectionRequest requestCode, answer, rfl, .inr ?_⟩
  have hother : requestCode ≠ SEND_FILE ∧ requestCode ≠ CRC_INCORRECT_RESEND := by
    rcases hcode with rfl | rfl <;> decide
  simp [EndsFlow, connectionRequest, hother, hanswer]

theorem Registration.returnsOn (hregistration : Registration crypto self trace (.ok status)) :
    ReturnsOn trace (.ok status) := by
  cases hregistration with
  | refused buffer answer hcode =>
      exact asked_returnsOn buffer (.inl rfl) (by simp [awaited, hcode]) _
  | approved buffer answer rest outcome hcode happroved => exact happroved.returnsOn.append_left _

theorem Reconnection.returnsOn (hreconnection : Reconnection crypto self trace (.ok status)) :
    ReturnsOn trace (.ok status) := by
  have hawaited : awaited RECONNECT = [APPROVE_RECONNECT_SEND_AES, RECONNECT_REJECTED] := by decide
  cases hreconnection with
  | rejected buffer answer rest outcome hcode hregistration =>
      exact hregistration.returnsOn.append_left _
  | refused buffer answer hreject happrove =>
      exact asked_returnsOn buffer (.inr rfl) (by simp [hawaited, hreject, happrove]) _
  | approved buffer answer rest outcome hcode happroved => exact happroved.returnsOn.append_left _

end Returns

-- The last request of a list that ends with an exchange is the one of this exchange.
theorem last_exchange {past first rest : Trace} {request last : Request} {answer : Response}
    (hsplit : past ++ sent request :: rest = first ++ [sent last, got answer])
    (hrest : requests rest = []) :
    request = last ∧ rest = [got answer] := by
  have hunsent (other : Request) : sent other ∉ rest := by
    rw [← mem_requests, hrest]
    exact List.not_mem_nil
  rcases List.eq_nil_or_concat rest with rfl | ⟨init, event, rfl⟩
  · have hlast := congrArg List.getLast? hsplit
    simp at hlast
  · rw [List.concat_eq_append] at hsplit hunsent ⊢
    have hparts : (past ++ sent request :: init) ++ [event] =
        (first ++ [sent last]) ++ [got answer] := by
      simpa using hsplit
    obtain ⟨hinit, hevent⟩ := List.append_inj' hparts rfl
    rcases List.eq_nil_or_concat init with rfl | ⟨middle, other, rfl⟩
    · obtain ⟨_, hsent⟩ := List.append_inj' hinit rfl
      cases hsent
      exact ⟨rfl, by simpa using hevent⟩
    · have hinit' : (past ++ sent request :: middle) ++ [other] = first ++ [sent last] := by
        simpa using hinit
      obtain ⟨_, hsent⟩ := List.append_inj' hinit' rfl
      cases hsent
      exact absurd (by simp) (hunsent last)

theorem transmitsWhole_of_exchanges (program : Client Bool) (world : World)
    (hconnected : Connected (program.exec World.handler world).trace)
    (hexchanges : AtEachAnswer (Exchanged self (program.exec World.handler world).outcome)
      (program.exec World.handler world).trace)
    (hreturns : ∀ status, (program.exec World.handler world).outcome = .ok status →
      ReturnsOn (program.exec World.handler world).trace (.ok status)) :
    (CutRequestsEnd (program.exec World.handler world).steps →
      TransmitsWhole world (program.exec World.handler world)) ∧
    ∀ status, (program.exec World.handler world).outcome = .ok status →
      TransmitsWhole world (program.exec World.handler world) →
      CutRequestsEnd (program.exec World.handler world).steps := by
  rw [transmitsWhole_of_connected program world hconnected]
  constructor
  · intro hcut past step future hsteps hgoesOn
    rcases hcut past step future hsteps with hwhole |
      ⟨request, response, answering, rest, rfl, hasking, hanswering, hends⟩
    · exact hwhole
    · obtain ⟨hexchange, _⟩ :=
        hexchanges.exec past step answering rest hsteps request response hasking hanswering
      obtain ⟨hlast, hfailure⟩ := hexchange.ends hends
      rcases hgoesOn with hnext | hsuccess
      · have hnone : requests ((answering :: rest).map Step.event) = [] := by
          rw [List.map_cons, hanswering, ← List.singleton_append, requests_append, hlast]
          rfl
        exact absurd hnone hnext
      · exact absurd hsuccess hfailure
  · intro status houtcome hwhole past asking future hsteps
    by_cases hgoesOn : requests (future.map Step.event) ≠ [] ∨
        (program.exec World.handler world).outcome = .ok true
    · exact .inl (hwhole past asking future hsteps hgoesOn)
    · obtain ⟨hlast, hfailure⟩ := not_or.mp hgoesOn
      rw [not_not] at hlast
      -- Only the last request of the flow is left, with the answer that has ended it.
      by_cases hasking : ∃ request, asking.event = sent request
      · obtain ⟨request, hasking⟩ := hasking
        obtain ⟨first, last, answer, htrace, hends⟩ := hreturns status houtcome
        rw [Execution.trace, hsteps, List.map_append, List.map_cons, hasking] at htrace
        obtain ⟨rfl, hrest⟩ := last_exchange htrace hlast
        obtain ⟨answering, rest, rfl, hanswering, _⟩ := List.map_eq_cons_iff.mp hrest
        rw [houtcome] at hfailure
        exact .inr ⟨request, answer, answering, rest, rfl, hasking, hanswering, hends.resolve_left hfailure⟩
      · refine .inl fun request hmem => absurd ?_ hasking
        have hsent := (mem_requests request [asking.event]).mp hmem
        exact ⟨request, (List.mem_singleton.mp hsent).symm⟩

-- Both flows, over every transport: as long as the transport cuts or refuses only requests
-- whose answers end the flow, the frames go out whole, as far as the flow goes on; and in a
-- flow that returns they do not go out whole otherwise.
theorem transmitsWhole_of_cutRequestsEnd (crypto : CryptoPP) (self : ProtocolHandler)
    (world : World)
    (flow : Client Bool)
    (hflow : flow = self.handleRegistration crypto ∨ flow = self.handleReconnection crypto) :
    (CutRequestsEnd (flow.exec World.handler world).steps →
      TransmitsWhole world (flow.exec World.handler world)) ∧
    ∀ status, (flow.exec World.handler world).outcome = .ok status →
      TransmitsWhole world (flow.exec World.handler world) →
      CutRequestsEnd (flow.exec World.handler world).steps := by
  rcases hflow with rfl | rfl
  · have hruns := Prog.exec_runs World.handler (self.handleRegistration crypto) world
    have hregistration := self.handleRegistration_registration crypto _ _ hruns
    refine transmitsWhole_of_exchanges _ world hregistration.connected hregistration.exchanges.2 ?_
    intro status houtcome
    rw [houtcome] at hregistration
    exact hregistration.returnsOn
  · have hruns := Prog.exec_runs World.handler (self.handleReconnection crypto) world
    have hreconnection := self.handleReconnection_reconnection crypto _ _ hruns
    refine transmitsWhole_of_exchanges _ world hreconnection.connected hreconnection.exchanges ?_
    intro status houtcome
    rw [houtcome] at hreconnection
    exact hreconnection.returnsOn

-- The server turns the registration down, of which it has seen three bytes; and a whole transfer.
theorem transmitsWhole_refused :
    let refusing := { Sample.world [] with
      socket := Socket.chunked (ResponseFrame.stream [Sample.bare 2101]) (fun _ => 2 ^ 32)
        fun _ => .moves 3 }
    let serving := Sample.world (Sample.approval 2100 :: Sample.transferring)
    let flow := Sample.client.handleRegistration Sample.crypto
    codes (flow.exec World.handler refusing).trace = [REGISTRATION] ∧
      TransmitsWhole refusing (flow.exec World.handler refusing) ∧
      codes (flow.exec World.handler serving).trace =
        [REGISTRATION, SEND_PUBLIC_KEY, SEND_FILE, CRC_CORRECT] ∧
      TransmitsWhole serving (flow.exec World.handler serving) := by
  intro refusing serving flow
  have hserving : ∀ step ∈ (flow.exec World.handler serving).steps, SentWhole step := by
    decide +kernel
  have hrefusing : CutRequestsEnd (flow.exec World.handler refusing).steps := by
    obtain ⟨first, second, third, hall, hfirst, hsecond, hthird⟩ : ∃ first second third,
        (flow.exec World.handler refusing).steps = [first, second, third] ∧ SentWhole first ∧
          second.event = sent (Sample.client.connectionRequest REGISTRATION) ∧
          third.event = got ⟨99, 2101, 0, []⟩ :=
      ⟨_, _, _, rfl, by decide, rfl, rfl⟩
    intro past asking future hsteps
    rw [hall] at hsteps
    match past with
    | [] =>
        cases hsteps
        exact .inl hfirst
    | [_] =>
        cases hsteps
        exact .inr ⟨_, _, third, [], rfl, hsecond, hthird, by decide⟩
    | [_, _] =>
        cases hsteps
        refine .inl ?_
        rw [SentWhole, hthird]
        simp [requests, messages]
    | _ :: _ :: _ :: past => cases past <;> cases hsteps
  refine ⟨by decide +kernel, ?_, by decide +kernel, ?_⟩
  · exact (transmitsWhole_of_cutRequestsEnd Sample.crypto Sample.client refusing flow
      (.inl rfl)).1 hrefusing
  · refine (transmitsWhole_of_cutRequestsEnd Sample.crypto Sample.client serving flow
      (.inl rfl)).1 ?_
    exact fun past asking future hsteps => .inl (hserving asking (by simp [hsteps]))

-- The transport takes three bytes of the registration; the server approves, and the
-- client goes on with its public key.
theorem public_key_behind_cut_registration :
    let world := { Sample.world [] with
      socket := Socket.chunked (ResponseFrame.stream [Sample.approval 2100]) (fun _ => 2 ^ 32)
        fun _ => .moves 3 }
    ¬TransmitsWhole world ((Sample.client.handleRegistration Sample.crypto).exec World.handler world) := by
  intro world hwhole
  obtain ⟨past, step, future, request, hsteps, hsent, hqueued⟩ :
      ∃ past step future request,
        ((Sample.client.handleRegistration Sample.crypto).exec World.handler world).steps =
          past ++ step :: future ∧ step.event = sent request ∧
          step.before.socket.queued.length < (frames (requests (past.map Step.event))).length :=
    ⟨_, _, _, _, (List.take_append_drop 9 _).symm, rfl, by decide +kernel⟩
  have hframes := congrArg List.length (hwhole.goesOn past step future request hsteps hsent)
  rw [List.length_append] at hframes
  omega

end ProtocolHandler

end TransferClient
