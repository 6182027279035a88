import TransferClient.System
import TransferClient.Interaction.Theorems

namespace TransferClient

open Interaction Prog ServerRequests ServerResponses

-- The requests that report on a transfer.
def StatusCode (code : UInt16) : Prop :=
  code = CRC_CORRECT ∨ code = CRC_INCORRECT_RESEND ∨ code = CRC_INCORRECT_DONE

instance (code : UInt16) : Decidable (StatusCode code) :=
  inferInstanceAs (Decidable (_ ∨ _))

theorem StatusCode.ne {code : UInt16} (hcode : StatusCode code) :
    code ≠ REGISTRATION ∧ code ≠ RECONNECT ∧ code ≠ SEND_PUBLIC_KEY ∧ code ≠ SEND_FILE := by
  rcases hcode with rfl | rfl | rfl
  · decide
  · decide
  · decide

inductive Message where
  | request (request : Request)
  | response (response : Response)
deriving DecidableEq

-- Only two operations go over the connection.
@[simp] def Message.of : (op : Op) → Ans op → Option Message
  | .sendRequest sent, _ => some (.request sent)
  | .getResponse, received => some (.response received)
  | .newArray _, _ => none
  | .socket, _ => none
  | .connect _ _, _ => none
  | .ifstream _, _ => none
  | .ifstreamAte _, _ => none
  | .ofstream _, _ => none
  | .put _ _, _ => none
  | .generateKeyPair, _ => none
  | .rsaDecrypt _ _, _ => none
  | .generateBlock, _ => none

-- What goes over the connection in a run, in order.
def messages (trace : Trace) : List Message :=
  trace.filterMap fun event => Message.of event.op event.answer

def requests (trace : Trace) : List Request :=
  (messages trace).filterMap fun
    | .request sent => some sent
    | .response _ => none

def responses (trace : Trace) : List Response :=
  (messages trace).filterMap fun
    | .request _ => none
    | .response received => some received

-- What the readings for a checksum found, in order.
def readings (trace : Trace) : List Reading :=
  trace.filterMap fun event =>
    match event with
    | ⟨.ifstreamAte _, reading⟩ => some reading
    | _ => none

def codes (trace : Trace) : List UInt16 :=
  (requests trace).map Request.code

abbrev sent (request : Request) : Event Ans := ⟨.sendRequest request, ()⟩
abbrev got (response : Response) : Event Ans := ⟨.getResponse, response⟩

-- A request with the response that `getResponse` returns next.
abbrev Exchange := Request × Response

def Exchange.messages (exchange : Exchange) : List Message :=
  [.request exchange.1, .response exchange.2]

-- The server lets a client in: 2100 to a registration, 2105 to a reconnection.
def Approves (exchange : Exchange) : Prop :=
  (exchange.1.code = REGISTRATION ∧ exchange.2.code = REGISTRATION_SUCCESS) ∨
    (exchange.1.code = RECONNECT ∧ exchange.2.code = APPROVE_RECONNECT_SEND_AES)

instance (exchange : Exchange) : Decidable (Approves exchange) :=
  inferInstanceAs (Decidable (_ ∨ _))

-- Every request of the run has its response before the next request.
def Alternates (trace : Trace) (exchanges : List Exchange) : Prop :=
  TransferClient.messages trace = exchanges.flatMap Exchange.messages

-- The first exchange of a request with this code.
def exchangeOf (code : UInt16) : List Message → Option Exchange
  | .request request :: .response answer :: rest =>
      if request.code = code then some (request, answer) else exchangeOf code rest
  | _ => none

section Projections

variable (first second : Trace)

@[simp] theorem messages_append : messages (first ++ second) = messages first ++ messages second :=
  List.filterMap_append

@[simp] theorem requests_append :
    requests (first ++ second) = requests first ++ requests second := by
  simp [requests]

@[simp] theorem responses_append :
    responses (first ++ second) = responses first ++ responses second := by
  simp [responses]

@[simp] theorem codes_append : codes (first ++ second) = codes first ++ codes second := by
  simp [codes]

@[simp] theorem readings_append :
    readings (first ++ second) = readings first ++ readings second := by
  simp [readings]

end Projections

theorem mem_requests (request : Request) (trace : Trace) :
    request ∈ requests trace ↔ sent request ∈ trace := by
  simp only [requests, messages, List.mem_filterMap]
  constructor
  · rintro ⟨message, ⟨⟨op, answer⟩, hevent, hmessage⟩, hrequest⟩
    cases op with
    | sendRequest other =>
        cases hmessage
        cases hrequest
        exact hevent
    | getResponse =>
        cases hmessage
        cases hrequest
    | _ => cases hmessage
  · intro hevent
    exact ⟨.request request, ⟨sent request, hevent, rfl⟩, rfl⟩

theorem mem_codes (code : UInt16) (trace : Trace) :
    code ∈ codes trace ↔ ∃ request, sent request ∈ trace ∧ request.code = code := by
  simp only [codes, List.mem_map, mem_requests]

theorem codes_of_messages {trace : Trace} (hmessages : messages trace = []) : codes trace = [] := by
  simp [codes, requests, hmessages]

theorem mem_of_exchangeOf (code : UInt16) (list : List Message) (exchange : Exchange)
    (hexchange : exchangeOf code list = some exchange) :
    .request exchange.1 ∈ list ∧ exchange.1.code = code := by
  fun_induction exchangeOf code list with
  | case1 request answer rest hcode =>
      cases hexchange
      exact ⟨by simp, hcode⟩
  | case2 request answer rest hcode ih =>
      obtain ⟨hmem, he⟩ := ih hexchange
      exact ⟨by simp [hmem], he⟩
  | case3 list hno => cases hexchange

theorem mem_codes_of_exchangeOf {code : UInt16} {trace : Trace} {exchange : Exchange}
    (hexchange : exchangeOf code (messages trace) = some exchange) : code ∈ codes trace := by
  obtain ⟨hmem, hcode⟩ := mem_of_exchangeOf code _ exchange hexchange
  rw [codes, List.mem_map]
  refine ⟨exchange.1, ?_, hcode⟩
  rw [requests, List.mem_filterMap]
  exact ⟨.request exchange.1, hmem, rfl⟩

namespace Client

@[simp] theorem runs_raise {α : Type} (exception : Exception) (trace : Trace)
    (outcome : Except Stop α) :
    (raise exception).Runs trace outcome ↔ trace = [] ∧ outcome = .error (.thrown exception) :=
  Iff.rfl

@[simp] theorem runs_undefinedBehaviour {α : Type} (trace : Trace) (outcome : Except Stop α) :
    undefinedBehaviour.Runs trace outcome ↔ trace = [] ∧ outcome = .error .undefined :=
  Iff.rfl

@[simp] theorem runs_ofExcept {α : Type} (result : Except Stop α) (trace : Trace)
    (outcome : Except Stop α) :
    (ofExcept result : Client α).Runs trace outcome ↔ trace = [] ∧ outcome = result := by
  cases result <;> exact Iff.rfl

theorem runs_ofOption {α : Type} (exception : Exception) (value : Option α) (trace : Trace)
    (outcome : Except Stop α) :
    (ofOption exception value).Runs trace outcome ↔
      trace = [] ∧ outcome = value.elim (.error (.thrown exception)) .ok := by
  cases value <;> exact Iff.rfl

@[simp high] theorem runs_sendRequest_bind {α : Type} (request : Request) (next : Unit → Client α)
    (trace : Trace) (outcome : Except Stop α) :
    (sendRequest request >>= next).Runs trace outcome ↔
      ∃ rest, trace = ⟨.sendRequest request, ()⟩ :: rest ∧ (next ()).Runs rest outcome :=
  ⟨fun ⟨_, rest, he, hr⟩ => ⟨rest, he, hr⟩, fun ⟨rest, he, hr⟩ => ⟨(), rest, he, hr⟩⟩

end Client

end TransferClient
