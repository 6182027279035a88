import TransferClient.ProtocolHandler.Flow
import TransferClient.Steps

namespace TransferClient

open Interaction Bytes Client ServerRequests ServerResponses

-- `P` holds of every request, of the response that answers it, and of what follows.
def AtEachAnswer (P : Request → Response → Trace → Prop) (trace : Trace) : Prop :=
  ∀ past request response future, trace = past ++ sent request :: got response :: future →
    P request response future

namespace AtEachAnswer

variable {P : Request → Response → Trace → Prop}

theorem nil : AtEachAnswer P [] := by
  intro past request response future hsplit
  cases past <;> cases hsplit

theorem cons {event : Event Ans} {trace : Trace}
    (hevent : ∀ request, event.op ≠ .sendRequest request)
    (htrace : AtEachAnswer P trace) : AtEachAnswer P (event :: trace) := by
  intro past request response future hsplit
  cases past with
  | nil =>
      cases hsplit
      exact absurd rfl (hevent request)
  | cons other past =>
      cases hsplit
      exact htrace past request response future rfl

theorem exchange {request : Request} {response : Response} {trace : Trace}
    (hanswer : P request response trace) (htrace : AtEachAnswer P trace) :
    AtEachAnswer P (sent request :: got response :: trace) := by
  intro past other answer future hsplit
  match past with
  | [] =>
      cases hsplit
      exact hanswer
  | [event] => cases hsplit
  | first :: second :: past =>
      cases hsplit
      exact htrace past other answer future rfl

theorem silent {first second : Trace}
    (hfirst : ∀ event ∈ first, ∀ request, event.op ≠ .sendRequest request)
    (hsecond : AtEachAnswer P second) : AtEachAnswer P (first ++ second) := by
  induction first with
  | nil => exact hsecond
  | cons event first ih =>
      exact cons (hfirst event (by simp)) (ih fun other hother => hfirst other (by simp [hother]))

-- What follows an answer of the first part ends with the second part.
theorem append {first second : Trace} (hhead : ∀ response, second.head? ≠ some (got response))
    (hfirst : AtEachAnswer (fun request response future => P request response (future ++ second)) first)
    (hsecond : AtEachAnswer P second) : AtEachAnswer P (first ++ second) := by
  intro past request response future hsplit
  rcases List.append_eq_append_iff.mp hsplit with ⟨middle, rfl, hs⟩ | ⟨middle, hf, hs⟩
  · exact hsecond middle request response future hs
  · -- The request is in the first part: so is the answer, as the second part has another head.
    match middle with
    | [] => exact hsecond [] request response future hs.symm
    | [event] =>
        cases hs
        exact absurd rfl (hhead response)
    | event :: other :: middle =>
        cases hs
        exact hfirst past request response middle hf

end AtEachAnswer

-- In an execution, the response is also what the socket then gives.
theorem AtEachAnswer.exec {P : Request → Response → Trace → Prop} {program : Client Bool}
    {world : World} (htrace : AtEachAnswer P (program.exec World.handler world).trace) :
    EachAnswered
      (fun request before response future => P request response future ∧
        response = (before.socket.getResponse (before.memory before.clock)).1)
      (program.exec World.handler world).steps := by
  intro past asking answering future hsteps request response hasking hanswering
  constructor
  · apply htrace (past.map Step.event)
    rw [Execution.trace, hsteps, List.map_append, List.map_cons, List.map_cons, hasking, hanswering]
  · have hanswer := Prog.exec_answer World.handler program world answering (by simp [hsteps])
    rw [hanswering] at hanswer
    exact hanswer

-- The codes with which the server lets the flow go on.
def awaited (requestCode : UInt16) : List UInt16 :=
  if requestCode = REGISTRATION then [REGISTRATION_SUCCESS]
  else if requestCode = RECONNECT then [APPROVE_RECONNECT_SEND_AES, RECONNECT_REJECTED]
  else if requestCode = SEND_PUBLIC_KEY then [RECEIVED_PUBLIC_KEY_SEND_AES]
  else if requestCode = SEND_FILE then [FILE_RECEIVED_CRC_OK]
  else if requestCode = CRC_CORRECT then [CONFIRM_MSG]
  else []

namespace ProtocolHandler

-- What stands behind a round that goes on: another round, or the last report.
def Onward (future : Trace) : Prop :=
  ∃ event rest, future = event :: rest ∧ event.op ≠ .getResponse ∧
    ∀ path, event.op ≠ .ifstreamAte path

section Exchanges

variable (self : ProtocolHandler) (outcome : Except Stop Bool)

-- What an exchange with the server can be, by its answer, with what the run does behind
-- it. The run that it belongs to ends with `outcome`.
inductive Exchanged : Request → Response → Trace → Prop where
  | refused (requestCode : UInt16) (answer : Response)
      (hcode : requestCode = REGISTRATION ∨ requestCode = RECONNECT)
      (hanswer : answer.code ∉ awaited requestCode) (houtcome : outcome = .ok false) :
      Exchanged (self.connectionRequest requestCode) answer []
  | admitted (requestCode : UInt16) (answer : Response) (future : Trace)
      (hcode : requestCode = REGISTRATION ∨ requestCode = RECONNECT)
      (hanswer : answer.code ∈ awaited requestCode) (hfuture : future ≠ []) :
      Exchanged (self.connectionRequest requestCode) answer future
  | unkeyed (request : Request) (answer : Response) (hrequest : request.code = SEND_PUBLIC_KEY)
      (hcode : answer.code ≠ RECEIVED_PUBLIC_KEY_SEND_AES) (houtcome : outcome = .ok false) :
      Exchanged request answer []
  | keyShort (request : Request) (answer : Response) (hrequest : request.code = SEND_PUBLIC_KEY)
      (hcode : answer.code = RECEIVED_PUBLIC_KEY_SEND_AES) (hlength : answer.payload.length < 16)
      (houtcome : outcome = .error (.thrown .outOfRange)) :
      Exchanged request answer []
  | keyed (request : Request) (answer : Response) (future : Trace)
      (hrequest : request.code = SEND_PUBLIC_KEY)
      (hcode : answer.code = RECEIVED_PUBLIC_KEY_SEND_AES) (hlength : 16 ≤ answer.payload.length)
      (hfuture : future ≠ []) :
      Exchanged request answer future
  | unchecked (file : Request) (answer : Response) (future : Trace) (hfile : file.code = SEND_FILE)
      (hcode : answer.code ≠ FILE_RECEIVED_CRC_OK) (honward : Onward future) :
      Exchanged file answer future
  | crcShort (file : Request) (answer : Response) (hfile : file.code = SEND_FILE)
      (hcode : answer.code = FILE_RECEIVED_CRC_OK) (hcrc : trailingCRC answer.payload = none)
      (houtcome : outcome = .error .undefined) :
      Exchanged file answer []
  | checked (file : Request) (answer : Response) (received : UInt32) (reading : Reading) (rest : Trace)
      (hfile : file.code = SEND_FILE) (hcode : answer.code = FILE_RECEIVED_CRC_OK)
      (hcrc : trailingCRC answer.payload = some received) :
      Exchanged file answer (⟨.ifstreamAte self.filePath, reading⟩ :: rest)
  | resend (request : Request) (reply : Response) (future : Trace)
      (hcode : request.code = CRC_INCORRECT_RESEND) (honward : Onward future) :
      Exchanged request reply future
  | done (request : Request) (reply : Response) (hcode : request.code = CRC_INCORRECT_DONE)
      (houtcome : outcome = .ok false) :
      Exchanged request reply []
  | verdict (request : Request) (reply : Response) (hcode : request.code = CRC_CORRECT)
      (houtcome : outcome = .ok (reply.code == CONFIRM_MSG)) :
      Exchanged request reply []

end Exchanges

variable {crypto : CryptoPP} {self : ProtocolHandler}

section Rounds

variable {file : Request} {clientId : ClientId}

theorem status_answer {P : Request → Response → Trace → Prop} {code : UInt16}
    {buffer : Buffer (self.filePath.length + 1)} {reply : Response}
    (hreply : P (self.statusRequest clientId code buffer) reply []) :
    AtEachAnswer P (self.status clientId code buffer reply) :=
  .cons (fun _ h => by cases h) (.exchange hreply .nil)

theorem Round.onward {round : Trace} {result : Except Stop (Option Bool)}
    (hround : Round self file clientId round result) (rest : Trace) : Onward (round ++ rest) := by
  cases hround <;> exact ⟨_, _, rfl, by simp, by simp⟩

theorem Onward.head {future : Trace} (honward : Onward future) (response : Response) :
    future.head? ≠ some (got response) := by
  obtain ⟨event, rest, rfl, hop, _⟩ := honward
  intro h
  cases h
  exact hop rfl

theorem Round.exchanges_failed (hfile : file.code = SEND_FILE) {round following : Trace}
    (hround : Round self file clientId round (.ok none)) (honward : Onward following)
    (outcome : Except Stop Bool) :
    AtEachAnswer
      (fun request response future => Exchanged self outcome request response (future ++ following))
      round := by
  cases hround with
  | other answer hcode =>
      exact .exchange (.unchecked file answer following hfile hcode honward) .nil
  | mismatched answer received calculated reading buffer reply hcode hcrc hread hne =>
      refine .exchange (.checked file answer received reading _ hfile hcode hcrc)
        (.cons (fun _ h => by cases h) (status_answer ?_))
      exact .resend _ reply following rfl honward

theorem Round.exchanges_settled (hfile : file.code = SEND_FILE) {round : Trace} {status : Bool}
    (hround : Round self file clientId round (.ok (some status))) :
    AtEachAnswer (Exchanged self (.ok status)) round := by
  cases hround with
  | matched answer received reading buffer reply hcode hcrc hread =>
      exact .exchange (.checked file answer received reading _ hfile hcode hcrc)
        (.cons (fun _ h => by cases h) (status_answer (.verdict _ reply rfl rfl)))

theorem Round.exchanges_stopped (hfile : file.code = SEND_FILE) {round : Trace} {stop : Stop}
    (hround : Round self file clientId round (.error stop)) :
    AtEachAnswer (Exchanged self (.error stop)) round := by
  cases hround with
  | short answer hcode hcrc => exact .exchange (.crcShort file answer hfile hcode hcrc rfl) .nil
  | unread answer received reading stop hcode hcrc hread =>
      exact .exchange (.checked file answer received reading [] hfile hcode hcrc)
        (.cons (fun _ h => by cases h) .nil)

theorem rounds_exchange (hfile : file.code = SEND_FILE) (outcome : Except Stop Bool)
    (failed : List Trace) (last : Trace)
    (hfailed : ∀ round ∈ failed, Round self file clientId round (.ok none))
    (honward : Onward last) (hlast : AtEachAnswer (Exchanged self outcome) last) :
    Onward (failed.flatten ++ last) ∧
    AtEachAnswer (Exchanged self outcome) (failed.flatten ++ last) := by
  induction failed with
  | nil => exact ⟨honward, hlast⟩
  | cons round failed ih =>
      obtain ⟨hnext, hrest⟩ := ih fun other hother => hfailed other (by simp [hother])
      have hround := hfailed round (by simp)
      rw [List.flatten_cons, List.append_assoc]
      exact ⟨hround.onward _,
        .append hnext.head (hround.exchanges_failed hfile hnext outcome) hrest⟩

theorem Retries.exchanges (hfile : file.code = SEND_FILE) {maxRetries : Nat} {failed : List Trace}
    {trace : Trace} {outcome : Except Stop Bool}
    (hretries : Retries self file clientId maxRetries failed trace outcome) :
    AtEachAnswer (Exchanged self outcome) trace := by
  cases hretries with
  | exhausted buffer reply hfailed hlength =>
      have hdone : AtEachAnswer (Exchanged self (.ok false))
          (self.status clientId CRC_INCORRECT_DONE buffer reply) :=
        status_answer (.done _ reply rfl rfl)
      exact (rounds_exchange hfile _ failed _ hfailed ⟨_, _, rfl, by simp, by simp⟩ hdone).2
  | settled last status hfailed hlength hlast =>
      have honward := hlast.onward []
      rw [List.append_nil] at honward
      exact (rounds_exchange hfile _ failed last hfailed honward (hlast.exchanges_settled hfile)).2
  | stopped last stop hfailed hlength hlast =>
      have honward := hlast.onward []
      rw [List.append_nil] at honward
      exact (rounds_exchange hfile _ failed last hfailed honward (hlast.exchanges_stopped hfile)).2

end Rounds

theorem FileSending.exchanges {encrypted_aes_key privateKey : List UInt8} {clientId : ClientId}
    {trace : Trace} {outcome : Except Stop Bool}
    (hsending : FileSending crypto self encrypted_aes_key privateKey clientId trace outcome) :
    trace ≠ [] ∧ AtEachAnswer (Exchanged self outcome) trace := by
  cases hsending with
  | noAesKey => exact ⟨by simp, .cons (by simp) .nil⟩
  | noFile aes_key => exact ⟨by simp, .cons (by simp) (.cons (by simp) .nil)⟩
  | wrongKey aes_key contents hlength => exact ⟨by simp, .cons (by simp) (.cons (by simp) .nil)⟩
  | noBlock aes_key contents hlength =>
      exact ⟨by simp, .cons (by simp) (.cons (by simp) (.cons (by simp) .nil))⟩
  | sending aes_key contents iv buffer payload failed trace outcome hlength hpayload hretries =>
      exact ⟨by simp, .silent (by simp) (hretries.exchanges rfl)⟩

-- The key exchange has one request, and its answer is the last event.
theorem Keying.exchanges {P : Request → Response → Trace → Prop} {clientId : ClientId}
    {trace rest : Trace} {result : Except Stop (Response × List UInt8)}
    (hkeying : Keying crypto self clientId trace result)
    (hanswer : ∀ request answer privateKey, result = .ok (answer, privateKey) →
      request.code = SEND_PUBLIC_KEY → P request answer rest)
    (hstop : ∀ stop, result = .error stop → rest = []) (hrest : AtEachAnswer P rest) :
    trace ++ rest ≠ [] ∧ AtEachAnswer P (trace ++ rest) := by
  cases hkeying with
  | noKeys =>
      obtain rfl := hstop _ rfl
      exact ⟨by simp, .silent (by simp) .nil⟩
  | noKeyFile keys buffer =>
      obtain rfl := hstop _ rfl
      exact ⟨by simp [keysMade], .silent (by simp [keysMade]) .nil⟩
  | noMeInfo keys buffer =>
      obtain rfl := hstop _ rfl
      exact ⟨by simp [keysMade], .silent (by simp [keysMade]) .nil⟩
  | offered keys buffer answer =>
      have hexchange := hanswer (self.pubkeyRequest clientId keys.publicKey buffer) answer _ rfl rfl
      refine ⟨by simp [keysMade], ?_⟩
      rw [List.append_assoc]
      refine .silent (by simp [keysMade]) ?_
      show AtEachAnswer _ ([_, _, _, _] ++ _)
      exact .silent (by simp) (.exchange hexchange hrest)

theorem Approved.exchanges {clientId : ClientId} {trace : Trace} {outcome : Except Stop Bool}
    (happroved : Approved crypto self clientId trace outcome) :
    trace ≠ [] ∧ AtEachAnswer (Exchanged self outcome) trace := by
  -- Without a transfer behind it, the key exchange ends the run.
  have hlast {result : Except Stop (Response × List UInt8)}
      (hkeying : Keying crypto self clientId trace result)
      (hanswer : ∀ request answer privateKey, result = .ok (answer, privateKey) →
        request.code = SEND_PUBLIC_KEY → Exchanged self outcome request answer []) :
      trace ≠ [] ∧ AtEachAnswer (Exchanged self outcome) trace := by
    have h := hkeying.exchanges hanswer (fun _ _ => rfl) .nil
    rwa [List.append_nil] at h
  cases happroved with
  | unkeyed trace stop hkeying =>
      apply hlast hkeying
      intro request answer privateKey hresult
      cases hresult
  | refused trace answer privateKey hkeying hcode =>
      apply hlast hkeying
      rintro request _ _ ⟨rfl, rfl⟩ hrequest
      exact .unkeyed request answer hrequest hcode rfl
  | short trace answer privateKey hkeying hcode hlength =>
      apply hlast hkeying
      rintro request _ _ ⟨rfl, rfl⟩ hrequest
      exact .keyShort request answer hrequest hcode hlength rfl
  | keyed trace answer privateKey rest outcome hkeying hcode hlength hsending =>
      obtain ⟨hne, hrest⟩ := hsending.exchanges
      refine hkeying.exchanges ?_ (fun _ h => by cases h) hrest
      rintro request _ _ ⟨rfl, rfl⟩ hrequest
      exact .keyed request answer rest hrequest hcode hlength hne

theorem asked_exchanges {outcome : Except Stop Bool} {requestCode : UInt16} {buffer : ClientId}
    {answer : Response} {future : Trace}
    (hanswer : Exchanged self outcome (self.connectionRequest requestCode) answer future)
    (hrest : AtEachAnswer (Exchanged self outcome) future) :
    AtEachAnswer (Exchanged self outcome) (self.asked requestCode buffer answer ++ future) :=
  .cons (by simp) (.exchange hanswer hrest)

theorem Registration.exchanges {trace : Trace} {outcome : Except Stop Bool}
    (hregistration : Registration crypto self trace outcome) :
    trace ≠ [] ∧ AtEachAnswer (Exchanged self outcome) trace := by
  have hawaited : awaited REGISTRATION = [REGISTRATION_SUCCESS] := by decide
  cases hregistration with
  | refused buffer answer hcode =>
      refine ⟨by simp [asked], ?_⟩
      rw [← List.append_nil (self.asked _ _ _)]
      exact asked_exchanges (.refused _ answer (.inl rfl) (by simp [hawaited, hcode]) rfl) .nil
  | approved buffer answer rest outcome hcode happroved =>
      obtain ⟨hne, hrest⟩ := happroved.exchanges
      exact ⟨by simp [asked],
        asked_exchanges (.admitted _ answer rest (.inl rfl) (by simp [hawaited, hcode]) hne) hrest⟩

theorem Reconnection.exchanges {trace : Trace} {outcome : Except Stop Bool}
    (hreconnection : Reconnection crypto self trace outcome) :
    AtEachAnswer (Exchanged self outcome) trace := by
  have hawaited : awaited RECONNECT = [APPROVE_RECONNECT_SEND_AES, RECONNECT_REJECTED] := by decide
  cases hreconnection with
  | rejected buffer answer rest outcome hcode hregistration =>
      obtain ⟨hne, hrest⟩ := hregistration.exchanges
      exact asked_exchanges
        (.admitted _ answer rest (.inr rfl) (by simp [hawaited, hcode]) hne) hrest
  | refused buffer answer hreject happrove =>
      rw [← List.append_nil (self.asked _ _ _)]
      exact asked_exchanges
        (.refused _ answer (.inr rfl) (by simp [hawaited, hreject, happrove]) rfl) .nil
  | approved buffer answer rest outcome hcode happroved =>
      obtain ⟨hne, hrest⟩ := happroved.exchanges
      exact asked_exchanges
        (.admitted _ answer rest (.inr rfl) (by simp [hawaited, hcode]) hne) hrest

end ProtocolHandler

end TransferClient
