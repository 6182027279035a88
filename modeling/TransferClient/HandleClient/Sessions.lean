import TransferClient.Channel.Delivery
import TransferClient.HandleClient.Fallback
import TransferClient.HandleClient.FileNames
import TransferClient.ProtocolHandler.Exchanges
import TransferClient.ProtocolHandler.Order
import TransferClient.ProtocolHandler.WholeRequests

namespace TransferClient

open Interaction Bytes Client ProtocolHandler ServerRequests ServerResponses

-- The last exchange of a run is the verdict on the file, and the server accepts it.
def Confirmed (trace : Trace) : Prop :=
  ∃ request response, [sent request, got response] <:+ trace ∧ request.code = CRC_CORRECT ∧
    response.code = CONFIRM_MSG

theorem Confirmed.append_left {rest : Trace} (hconfirmed : Confirmed rest) (first : Trace) :
    Confirmed (first ++ rest) := by
  obtain ⟨request, response, hsuffix, hcodes⟩ := hconfirmed
  exact ⟨request, response, hsuffix.trans (List.suffix_append first rest), hcodes⟩

-- The last two events are in the last part, when it has as many.
theorem Confirmed.of_append {first rest : Trace} (hconfirmed : Confirmed (first ++ rest))
    (hlength : 2 ≤ rest.length) : Confirmed rest := by
  obtain ⟨request, response, hsuffix, hcodes⟩ := hconfirmed
  exact ⟨request, response,
    List.suffix_of_suffix_length_le hsuffix (List.suffix_append first rest) hlength, hcodes⟩

theorem Confirmed.mem_codes {trace : Trace} (hconfirmed : Confirmed trace) :
    CRC_CORRECT ∈ codes trace := by
  obtain ⟨request, response, hsuffix, hcode, _⟩ := hconfirmed
  exact (TransferClient.mem_codes _ _).mpr ⟨request, hsuffix.subset (by simp), hcode⟩

namespace ProtocolHandler

variable {crypto : CryptoPP} {self : ProtocolHandler} {clientId : ClientId} {trace : Trace}

theorem Retries.confirmed {file : Request} {maxRetries : Nat} {failed : List Trace}
    (hretries : Retries self file clientId maxRetries failed trace (.ok true)) :
    Confirmed trace := by
  cases hretries with
  | settled last status hfailed hlength hlast =>
      generalize hresult : (.ok (some true) : Except Stop (Option Bool)) = result at hlast
      cases hlast with
      | other => cases hresult
      | short => cases hresult
      | unread => cases hresult
      | mismatched => cases hresult
      | matched answer received reading buffer reply hcode hcrc hread =>
          have hreply : reply.code = CONFIRM_MSG := by simpa using hresult.symm
          refine ⟨self.statusRequest clientId CRC_CORRECT buffer, reply, ?_, rfl, hreply⟩
          rw [status, ← List.append_assoc]
          exact (List.suffix_cons _ _).trans (List.suffix_append _ _)

theorem Approved.confirmed (happroved : Approved crypto self clientId trace (.ok true)) :
    Confirmed trace := by
  cases happroved with
  | keyed first answer privateKey rest outcome hkeying hcode hlength hsending =>
      apply Confirmed.append_left
      cases hsending with
      | sending aes_key contents iv buffer payload failed loop outcome hkey hpayload hretries =>
          exact hretries.confirmed.append_left _

theorem Registration.confirmed (hregistration : Registration crypto self trace (.ok true)) :
    Confirmed trace := by
  cases hregistration with
  | approved buffer answer rest outcome hcode happroved => exact happroved.confirmed.append_left _

theorem Reconnection.confirmed (hreconnection : Reconnection crypto self trace (.ok true)) :
    Confirmed trace := by
  cases hreconnection with
  | rejected buffer answer rest outcome hcode hregistration =>
      exact hregistration.confirmed.append_left _
  | approved buffer answer rest outcome hcode happroved => exact happroved.confirmed.append_left _

-- An accepted verdict at the end is what the flow returns.
theorem outcome_of_confirmed {outcome : Except Stop Bool}
    (hexchanges : AtEachAnswer (Exchanged self outcome) trace) (hconfirmed : Confirmed trace) :
    outcome = .ok true := by
  obtain ⟨request, response, ⟨past, hsplit⟩, hrequest, hresponse⟩ := hconfirmed
  have hexchanged := hexchanges past request response [] hsplit.symm
  cases hexchanged with
  | refused requestCode answer hcode hanswer houtcome =>
      have hne : requestCode ≠ CRC_CORRECT := by rcases hcode with rfl | rfl <;> decide
      exact absurd hrequest hne
  | admitted requestCode answer future hcode hanswer hfuture => exact absurd rfl hfuture
  | unkeyed request answer hcode => rw [hcode] at hrequest; exact absurd hrequest (by decide)
  | keyShort request answer hcode => rw [hcode] at hrequest; exact absurd hrequest (by decide)
  | keyed request answer future hcode => rw [hcode] at hrequest; exact absurd hrequest (by decide)
  | unchecked file answer future hfile => rw [hfile] at hrequest; exact absurd hrequest (by decide)
  | crcShort file answer hfile => rw [hfile] at hrequest; exact absurd hrequest (by decide)
  | resend request reply future hcode honward =>
      rw [hcode] at hrequest; exact absurd hrequest (by decide)
  | done request reply hcode houtcome => rw [hcode] at hrequest; exact absurd hrequest (by decide)
  | verdict request reply hcode houtcome => simpa [hresponse] using houtcome

theorem Registration.succeeds {outcome : Except Stop Bool}
    (hregistration : Registration crypto self trace outcome) :
    2 ≤ trace.length ∧ (outcome = .ok true ↔ Confirmed trace) := by
  refine ⟨?_, ?_, outcome_of_confirmed hregistration.exchanges.2⟩
  · cases hregistration <;> simp [asked]
  · intro houtcome
    rw [houtcome] at hregistration
    exact hregistration.confirmed

theorem Reconnection.succeeds {outcome : Except Stop Bool}
    (hreconnection : Reconnection crypto self trace outcome) :
    2 ≤ trace.length ∧ (outcome = .ok true ↔ Confirmed trace) := by
  refine ⟨?_, ?_, outcome_of_confirmed hreconnection.exchanges⟩
  · cases hreconnection <;> simp [asked]
  · intro houtcome
    rw [houtcome] at hreconnection
    exact hreconnection.confirmed

theorem Registration.head_codes {outcome : Except Stop Bool}
    (hregistration : Registration crypto self trace outcome) :
    (codes trace).head? = some REGISTRATION := by
  cases hregistration with
  | refused buffer answer hcode => rw [codes_asked, List.head?_cons]
  | approved buffer answer rest outcome hcode happroved =>
      rw [codes_append, codes_asked, List.cons_append, List.head?_cons]

theorem Reconnection.head_codes {outcome : Except Stop Bool}
    (hreconnection : Reconnection crypto self trace outcome) :
    (codes trace).head? = some RECONNECT := by
  cases hreconnection with
  | rejected buffer answer rest outcome hcode hregistration =>
      rw [codes_append, codes_asked, List.cons_append, List.head?_cons]
  | refused buffer answer hreject happrove => rw [codes_asked, List.head?_cons]
  | approved buffer answer rest outcome hcode happroved =>
      rw [codes_append, codes_asked, List.cons_append, List.head?_cons]

-- A reconnection that fails by a file that does not open sends nothing about a file.
theorem Reconnection.codes_of_runtimeError {what : List UInt8} {code : UInt16}
    (hreconnection : Reconnection crypto self trace (.error (.thrown (.runtimeError what))))
    (hcode : code ∈ codes trace) : ¬(code = SEND_FILE ∨ StatusCode code) := by
  obtain ⟨request, hsent, rfl⟩ := (TransferClient.mem_codes _ _).mp hcode
  exact hreconnection.transferring.quiet_of_runtimeError _ hsent

end ProtocolHandler

theorem Confirmed.append_iff {rest : Trace} {outcome : Except Stop Bool}
    (hrest : 2 ≤ rest.length ∧ (outcome = .ok true ↔ Confirmed rest)) (first : Trace) :
    outcome = .ok true ↔ Confirmed (first ++ rest) := by
  rw [hrest.2]
  exact ⟨fun h => h.append_left first, fun h => h.of_append hrest.1⟩

theorem Confirmed.iff_of_codes {trace : Trace} {outcome : Except Stop Bool}
    (hcodes : codes trace = [])
    (houtcome : outcome ≠ .ok true) : outcome = .ok true ↔ Confirmed trace := by
  refine iff_of_false houtcome fun hconfirmed => ?_
  have hmem := hconfirmed.mem_codes
  rw [hcodes] at hmem
  cases hmem

theorem Fallback.succeeds {crypto : CryptoPP} {trace : Trace} {outcome : Except Stop Bool}
    (hfallback : Fallback crypto trace outcome) (first : Trace)
    (hfirst : CRC_CORRECT ∉ codes first) :
    outcome = .ok true ↔ Confirmed (first ++ trace) := by
  cases hfallback with
  | unconnected trace hconnection =>
      refine iff_of_false (by simp) fun hconfirmed => ?_
      have hmem := hconfirmed.mem_codes
      rw [codes_append, codes_of_messages (Connection.silent hconnection).1,
        List.append_nil] at hmem
      exact hfirst hmem
  | registered self address port rest outcome hregistration =>
      rw [← List.append_assoc]
      exact Confirmed.append_iff hregistration.succeeds _

theorem ClientFlow.succeeds {crypto : CryptoPP} {trace : Trace} {outcome : Except Stop Bool}
    (hflow : ClientFlow crypto trace outcome) : outcome = .ok true ↔ Confirmed trace := by
  cases hflow with
  | unconfigured file stop => exact Confirmed.iff_of_codes rfl (by simp)
  | unknown file rest outcome hfallback =>
      exact hfallback.succeeds _ (by simp [codes, requests, messages])
  | unconnected file contents rest hconnection =>
      have hsilent := codes_of_messages (Connection.silent hconnection).1
      exact Confirmed.iff_of_codes (by rw [codes_append, hsilent]; rfl) (by simp)
  | reconnected file contents self address port rest outcome hreconnection houtcome =>
      exact Confirmed.append_iff hreconnection.succeeds _
  | failed file contents self address port first rest what outcome hreconnection hfallback =>
      apply hfallback.succeeds
      rw [codes_append, List.mem_append]
      rintro (hmem | hmem)
      · cases hmem
      · exact hreconnection.codes_of_runtimeError hmem (.inr (.inl rfl))

-- The client returns true exactly when the server has accepted the verdict on the file, and
-- then this exchange is the last thing that it does.
theorem handleClient_succeeds_iff (crypto : CryptoPP) (trace : Trace) (outcome : Except Stop Bool)
    (hruns : (handleClient crypto).Runs trace outcome) : outcome = .ok true ↔ Confirmed trace :=
  (handleClient_flow crypto trace outcome hruns).succeeds

theorem handleClient_succeeds_known :
    Confirmed ((handleClient Sample.crypto).exec World.handler (Sample.approving (some []))).trace :=
  (handleClient_succeeds_iff Sample.crypto _ _ (Prog.exec_runs _ _ _)).mp (by decide +kernel)

-- A part of a run over one connection, in which the protocol is kept.
def IsSession (trace : Trace) : Prop :=
  (∃ address port rest, trace = ⟨.connect address port, true⟩ :: rest ∧
    ∀ event ∈ rest, Event.connects event = false) ∧
  ∃ exchanges, Alternates trace exchanges ∧ Ordered exchanges

theorem isSession_of_follows {rest : Trace} {final : Phase} (hfollows : Follows rest .idle final)
    (hconnected : Connected rest) (address : UInt32) (port : UInt16) (last : Trace)
    (hlast : ∀ event ∈ last, Event.connects event = false) (hsilent : messages last = []) :
    IsSession (⟨.connect address port, true⟩ :: (rest ++ last)) := by
  have hrest : ∀ event ∈ rest, Event.connects event = false := by
    intro event hevent
    obtain ⟨op, answer⟩ := event
    cases op with
    | connect address port => exact absurd rfl (hconnected _ hevent address port)
    | _ => rfl
  obtain ⟨exchanges, halternates, hrun⟩ := hfollows
  refine ⟨⟨address, port, _, rfl, List.forall_mem_append.mpr ⟨hrest, hlast⟩⟩, exchanges, ?_,
    ordered_of_session exchanges final hrun⟩
  show messages (rest ++ last) = exchanges.flatMap Exchange.messages
  rw [messages_append, hsilent, List.append_nil]
  exact halternates

-- The connections of a run: two at most, and the second only to register after a
-- reconnection that has sent no file. The protocol is kept on each of them.
def KeepsSessions (trace : Trace) : Prop :=
  ∃ (before : Trace) (sessions : List Trace), trace = before ++ sessions.flatten ∧
    messages before = [] ∧
    (∀ event ∈ before, Event.connects event = false) ∧ sessions.length ≤ 2 ∧
    (∀ part ∈ sessions, IsSession part) ∧
    ∀ first second, sessions = [first, second] →
      (codes first).head? = some RECONNECT ∧ SEND_FILE ∉ codes first ∧
        (codes second).head? = some REGISTRATION

namespace KeepsSessions

theorem none {trace : Trace} (hsilent : messages trace = [])
    (hunmade : ∀ event ∈ trace, Event.connects event = false) : KeepsSessions trace :=
  ⟨trace, [], (List.append_nil _).symm, hsilent, hunmade, by simp, by simp, by simp⟩

theorem one (before : Trace) {part : Trace} (hsilent : messages before = [])
    (hunmade : ∀ event ∈ before, Event.connects event = false) (hpart : IsSession part) :
    KeepsSessions (before ++ part) :=
  ⟨before, [part], by simp, hsilent, hunmade, by simp, by simpa using hpart, by simp⟩

theorem two {before first second : Trace} (hsilent : messages before = [])
    (hunmade : ∀ event ∈ before, Event.connects event = false) (hfirst : IsSession first)
    (hsecond : IsSession second) (hreconnect : (codes first).head? = some RECONNECT)
    (hfile : SEND_FILE ∉ codes first) (hregister : (codes second).head? = some REGISTRATION) :
    KeepsSessions (before ++ first ++ second) := by
  refine ⟨before, [first, second], by simp, hsilent, hunmade, by simp, by simp [hfirst, hsecond], ?_⟩
  rintro _ _ ⟨⟩
  exact ⟨hreconnect, hfile, hregister⟩

end KeepsSessions

-- No connection is made behind a flow when none comes about.
theorem Connection.unmade {trace : Trace} (hconnection : Connection trace (.ok false)) :
    ∀ event ∈ trace, Event.connects event = false := by
  generalize he : (.ok false : Except Stop Bool) = result at hconnection
  cases hconnection with
  | noSocket => simp [Event.connects]
  | tried address port connected =>
      cases he
      simp [Event.connects]

section Parts

variable {crypto : CryptoPP} {self : ProtocolHandler} {rest : Trace} {outcome : Except Stop Bool}

theorem registration_isSession (hregistration : Registration crypto self rest outcome)
    (hpayload : ApprovalsHoldId rest) (address : UInt32) (port : UInt16) :
    IsSession (⟨.connect address port, true⟩ :: rest) := by
  obtain ⟨final, hfollows⟩ := self.registration_follows crypto rest outcome hregistration hpayload .idle
    (.inl rfl)
  have hsession :=
    isSession_of_follows hfollows hregistration.connected address port [] (by simp) rfl
  rwa [List.append_nil] at hsession

theorem reconnection_isSession (hreconnection : Reconnection crypto self rest outcome)
    (hpayload : ApprovalsHoldId rest) (address : UInt32) (port : UInt16) (last : Trace)
    (hlast : ∀ event ∈ last, Event.connects event = false) (hsilent : messages last = []) :
    IsSession (⟨.connect address port, true⟩ :: (rest ++ last)) := by
  obtain ⟨final, hfollows⟩ := self.reconnection_follows crypto rest outcome hreconnection hpayload
  exact isSession_of_follows hfollows hreconnection.connected address port last hlast hsilent

end Parts

-- A run of the client keeps the protocol on every connection that it makes.
theorem handleClient_sessions (crypto : CryptoPP) (trace : Trace) (outcome : Except Stop Bool)
    (hruns : (handleClient crypto).Runs trace outcome) (hpayload : ApprovalsHoldId trace) :
    KeepsSessions trace := by
  have hwithin (before part after : Trace) (htrace : trace = before ++ part ++ after) :
      ApprovalsHoldId part := by
    intro response hresponse
    apply hpayload
    rw [htrace, responses_append, responses_append]
    simp [hresponse]
  have hflow := handleClient_flow crypto trace outcome hruns
  cases hflow with
  | unconfigured file stop => exact .none rfl (by simp [Event.connects])
  | unknown file rest outcome hfallback =>
      cases hfallback with
      | unconnected trace hconnection =>
          apply KeepsSessions.none
          · rw [messages_append, (Connection.silent hconnection).1]
            rfl
          · exact List.forall_mem_append.mpr
              ⟨by simp [Event.connects], Connection.unmade hconnection⟩
      | registered self address port rest outcome hregistration =>
          have hsession := registration_isSession hregistration
            (hwithin _ rest [] (by rw [List.append_nil, ← List.append_assoc])) address port
          exact .one [_, _, ⟨.socket, true⟩] rfl (by simp [Event.connects]) hsession
  | unconnected file contents rest hconnection =>
      apply KeepsSessions.none
      · rw [messages_append, (Connection.silent hconnection).1]
        rfl
      · exact List.forall_mem_append.mpr ⟨by simp [Event.connects], Connection.unmade hconnection⟩
  | reconnected file contents self address port rest outcome hreconnection houtcome =>
      have hsession := reconnection_isSession hreconnection (hwithin _ rest [] (List.append_nil _).symm)
        address port [] (by simp) rfl
      rw [List.append_nil] at hsession
      exact .one [_, _, ⟨.socket, true⟩] rfl (by simp [Event.connects]) hsession
  | failed file contents self address port first rest what outcome hreconnection hfallback =>
      have hfirst := hwithin _ first rest rfl
      cases hfallback with
      | unconnected rest hconnection =>
          have hsession := reconnection_isSession hreconnection hfirst address port rest
            (Connection.unmade hconnection) (Connection.silent hconnection).1
          rw [List.append_assoc]
          exact .one [_, _, ⟨.socket, true⟩] rfl (by simp [Event.connects]) hsession
      | registered next address' port' rest outcome hregistration =>
          -- The socket of the second connection is made while the first is still there.
          have hsession := reconnection_isSession hreconnection hfirst address port [⟨.socket, true⟩]
            (by simp [Event.connects]) rfl
          have hsession' := registration_isSession hregistration
            (hwithin _ rest [] (by rw [List.append_nil, ← List.append_assoc])) address' port'
          have hcodes (event : Event Ans) (hevent : messages [event] = []) :
              codes (event :: (first ++ [⟨.socket, true⟩])) = codes first := by
            rw [← List.singleton_append, codes_append, codes_of_messages hevent, codes_append]
            exact List.append_nil _
          have hsplit (a b c d e f : Event Ans) :
              ([a, b, c, d] ++ first ++ ([e, f] ++ rest) : Trace) =
              [a, b, c] ++ (d :: (first ++ [e])) ++ (f :: rest) := by simp
          rw [hsplit]
          refine .two rfl (by simp [Event.connects]) hsession hsession' ?_ ?_ hregistration.head_codes
          · rw [hcodes _ rfl, hreconnection.head_codes]
          · rw [hcodes _ rfl]
            exact fun hmem => hreconnection.codes_of_runtimeError hmem (.inl rfl)

-- The file to transfer does not open: the client connects twice.
theorem handleClient_sessions_twice :
    let run := (handleClient Sample.crypto).exec World.handler (Sample.approving none)
    codes run.trace = [RECONNECT, SEND_PUBLIC_KEY, REGISTRATION] ∧ KeepsSessions run.trace := by
  intro run
  have hpayload : ApprovalsHoldId run.trace := by
    unfold ApprovalsHoldId
    decide +kernel
  exact ⟨by decide +kernel, handleClient_sessions Sample.crypto run.trace run.outcome
    (Prog.exec_runs _ _ _) hpayload⟩

end TransferClient
