import TransferClient.ProtocolHandler.Flow
import TransferClient.ProtocolHandler.Payloads
import TransferClient.Session
import TransferClient.World

namespace TransferClient

open Interaction Bytes Client ServerRequests ServerResponses

-- The messages of the trace are exchanges that take the session from `phase` to
-- `final`.
def Follows (trace : Trace) (phase final : Phase) : Prop :=
  ∃ exchanges, Alternates trace exchanges ∧ session.run phase exchanges = some final

namespace Follows

theorem silent (trace : Trace) (phase : Phase) (hmessages : messages trace = []) :
    Follows trace phase phase :=
  ⟨[], hmessages, rfl⟩

theorem exchange {trace : Trace} {phase final : Phase} (request : Request) (answer : Response)
    (hmessages : messages trace = [.request request, .response answer])
    (hstep : Phase.step phase (request, answer) = some final) : Follows trace phase final := by
  refine ⟨[(request, answer)], hmessages, ?_⟩
  rw [Automaton.run_singleton]
  exact hstep

theorem append {first second : Trace} {phase middle final : Phase}
    (hfirst : Follows first phase middle) (hsecond : Follows second middle final) :
    Follows (first ++ second) phase final := by
  obtain ⟨exchanges, ha, hr⟩ := hfirst
  obtain ⟨exchanges', ha', hr'⟩ := hsecond
  refine ⟨exchanges ++ exchanges', ?_, ?_⟩
  · rw [Alternates, messages_append, ha, ha', List.flatMap_append]
  · rw [Automaton.run_append, hr]
    exact hr'

end Follows

namespace ProtocolHandler

variable (crypto : CryptoPP) (self : ProtocolHandler)

section Transfer

variable (file : Request) (clientId : ClientId)

-- The session has come to the transfer of this file.
def Ready (phase : Phase) : Prop :=
  phase = .keyed clientId.val ∨ phase = .sending clientId.val file

variable (hfile : file.code = SEND_FILE)

include hfile

-- A report on the transfer ends the session, except for the request to resend.
theorem status_follows (code : UInt16) (hcode : StatusCode code)
    (buffer : Buffer (self.filePath.length + 1)) (reply : Response) :
    Follows (self.status clientId code buffer reply) (.sending clientId.val file)
      (if code = CRC_INCORRECT_RESEND then .sending clientId.val file else .finished) := by
  apply Follows.exchange (self.statusRequest clientId code buffer) reply (by simp [messages, status])
  have hne : self.statusRequest clientId code buffer ≠ file := by
    intro he
    have hc : code = SEND_FILE := (congrArg Request.code he).trans hfile
    rw [StatusCode, hc] at hcode
    exact absurd hcode (by decide)
  by_cases hresend : code = CRC_INCORRECT_RESEND
  · simp [Phase.step, hresend]
  · have hend : code = CRC_CORRECT ∨ code = CRC_INCORRECT_DONE := by
      rcases hcode with hc | hc | hc
      · exact .inl hc
      · exact absurd hc hresend
      · exact .inr hc
    simp [Phase.step, hne, hresend, hend]

variable (hid : file.clientId = clientId)

include hid

theorem sendFile_follows (phase : Phase) (hready : Ready file clientId phase) (answer : Response) :
    Follows [sent file, got answer] phase (.sending clientId.val file) := by
  apply Follows.exchange file answer (by simp [messages])
  rcases hready with rfl | rfl
  · simp [Phase.step, hfile, hid]
  · simp [Phase.step]

theorem readFile_follows (phase : Phase) (hready : Ready file clientId phase) (answer : Response)
    (reading : Reading) :
    Follows [sent file, got answer, ⟨.ifstreamAte self.filePath, reading⟩] phase
      (.sending clientId.val file) := by
  have hsend := sendFile_follows file clientId hfile hid phase hready answer
  have hread :=
    Follows.silent [⟨.ifstreamAte self.filePath, reading⟩] (.sending clientId.val file) rfl
  exact hsend.append hread

theorem failed_follows (round : Trace) (hround : Round self file clientId round (.ok none))
    (phase : Phase) (hready : Ready file clientId phase) :
    Follows round phase (.sending clientId.val file) := by
  cases hround with
  | other answer hcode => exact sendFile_follows file clientId hfile hid phase hready answer
  | mismatched answer received calculated reading buffer reply hcode hcrc hread hne =>
      have hread := self.readFile_follows file clientId hfile hid phase hready answer reading
      have hresend := self.status_follows file clientId hfile CRC_INCORRECT_RESEND
        (.inr (.inl rfl)) buffer reply
      exact hread.append hresend

theorem ended_follows (round : Trace) (outcome : Except Stop (Option Bool))
    (hround : Round self file clientId round outcome) (houtcome : outcome ≠ .ok none)
    (phase : Phase) (hready : Ready file clientId phase) : ∃ final, Follows round phase final := by
  cases hround with
  | other => exact absurd rfl houtcome
  | mismatched => exact absurd rfl houtcome
  | short answer hcode hcrc =>
      exact ⟨_, sendFile_follows file clientId hfile hid phase hready answer⟩
  | unread answer received reading stop hcode hcrc hread =>
      have hread := self.readFile_follows file clientId hfile hid phase hready answer reading
      exact ⟨_, hread⟩
  | matched answer received reading buffer reply hcode hcrc hread =>
      have hread := self.readFile_follows file clientId hfile hid phase hready answer reading
      have hcorrect := self.status_follows file clientId hfile CRC_CORRECT (.inl rfl) buffer reply
      exact ⟨_, hread.append hcorrect⟩

theorem failedRounds_follow (failed : List Trace)
    (hfailed : ∀ round ∈ failed, Round self file clientId round (.ok none))
    (phase : Phase) (hready : Ready file clientId phase) :
    Follows failed.flatten phase (if failed = [] then phase else .sending clientId.val file) := by
  induction failed generalizing phase with
  | nil => exact Follows.silent _ phase rfl
  | cons round failed ih =>
      have hround := self.failed_follows file clientId hfile hid round (hfailed round (by simp)) phase
        hready
      have hrest := ih (fun other ho => hfailed other (by simp [ho])) (.sending clientId.val file)
        (.inr rfl)
      rw [ite_self] at hrest
      rw [if_neg (List.cons_ne_nil _ _)]
      exact hround.append hrest

-- The loop and the message behind it keep to the session when the file is sent
-- at least once.
theorem retries_follow (maxRetries : Nat) (hmax : 0 < maxRetries) (failed : List Trace)
    (trace : Trace) (outcome : Except Stop Bool)
    (hretries : Retries self file clientId maxRetries failed trace outcome) :
    ∃ final, Follows trace (.keyed clientId.val) final := by
  have hready : Ready file clientId (if failed = [] then .keyed clientId.val
      else .sending clientId.val file) := by
    by_cases hnil : failed = []
    · exact .inl (if_pos hnil)
    · exact .inr (if_neg hnil)
  cases hretries with
  | exhausted buffer reply hfailed hlength =>
      have hloop := self.failedRounds_follow file clientId hfile hid failed hfailed _ (.inl rfl)
      have hsome : failed ≠ [] := by
        intro hnil
        rw [hnil, List.length_nil] at hlength
        omega
      rw [if_neg hsome] at hloop
      have hdone := self.status_follows file clientId hfile CRC_INCORRECT_DONE (.inr (.inr rfl))
        buffer reply
      exact ⟨_, hloop.append hdone⟩
  | settled last status hfailed hlength hlast =>
      have hloop := self.failedRounds_follow file clientId hfile hid failed hfailed _ (.inl rfl)
      obtain ⟨final, hend⟩ :=
        self.ended_follows file clientId hfile hid last _ hlast (by simp) _ hready
      exact ⟨final, hloop.append hend⟩
  | stopped last stop hfailed hlength hlast =>
      have hloop := self.failedRounds_follow file clientId hfile hid failed hfailed _ (.inl rfl)
      obtain ⟨final, hend⟩ :=
        self.ended_follows file clientId hfile hid last _ hlast (by simp) _ hready
      exact ⟨final, hloop.append hend⟩

end Transfer

theorem fileSending_follows (encrypted_aes_key privateKey : List UInt8) (clientId : ClientId)
    (trace : Trace) (outcome : Except Stop Bool)
    (hsending : FileSending crypto self encrypted_aes_key privateKey clientId trace outcome) :
    ∃ final, Follows trace (.keyed clientId.val) final := by
  cases hsending with
  | noAesKey => exact ⟨_, Follows.silent _ _ rfl⟩
  | noFile aes_key => exact ⟨_, Follows.silent _ _ rfl⟩
  | wrongKey aes_key contents hlength => exact ⟨_, Follows.silent _ _ rfl⟩
  | noBlock aes_key contents hlength => exact ⟨_, Follows.silent _ _ rfl⟩
  | sending aes_key contents iv buffer payload failed trace outcome hlength hpayload hretries =>
      obtain ⟨final, hloop⟩ :=
        self.retries_follow _ clientId rfl rfl 3 (by omega) failed trace _ hretries
      exact ⟨final, (Follows.silent _ _ rfl).append hloop⟩

-- The exchange of the keys either goes through or sends nothing.
theorem keying_follows (clientId : ClientId) (trace : Trace)
    (outcome : Except Stop (Response × List UInt8))
    (hkeying : Keying crypto self clientId trace outcome) :
    Follows trace (.approved clientId.val)
      (match outcome with
        | .ok (answer, _) => Phase.afterPublicKey clientId.val answer
        | .error _ => .approved clientId.val) := by
  cases hkeying with
  | noKeys => exact Follows.silent _ _ rfl
  | noKeyFile keys buffer => exact Follows.silent _ _ rfl
  | noMeInfo keys buffer => exact Follows.silent _ _ rfl
  | offered keys buffer answer =>
      apply Follows.exchange (self.pubkeyRequest clientId keys.publicKey buffer) answer
      · simp [messages, keysMade]
      · simp [Phase.step, pubkeyRequest]

theorem approved_follows (clientId : ClientId) (trace : Trace) (outcome : Except Stop Bool)
    (happroved : Approved crypto self clientId trace outcome) :
    ∃ final, Follows trace (.approved clientId.val) final := by
  cases happroved with
  | unkeyed trace stop hkeying => exact ⟨_, self.keying_follows crypto clientId _ _ hkeying⟩
  | refused trace answer privateKey hkeying hcode =>
      exact ⟨_, self.keying_follows crypto clientId _ _ hkeying⟩
  | short trace answer privateKey hkeying hcode hlength =>
      exact ⟨_, self.keying_follows crypto clientId _ _ hkeying⟩
  | keyed trace answer privateKey rest outcome hkeying hcode hlength hsending =>
      have hkeyed := self.keying_follows crypto clientId _ _ hkeying
      obtain ⟨final, hsent⟩ := self.fileSending_follows crypto _ _ clientId rest outcome hsending
      simp only [Phase.afterPublicKey, hcode, if_true] at hkeyed
      exact ⟨final, hkeyed.append hsent⟩

-- The payloads that approve the client hold its id.
def ApprovalsHoldId (trace : Trace) : Prop :=
  ∀ response ∈ responses trace,
    response.code = REGISTRATION_SUCCESS ∨ response.code = APPROVE_RECONNECT_SEND_AES →
      16 ≤ response.payload.length

theorem asked_follows (requestCode : UInt16) (buffer : ClientId) (answer : Response)
    (phase final : Phase)
    (hstep : Phase.step phase (self.connectionRequest requestCode, answer) = some final) :
    Follows (self.asked requestCode buffer answer) phase final :=
  Follows.exchange _ answer (by simp [messages, asked]) hstep

theorem registration_follows (trace : Trace) (outcome : Except Stop Bool)
    (hregistration : Registration crypto self trace outcome) (hpayload : ApprovalsHoldId trace)
    (phase : Phase) (hphase : phase = .idle ∨ phase = .rejected) :
    ∃ final, Follows trace phase final := by
  have hasked (buffer : ClientId) (answer : Response) :
      Follows (self.asked REGISTRATION buffer answer) phase (Phase.afterRegistration answer) := by
    apply asked_follows
    rcases hphase with rfl | rfl <;> rfl
  cases hregistration with
  | refused buffer answer hcode => exact ⟨_, hasked buffer answer⟩
  | approved buffer answer rest outcome hcode happroved =>
      have hlength := hpayload answer (by simp [responses, messages, asked]) (.inl hcode)
      have hopen := hasked buffer answer
      obtain ⟨final, hrest⟩ := self.approved_follows crypto _ rest outcome happroved
      rw [storeClientId_val _ _ hlength] at hrest
      simp only [Phase.afterRegistration, hcode, if_true] at hopen
      exact ⟨final, hopen.append hrest⟩

theorem reconnection_follows (trace : Trace) (outcome : Except Stop Bool)
    (hreconnection : Reconnection crypto self trace outcome) (hpayload : ApprovalsHoldId trace) :
    ∃ final, Follows trace .idle final := by
  have hasked (buffer : ClientId) (answer : Response) :
      Follows (self.asked RECONNECT buffer answer) .idle (Phase.afterReconnect answer) :=
    self.asked_follows RECONNECT buffer answer _ _ rfl
  cases hreconnection with
  | rejected buffer answer rest outcome hcode hregistration =>
      have hopen := hasked buffer answer
      simp only [Phase.afterReconnect, hcode, if_true] at hopen
      obtain ⟨final, hrest⟩ := self.registration_follows crypto rest outcome hregistration
        (fun response hr => hpayload response (by simp [hr])) .rejected (.inr rfl)
      exact ⟨final, hopen.append hrest⟩
  | refused buffer answer hreject happrove => exact ⟨_, hasked buffer answer⟩
  | approved buffer answer rest outcome hcode happroved =>
      have hlength := hpayload answer (by simp [responses, messages, asked]) (.inr hcode)
      have hopen := hasked buffer answer
      obtain ⟨final, hrest⟩ := self.approved_follows crypto _ rest outcome happroved
      rw [storeClientId_val _ _ hlength] at hrest
      simp only [Phase.afterReconnect, hcode, if_true] at hopen
      exact ⟨final, hopen.append hrest⟩

-- Both flows keep to the session: their messages alternate, and every exchange
-- is in order.
theorem flows_ordered (trace : Trace) (outcome : Except Stop Bool)
    (hruns : (self.handleRegistration crypto).Runs trace outcome ∨
      (self.handleReconnection crypto).Runs trace outcome)
    (hpayload : ApprovalsHoldId trace) :
    ∃ exchanges, Alternates trace exchanges ∧ Ordered exchanges := by
  have hfollows : ∃ final, Follows trace session.start final := by
    rcases hruns with hruns | hruns
    · have hflow := self.handleRegistration_registration crypto trace outcome hruns
      exact self.registration_follows crypto trace outcome hflow hpayload _ (.inl rfl)
    · have hflow := self.handleReconnection_reconnection crypto trace outcome hruns
      exact self.reconnection_follows crypto trace outcome hflow hpayload
  obtain ⟨final, exchanges, ha, hr⟩ := hfollows
  exact ⟨exchanges, ha, ordered_of_session exchanges final hr⟩

-- A reconnection that is rejected, the registration after it, and the transfer.
theorem flows_ordered_rejected :
    let run := (Sample.client.handleReconnection Sample.crypto).exec World.handler
      (Sample.world (Sample.bare 2106 :: Sample.approval 2100 :: Sample.transferring))
    codes run.trace = [RECONNECT, REGISTRATION, SEND_PUBLIC_KEY, SEND_FILE, CRC_CORRECT] ∧
      ∃ exchanges, Alternates run.trace exchanges ∧ Ordered exchanges := by
  intro run
  refine ⟨by decide, Sample.client.flows_ordered Sample.crypto run.trace run.outcome
    (.inr (Prog.exec_runs _ _ _)) ?_⟩
  unfold ApprovalsHoldId
  decide

end ProtocolHandler

end TransferClient
