import TransferClient.HandleClient.Flow
import TransferClient.World

namespace TransferClient

open Interaction Bytes Client ServerRequests ServerResponses ProtocolHandler

-- A file that does not open, for reading or for writing.
def fails : Event Ans → Bool
  | ⟨.ifstream _, file⟩ => file.isNone
  | ⟨.ofstream _, opened⟩ => !opened
  | _ => false

-- What a run does after the first file that does not open.
def afterFailure (trace : Trace) : Trace :=
  (trace.dropWhile fun event => !fails event).tail

-- A connection is established first.
def connects : Trace → Bool
  | ⟨.socket, created⟩ :: ⟨.connect _ _, connected⟩ :: _ => created && connected
  | _ => false

def meInfoUnreadable (trace : Trace) : Prop :=
  trace.tail.head? = some ⟨.ifstream ME_INFO_PATH, none⟩

-- The server has answered RECONNECT with 2106.
def rejected (trace : Trace) : Prop :=
  ∃ exchange, exchangeOf RECONNECT (messages trace) = some exchange ∧
    exchange.2.code = RECONNECT_REJECTED

instance (trace : Trace) : Decidable (rejected trace) :=
  decidable_of_iff ((exchangeOf RECONNECT (messages trace)).any fun exchange =>
    decide (exchange.2.code = RECONNECT_REJECTED)) (by simp [rejected, Option.any_eq_true])

-- A registration has one of its two reasons, and a file that does not open in the
-- reconnection is not one of them.
structure KnownClientKept (trace : Trace) : Prop where
  reason : REGISTRATION ∈ codes trace → meInfoUnreadable trace ∨ rejected trace
  failure : RECONNECT ∈ codes trace → REGISTRATION ∉ codes (afterFailure trace)

-- A part of a run throws a runtime error exactly by a file that does not open, and
-- that is its last event.
inductive Ended {α : Type} : Trace → Except Stop α → Prop where
  | smoothly (trace : Trace) (outcome : Except Stop α) (hno : ∀ event ∈ trace, fails event = false)
      (houtcome : ∀ what, outcome ≠ .error (.thrown (.runtimeError what))) : Ended trace outcome
  | failing (past : Trace) (event : Event Ans) (what : List UInt8)
      (hno : ∀ event ∈ past, fails event = false) (hfails : fails event = true) :
      Ended (past ++ [event]) (.error (.thrown (.runtimeError what)))

theorem Ended.append {α : Type} {first rest : Trace} {outcome : Except Stop α}
    (hrest : Ended rest outcome) (hfirst : ∀ event ∈ first, fails event = false) :
    Ended (first ++ rest) outcome := by
  cases hrest with
  | smoothly _ _ hno houtcome =>
      exact .smoothly _ _ (List.forall_mem_append.mpr ⟨hfirst, hno⟩) houtcome
  | failing past event what hno hfails =>
      rw [← List.append_assoc]
      exact .failing _ event what (List.forall_mem_append.mpr ⟨hfirst, hno⟩) hfails

namespace ProtocolHandler

variable {crypto : CryptoPP} {self : ProtocolHandler} {clientId : ClientId} {trace : Trace}

-- The loop opens no file but for a checksum.
theorem RetryOp.noFailure {file : Request} {event : Event Ans}
    (hop : RetryOp self file clientId event.op) : fails event = false := by
  obtain ⟨op, answer⟩ := event
  cases op with
  | ifstream path => exact hop.elim
  | ofstream path => exact hop.elim
  | _ => rfl

theorem Retries.ended {file : Request} {maxRetries : Nat} {failed : List Trace}
    {outcome : Except Stop Bool}
    (hretries : Retries self file clientId maxRetries failed trace outcome) :
    Ended trace outcome := by
  have hno : ∀ event ∈ trace, fails event = false :=
    fun event he => (hretries.ops event he).noFailure
  apply Ended.smoothly trace outcome hno
  intro what
  cases hretries with
  | exhausted buffer reply hfailed hlength => simp
  | settled last status hfailed hlength hlast => simp
  | stopped last stop hfailed hlength hlast =>
      cases hlast with
      | short answer hcode hcrc => simp
      | unread answer received reading stop hcode hcrc hread =>
          intro he
          cases he
          rcases crcOf_error hread with h | h <;> cases h

theorem FileSending.ended {encrypted_aes_key privateKey : List UInt8} {outcome : Except Stop Bool}
    (hsending : FileSending crypto self encrypted_aes_key privateKey clientId trace outcome) :
    Ended trace outcome := by
  cases hsending with
  | noAesKey => exact .smoothly _ _ (by simp [fails]) (by simp)
  | noFile aes_key =>
      exact .failing [⟨.rsaDecrypt encrypted_aes_key privateKey, some aes_key⟩] _ _
        (by simp [fails]) rfl
  | wrongKey aes_key contents hlength => exact .smoothly _ _ (by simp [fails]) (by simp)
  | noBlock aes_key contents hlength => exact .smoothly _ _ (by simp [fails]) (by simp)
  | sending aes_key contents iv buffer payload failed trace outcome hlength hpayload hretries =>
      exact hretries.ended.append (by simp [fails])

theorem Keying.ended {outcome : Except Stop (Response × List UInt8)}
    (hkeying : Keying crypto self clientId trace outcome) : Ended trace outcome := by
  cases hkeying with
  | noKeys => exact .smoothly _ _ (by simp [fails]) (by simp)
  | noKeyFile keys buffer => exact .failing _ _ _ (by simp [fails, keysMade]) rfl
  | noMeInfo keys buffer keyCount =>
      exact .failing (keysMade keys buffer ++
        [⟨.ofstream PRIVATE_KEY_PATH, true⟩, ⟨.put PRIVATE_KEY_PATH keys.privateKey, keyCount⟩])
        ⟨.ofstream ME_INFO_PATH, false⟩ _ (by simp [fails, keysMade]) rfl
  | offered keys buffer answer => exact .smoothly _ _ (by simp [fails, keysMade]) (by simp)

theorem Approved.ended {outcome : Except Stop Bool}
    (happroved : Approved crypto self clientId trace outcome) : Ended trace outcome := by
  have hkeyed (first : Trace) (answer : Response) (privateKey : List UInt8)
      (hkeying : Keying crypto self clientId first (.ok (answer, privateKey))) :
      ∀ event ∈ first, fails event = false := by
    cases hkeying.ended with
    | smoothly _ _ hno houtcome => exact hno
  cases happroved with
  | unkeyed trace stop hkeying =>
      cases hkeying.ended with
      | smoothly _ _ hno houtcome =>
          exact .smoothly _ _ hno (fun what he => houtcome what (by cases he; rfl))
      | failing past event what hno hfails => exact .failing past event what hno hfails
  | refused trace answer privateKey hkeying hcode =>
      exact .smoothly _ _ (hkeyed trace answer privateKey hkeying) (by simp)
  | short trace answer privateKey hkeying hcode hlength =>
      exact .smoothly _ _ (hkeyed trace answer privateKey hkeying) (by simp)
  | keyed trace answer privateKey rest outcome hkeying hcode hlength hsending =>
      exact hsending.ended.append (hkeyed trace answer privateKey hkeying)

theorem Registration.ended {outcome : Except Stop Bool}
    (hregistration : Registration crypto self trace outcome) : Ended trace outcome := by
  cases hregistration with
  | refused buffer answer hcode => exact .smoothly _ _ (by simp [fails, asked]) (by simp)
  | approved buffer answer rest outcome hcode happroved =>
      exact happroved.ended.append (by simp [fails, asked])

theorem Reconnection.ended {outcome : Except Stop Bool}
    (hreconnection : Reconnection crypto self trace outcome) : Ended trace outcome := by
  cases hreconnection with
  | rejected buffer answer rest outcome hcode hregistration =>
      exact hregistration.ended.append (by simp [fails, asked])
  | refused buffer answer hreject happrove => exact .smoothly _ _ (by simp [fails, asked]) (by simp)
  | approved buffer answer rest outcome hcode happroved =>
      exact happroved.ended.append (by simp [fails, asked])

theorem Approved.codes_ne {outcome : Except Stop Bool}
    (happroved : Approved crypto self clientId trace outcome) (code : UInt16)
    (hcode : code ∈ codes trace) : code ≠ REGISTRATION ∧ code ≠ RECONNECT := by
  have hkeying (first : Trace) (result : Except Stop (Response × List UInt8))
      (hkeying : Keying crypto self clientId first result) (hcode : code ∈ codes first) :
      code = SEND_PUBLIC_KEY := by
    cases hkeying <;> simp [codes, requests, messages, keysMade, pubkeyRequest] at hcode
    exact hcode
  have hpublicKey (he : code = SEND_PUBLIC_KEY) : code ≠ REGISTRATION ∧ code ≠ RECONNECT := by
    rw [he]
    decide
  cases happroved with
  | unkeyed trace stop hk => exact hpublicKey (hkeying trace _ hk hcode)
  | refused trace answer privateKey hk ha => exact hpublicKey (hkeying trace _ hk hcode)
  | short trace answer privateKey hk ha hl => exact hpublicKey (hkeying trace _ hk hcode)
  | keyed first answer privateKey rest outcome hk ha hl hsending =>
      rw [codes_append, List.mem_append] at hcode
      rcases hcode with hcode | hcode
      · exact hpublicKey (hkeying first _ hk hcode)
      · obtain ⟨request, hmem, rfl⟩ := (mem_codes code rest).mp hcode
        rcases hsending.ops _ hmem with h | h | h | h <;> rw [h] <;> decide

theorem Registration.codes_mem {outcome : Except Stop Bool}
    (hregistration : Registration crypto self trace outcome) :
    REGISTRATION ∈ codes trace ∧ RECONNECT ∉ codes trace := by
  cases hregistration with
  | refused buffer answer hcode =>
      rw [codes_asked]
      decide
  | approved buffer answer rest outcome hcode happroved =>
      rw [codes_append, codes_asked]
      refine ⟨by simp, fun hmem => ?_⟩
      rcases List.mem_append.mp hmem with hmem | hmem
      · exact absurd hmem (by decide)
      · exact (happroved.codes_ne RECONNECT hmem).2 rfl

theorem Reconnection.codes_mem {outcome : Except Stop Bool}
    (hreconnection : Reconnection crypto self trace outcome) : RECONNECT ∈ codes trace := by
  cases hreconnection with
  | rejected buffer answer rest outcome hcode hregistration => simp [codes_asked]
  | refused buffer answer hreject happrove => simp [codes_asked]
  | approved buffer answer rest outcome hcode happroved => simp [codes_asked]

-- A reconnection registers only after a rejection.
theorem Reconnection.reason {outcome : Except Stop Bool}
    (hreconnection : Reconnection crypto self trace outcome) (before after : Trace)
    (hbefore : messages before = []) (hcode : REGISTRATION ∈ codes trace) :
    TransferClient.rejected (before ++ trace ++ after) := by
  cases hreconnection with
  | rejected buffer answer rest outcome hreject hregistration =>
      refine ⟨(self.connectionRequest RECONNECT, answer), ?_, hreject⟩
      simp [hbefore, exchangeOf, connectionRequest]
  | refused buffer answer hreject happrove =>
      rw [codes_asked] at hcode
      exact absurd hcode (by decide)
  | approved buffer answer rest outcome happrove happroved =>
      rw [codes_append, codes_asked, List.mem_append] at hcode
      rcases hcode with hcode | hcode
      · exact absurd hcode (by decide)
      · exact absurd rfl (happroved.codes_ne REGISTRATION hcode).1

end ProtocolHandler

theorem afterFailure_of_none {trace : Trace} (hno : ∀ event ∈ trace, fails event = false) :
    afterFailure trace = [] := by
  have hdrop : trace.dropWhile (fun event => !fails event) = [] := by
    rw [List.dropWhile_eq_nil_iff]
    intro event he
    rw [hno event he]
    rfl
  rw [afterFailure, hdrop]
  rfl

theorem afterFailure_of_failure (past : Trace) (event : Event Ans) (rest : Trace)
    (hno : ∀ event ∈ past, fails event = false) (hfails : fails event = true) :
    afterFailure (past ++ [event] ++ rest) = rest := by
  have hpast : ∀ event ∈ past, (!fails event) = true := by
    intro event he
    rw [hno event he]
    rfl
  rw [afterFailure, List.append_assoc, List.dropWhile_append_of_pos hpast]
  simp [hfails]

theorem Connection.silent {trace : Trace} {outcome : Except Stop Bool}
    (hconnection : Connection trace outcome) :
    messages trace = [] ∧ (∀ event ∈ trace, fails event = false) ∧
      (outcome = .ok false → connects trace = false) := by
  cases hconnection with
  | noSocket => exact ⟨rfl, by simp [fails], fun _ => rfl⟩
  | tried address port connected =>
      refine ⟨rfl, by simp [fails], ?_⟩
      intro he
      cases he
      rfl

theorem Fallback.codes_mem {crypto : CryptoPP} {trace : Trace} {outcome : Except Stop Bool}
    (hfallback : Fallback crypto trace outcome) :
    RECONNECT ∉ codes trace ∧ (REGISTRATION ∈ codes trace ↔ connects trace = true) := by
  cases hfallback with
  | unconnected trace hconnection =>
      obtain ⟨hmessages, _, hconnects⟩ := Connection.silent hconnection
      rw [codes_of_messages hmessages, hconnects rfl]
      simp
  | registered self address port rest outcome hregistration =>
      obtain ⟨hregister, hreconnect⟩ := hregistration.codes_mem
      exact ⟨hreconnect, iff_of_true hregister rfl⟩

theorem knownClientKept_of_silent {trace : Trace} (hmessages : messages trace = []) :
    KnownClientKept trace ↔ (RECONNECT ∈ codes trace → connects (afterFailure trace) = false) := by
  have hcodes := codes_of_messages hmessages
  exact iff_of_true ⟨by simp [hcodes], by simp [hcodes]⟩ (by simp [hcodes])

section Known

variable {crypto : CryptoPP} {self : ProtocolHandler} {before : Trace}

-- Without a failure there is nothing after it, and a registration has been asked for.
theorem knownClientKept_of_smooth (hmessages : messages before = [])
    (hopened : ∀ event ∈ before, fails event = false) {rest : Trace} {outcome : Except Stop Bool}
    (hreconnection : Reconnection crypto self rest outcome)
    (houtcome : ∀ what, outcome ≠ .error (.thrown (.runtimeError what))) :
    KnownClientKept (before ++ rest) ↔
      (RECONNECT ∈ codes (before ++ rest) → connects (afterFailure (before ++ rest)) = false) := by
  cases hreconnection.ended with
  | smoothly _ _ hno _ =>
      have hafter : afterFailure (before ++ rest) = [] :=
        afterFailure_of_none (List.forall_mem_append.mpr ⟨hopened, hno⟩)
      rw [hafter]
      refine iff_of_true ⟨fun hregistered => .inr ?_, fun _ => ?_⟩ fun _ => rfl
      · rw [codes_append, codes_of_messages hmessages, List.nil_append] at hregistered
        have hreason := hreconnection.reason before [] hmessages hregistered
        rwa [List.append_nil] at hreason
      · rw [hafter]
        exact List.not_mem_nil
  | failing past event what hno hfails => exact absurd rfl (houtcome what)

-- After a failure the run registers exactly when it gets a connection.
theorem knownClientKept_of_failed (hmessages : messages before = [])
    (hopened : ∀ event ∈ before, fails event = false) {first rest : Trace} {what : List UInt8}
    {outcome : Except Stop Bool}
    (hreconnection : Reconnection crypto self first (.error (.thrown (.runtimeError what))))
    (hfallback : Fallback crypto rest outcome) :
    KnownClientKept (before ++ first ++ rest) ↔
      (RECONNECT ∈ codes (before ++ first ++ rest) →
        connects (afterFailure (before ++ first ++ rest)) = false) := by
  obtain ⟨_, hregister⟩ := hfallback.codes_mem
  have hcode : RECONNECT ∈ codes (before ++ first ++ rest) := by
    rw [codes_append, codes_append]
    exact List.mem_append_left _ (List.mem_append_right _ hreconnection.codes_mem)
  have hafter : afterFailure (before ++ first ++ rest) = rest := by
    cases hreconnection.ended with
    | smoothly _ _ _ houtcome => exact absurd rfl (houtcome what)
    | failing past event _ hno hfails =>
        rw [← List.append_assoc]
        exact afterFailure_of_failure _ event rest
          (List.forall_mem_append.mpr ⟨hopened, hno⟩) hfails
  rw [hafter]
  constructor
  · intro hkept _
    have hno := hkept.failure hcode
    rw [hafter, hregister] at hno
    exact Bool.eq_false_of_not_eq_true hno
  · intro hunconnected
    have hno : REGISTRATION ∉ codes rest := by
      rw [hregister, hunconnected hcode]
      exact Bool.false_ne_true
    refine ⟨fun hregistered => .inr ?_, fun _ => by rwa [hafter]⟩
    rw [codes_append, codes_append, codes_of_messages hmessages, List.nil_append] at hregistered
    have hfirst := (List.mem_append.mp hregistered).resolve_right hno
    exact hreconnection.reason before rest hmessages hfirst

end Known

-- The known client is kept exactly when no file of the reconnection fails to open,
-- or the connection that is then tried again is not established.
theorem knownClientKept_iff (crypto : CryptoPP) (trace : Trace) (outcome : Except Stop Bool)
    (hruns : (handleClient crypto).Runs trace outcome) :
    KnownClientKept trace ↔ (RECONNECT ∈ codes trace → connects (afterFailure trace) = false) := by
  have hflow := handleClient_flow crypto trace outcome hruns
  cases hflow with
  | unconfigured file stop =>
      exact knownClientKept_of_silent rfl
  | unknown file rest outcome hfallback =>
      have hno := hfallback.codes_mem.1
      exact iff_of_true ⟨fun _ => .inl rfl, fun h => absurd h hno⟩ fun h => absurd h hno
  | unconnected file contents rest hconnection =>
      apply knownClientKept_of_silent
      rw [messages_append, (Connection.silent hconnection).1]
      rfl
  | reconnected file contents self address port rest outcome hreconnection houtcome =>
      exact knownClientKept_of_smooth rfl (by simp [fails]) hreconnection houtcome
  | failed file contents self address port first rest what outcome hreconnection hfallback =>
      exact knownClientKept_of_failed rfl (by simp [fails]) hreconnection hfallback

namespace Sample

-- The machine of a known client, with or without the file to transfer.
def known (file : Option (List UInt8)) : Machine :=
  { machine with
    files := fun path =>
      if path = TRANSFER_INFO_PATH then
        some (text "127.0.0.1:8080" ++ [10] ++ text "name" ++ [10] ++ text "file")
      else if path = ME_INFO_PATH then some (text "name")
      else file }

def approving (file : Option (List UInt8)) : World :=
  World.serving (approval 2105 :: transferring) fun _ => (known file).replies

end Sample

theorem knownClientKept_readable :
    let run := (handleClient Sample.crypto).exec World.handler (Sample.approving (some []))
    codes run.trace = [RECONNECT, SEND_PUBLIC_KEY, SEND_FILE, CRC_CORRECT] ∧
      KnownClientKept run.trace := by
  intro run
  refine ⟨by decide +kernel, ?_⟩
  have hiff := knownClientKept_iff Sample.crypto run.trace run.outcome (Prog.exec_runs _ _ _)
  exact hiff.mpr fun _ => by decide +kernel

-- The server approves the reconnection, and the file to transfer does not open.
theorem knownClient_registered_again :
    let run := (handleClient Sample.crypto).exec World.handler (Sample.approving none)
    (handleClient Sample.crypto).Runs run.trace run.outcome ∧
      codes run.trace = [RECONNECT, SEND_PUBLIC_KEY, REGISTRATION] ∧
      ¬(meInfoUnreadable run.trace ∨ rejected run.trace) ∧ ¬KnownClientKept run.trace := by
  intro run
  have hcodes : codes run.trace = [RECONNECT, SEND_PUBLIC_KEY, REGISTRATION] := by decide +kernel
  have hreason : ¬(meInfoUnreadable run.trace ∨ rejected run.trace) := by
    rintro (hunreadable | ⟨exchange, hexchange, hrejected⟩)
    · have hread : run.trace.tail.head?.map fails = some false := by decide +kernel
      rw [hunreadable] at hread
      cases hread
    · have hanswer : (exchangeOf RECONNECT (messages run.trace)).map (fun exchange => exchange.2.code) =
          some 2105 := by decide +kernel
      rw [hexchange, Option.map_some, hrejected] at hanswer
      exact absurd hanswer (by decide)
  refine ⟨Prog.exec_runs _ _ _, hcodes, hreason, fun hkept => hreason (hkept.reason ?_)⟩
  rw [hcodes]
  decide

end TransferClient
