import TransferClient.HandleClient.Sessions

namespace TransferClient

open Interaction Bytes Client ProtocolHandler ServerRequests ServerResponses

variable {α : Type}

def errorOf : Except Stop α → Option Stop
  | .ok _ => none
  | .error stop => some stop

-- A decryption that gives no AES key.
def unusableKey : Event Ans → Bool
  | ⟨.rsaDecrypt _ _, some aes_key⟩ => decide (aes_key.length ≠ 16)
  | _ => false

-- An answer that is too short for what is taken out of it.
def tooShort (answer : Response) : Event Ans → Option Stop
  | ⟨.sendRequest request, _⟩ =>
      if request.code = SEND_PUBLIC_KEY ∧ answer.code = RECEIVED_PUBLIC_KEY_SEND_AES ∧
          answer.payload.length < 16 then
        some (.thrown .outOfRange)
      else if request.code = SEND_FILE ∧ answer.code = FILE_RECEIVED_CRC_OK ∧
          trailingCRC answer.payload = none then
        some .undefined
      else none
  | _ => none

-- How a run ends that stops behind this event, with the event before it.
def raisedBy (before : Event Ans) : Event Ans → Option Stop
  | ⟨.ifstream path, none⟩ => some (unableToOpen path)
  | ⟨.ifstream _, some _⟩ =>
      if unusableKey before then some (.thrown (.invalidArgument (text "Key length must be 16 bytes.")))
      else none
  | ⟨.ifstreamAte _, reading⟩ => errorOf (crcOf reading)
  | ⟨.ofstream path, opened⟩ => if opened then none else some (unableToOpen path)
  | ⟨.generateKeyPair, none⟩ => some (.thrown .cryptoPP)
  | ⟨.rsaDecrypt _ _, none⟩ => some (.thrown .cryptoPP)
  | ⟨.generateBlock, none⟩ => some (.thrown .cryptoPP)
  | ⟨.getResponse, answer⟩ => tooShort answer before
  | _ => none

-- What the last event of a part raises, behind an event before the part.
def raised (before : Event Ans) : Trace → Option Stop
  | [] => none
  | [last] => raisedBy before last
  | event :: next :: rest => raised event (next :: rest)

-- The configuration alone is a whole run if it cannot be read.
def unreadable : Event Ans → Option Stop
  | ⟨.ifstream path, none⟩ => some (unableToOpen path)
  | ⟨.ifstream _, some contents⟩ =>
      errorOf ((FileHandler.transferInfoOf contents).mapError Stop.thrown)
  | _ => none

def failure : Trace → Option Stop
  | [] => none
  | [event] => unreadable event
  | event :: next :: rest => raised event (next :: rest)

-- The last event of a part, wherever the part stands, tells how it ends.
def Explained (trace : Trace) (outcome : Except Stop α) : Prop :=
  trace ≠ [] ∧ ∀ before, raised before trace = errorOf outcome

theorem Explained.prepend {trace : Trace} {outcome : Except Stop α}
    (htrace : Explained trace outcome) (first : Trace) : Explained (first ++ trace) outcome := by
  obtain ⟨hne, hraised⟩ := htrace
  refine ⟨by simp [hne], fun before => ?_⟩
  induction first generalizing before with
  | nil => exact hraised before
  | cons event first ih =>
      cases hrest : first ++ trace with
      | nil => simp [hne] at hrest
      | cons next rest =>
          rw [List.cons_append, hrest, raised, ← hrest]
          exact ih event

namespace ProtocolHandler

section Loop

variable {self : ProtocolHandler} {file : Request} {clientId : ClientId}

theorem status_explained {code : UInt16} (hcode : StatusCode code)
    (buffer : Buffer (self.filePath.length + 1)) (reply : Response) (value : α) :
    Explained (self.status clientId code buffer reply) (.ok value : Except Stop α) := by
  refine ⟨by simp [status], fun before => ?_⟩
  have hne := hcode.ne
  simp [status, raised, raisedBy, tooShort, statusRequest, hne, errorOf]

variable (hfile : file.code = SEND_FILE)

include hfile

theorem Round.explained {round : Trace} {result : Except Stop (Option Bool)}
    (hround : Round self file clientId round result) : Explained round result := by
  have hkey : file.code ≠ SEND_PUBLIC_KEY := by
    rw [hfile]
    decide
  cases hround with
  | other answer hcode =>
      refine ⟨by simp, fun before => ?_⟩
      simp [raised, raisedBy, tooShort, hkey, hcode, errorOf]
  | short answer hcode hcrc =>
      refine ⟨by simp, fun before => ?_⟩
      show tooShort answer (sent file) = some .undefined
      rw [tooShort, if_neg fun h => hkey h.1, if_pos ⟨hfile, hcode, hcrc⟩]
  | unread answer received reading stop hcode hcrc hread =>
      refine ⟨by simp, fun before => ?_⟩
      show errorOf (crcOf reading) = some stop
      rw [hread]
      rfl
  | mismatched answer received calculated reading buffer reply hcode hcrc hread hne =>
      exact (status_explained (.inr (.inl rfl)) buffer reply none).prepend _
  | matched answer received reading buffer reply hcode hcrc hread =>
      exact (status_explained (.inl rfl) buffer reply _).prepend _

theorem Retries.explained {maxRetries : Nat} {failed : List Trace} {trace : Trace}
    {outcome : Except Stop Bool}
    (hretries : Retries self file clientId maxRetries failed trace outcome) :
    Explained trace outcome := by
  cases hretries with
  | exhausted buffer reply hfailed hlength =>
      exact (status_explained (.inr (.inr rfl)) buffer reply false).prepend _
  | settled last status hfailed hlength hlast =>
      obtain ⟨hne, hraised⟩ := hlast.explained hfile
      exact Explained.prepend ⟨hne, hraised⟩ _
  | stopped last stop hfailed hlength hlast =>
      obtain ⟨hne, hraised⟩ := hlast.explained hfile
      exact Explained.prepend ⟨hne, hraised⟩ _

end Loop

variable {crypto : CryptoPP} {self : ProtocolHandler} {trace : Trace} {outcome : Except Stop Bool}

theorem FileSending.explained {encrypted_aes_key privateKey : List UInt8} {clientId : ClientId}
    (hsending : FileSending crypto self encrypted_aes_key privateKey clientId trace outcome) :
    Explained trace outcome := by
  cases hsending with
  | noAesKey => exact ⟨by simp, fun before => rfl⟩
  | noFile aes_key => exact ⟨by simp, fun before => rfl⟩
  | wrongKey aes_key contents hlength =>
      refine ⟨by simp, fun before => ?_⟩
      simp [raised, raisedBy, unusableKey, hlength, errorOf]
  | noBlock aes_key contents hlength => exact ⟨by simp, fun before => rfl⟩
  | sending aes_key contents iv buffer payload failed loop outcome hlength hpayload hretries =>
      exact (hretries.explained rfl).prepend _

theorem Keying.explained {clientId : ClientId} {result : Except Stop (Response × List UInt8)}
    (hkeying : Keying crypto self clientId trace result) (hresult : ∀ keyed, result ≠ .ok keyed) :
    Explained trace result := by
  cases hkeying with
  | noKeys => exact ⟨by simp, fun before => rfl⟩
  | noKeyFile keys buffer => exact Explained.prepend ⟨by simp, fun before => rfl⟩ _
  | noMeInfo keys buffer => exact Explained.prepend ⟨by simp, fun before => rfl⟩ _
  | offered keys buffer answer => exact absurd rfl (hresult _)

-- Behind the answer to a public key.
theorem Keying.answered_explained {clientId : ClientId} {answer : Response}
    {privateKey : List UInt8}
    (hkeying : Keying crypto self clientId trace (.ok (answer, privateKey)))
    (hanswer : ∀ request : Request, request.code = SEND_PUBLIC_KEY →
      tooShort answer (sent request) = errorOf outcome) : Explained trace outcome := by
  cases hkeying with
  | offered keys buffer answer =>
      have hlast : Explained [sent (self.pubkeyRequest clientId keys.publicKey buffer), got answer] outcome :=
        ⟨by simp, fun before => hanswer _ rfl⟩
      exact (hlast.prepend [_, _, _, _]).prepend _

theorem Approved.explained {clientId : ClientId}
    (happroved : Approved crypto self clientId trace outcome) :
    Explained trace outcome := by
  cases happroved with
  | unkeyed trace stop hkeying =>
      obtain ⟨hne, hraised⟩ := hkeying.explained (by simp)
      exact ⟨hne, hraised⟩
  | refused trace answer privateKey hkeying hcode =>
      refine hkeying.answered_explained fun request hrequest => ?_
      have hfile : request.code ≠ SEND_FILE := by
        rw [hrequest]
        decide
      simp [tooShort, hcode, hfile, errorOf]
  | short trace answer privateKey hkeying hcode hlength =>
      refine hkeying.answered_explained fun request hrequest => ?_
      simp [tooShort, hrequest, hcode, hlength, errorOf]
  | keyed trace answer privateKey rest outcome hkeying hcode hlength hsending =>
      exact hsending.explained.prepend trace

theorem asked_explained {requestCode : UInt16}
    (hcode : requestCode = REGISTRATION ∨ requestCode = RECONNECT)
    (buffer : ClientId) (answer : Response) (value : Bool) :
    Explained (self.asked requestCode buffer answer) (.ok value : Except Stop Bool) := by
  have hne : requestCode ≠ SEND_PUBLIC_KEY ∧ requestCode ≠ SEND_FILE := by
    rcases hcode with rfl | rfl <;> decide
  refine ⟨by simp [asked], fun before => ?_⟩
  simp [asked, raised, raisedBy, tooShort, connectionRequest, hne, errorOf]

theorem Registration.explained (hregistration : Registration crypto self trace outcome) :
    Explained trace outcome := by
  cases hregistration with
  | refused buffer answer hcode => exact asked_explained (.inl rfl) buffer answer false
  | approved buffer answer rest outcome hcode happroved => exact happroved.explained.prepend _

theorem Reconnection.explained (hreconnection : Reconnection crypto self trace outcome) :
    Explained trace outcome := by
  cases hreconnection with
  | rejected buffer answer rest outcome hcode hregistration =>
      exact hregistration.explained.prepend _
  | refused buffer answer hreject happrove => exact asked_explained (.inr rfl) buffer answer false
  | approved buffer answer rest outcome hcode happroved => exact happroved.explained.prepend _

theorem Connection.explained (hconnection : Connection trace outcome) :
    Explained trace outcome := by
  cases hconnection with
  | noSocket => exact ⟨by simp, fun before => rfl⟩
  | tried address port connected => exact ⟨by simp, fun before => rfl⟩

end ProtocolHandler

section Whole

variable {crypto : CryptoPP} {trace : Trace} {outcome : Except Stop Bool}

theorem Fallback.explained (hfallback : Fallback crypto trace outcome) :
    Explained trace outcome := by
  cases hfallback with
  | unconnected trace hconnection => exact hconnection.explained
  | registered self address port rest outcome hregistration =>
      exact hregistration.explained.prepend _

theorem failure_of_explained (file : Option (List UInt8)) {rest : Trace}
    (hrest : Explained rest outcome) :
    failure (⟨.ifstream TRANSFER_INFO_PATH, file⟩ :: rest) = errorOf outcome := by
  obtain ⟨hne, hraised⟩ := hrest
  cases rest with
  | nil => exact absurd rfl hne
  | cons next rest => exact hraised _

theorem failure_of_unconfigured {stop : Stop}
    (hread : FileHandler.readTransferInfo.Runs trace (.error stop)) :
    failure trace = some stop := by
  rw [FileHandler.runs_readTransferInfo_iff] at hread
  rcases hread with ⟨contents, rfl, hstop⟩ | ⟨rfl, hstop⟩
  · show errorOf ((FileHandler.transferInfoOf contents).mapError Stop.thrown) = some stop
    rw [← hstop]
    rfl
  · cases hstop
    rfl

end Whole

-- The last connection of the run was made to register.
def ConnectedToRegister (trace : Trace) : Prop :=
  ∃ past address port rest, trace = past ++ ⟨.connect address port, true⟩ :: rest ∧
    (∀ event ∈ rest, Event.connects event = false) ∧ (codes rest).head? = some REGISTRATION

theorem ConnectedToRegister.prepend {trace : Trace} (hconnected : ConnectedToRegister trace)
    (first : Trace) :
    ConnectedToRegister (first ++ trace) := by
  obtain ⟨past, address, port, rest, rfl, hrest⟩ := hconnected
  exact ⟨first ++ past, address, port, rest, by simp, hrest⟩

theorem Fallback.connectedToRegister {crypto : CryptoPP} {trace : Trace} {stop : Stop}
    (hfallback : Fallback crypto trace (.error stop)) : ConnectedToRegister trace := by
  cases hfallback with
  | registered self address port rest outcome hregistration =>
      have hconnects := hregistration.connected
      refine ⟨[⟨.socket, true⟩], address, port, rest, rfl, fun event hevent => ?_,
        hregistration.head_codes⟩
      obtain ⟨op, answer⟩ := event
      cases op with
      | connect address port => exact absurd rfl (hconnects _ hevent address port)
      | _ => rfl

-- What a reconnection throws as a `runtime_error` does not get out of the client.
theorem ClientFlow.runtimeError {crypto : CryptoPP} {trace : Trace} {what : List UInt8}
    (hflow : ClientFlow crypto trace (.error (.thrown (.runtimeError what)))) :
    trace.length = 1 ∨ ConnectedToRegister trace := by
  cases hflow with
  | unconfigured file stop => exact .inl rfl
  | unknown file rest outcome hfallback => exact .inr (hfallback.connectedToRegister.prepend _)
  | reconnected file contents self address port rest outcome hreconnection houtcome =>
      exact absurd rfl (houtcome what)
  | failed file contents self address port first rest what outcome hreconnection hfallback =>
      exact .inr (hfallback.connectedToRegister.prepend _)

theorem ClientFlow.failure_eq {crypto : CryptoPP} {trace : Trace} {outcome : Except Stop Bool}
    (hflow : ClientFlow crypto trace outcome) (hruns : (handleClient crypto).Runs trace outcome) :
    errorOf outcome = failure trace := by
  rw [handleClient, Prog.runs_bind] at hruns
  rcases hruns with ⟨info, first, rest, hsplit, hread, hrest⟩ | ⟨stop, rfl, hread⟩
  · cases hflow with
    | unconfigured file stop =>
        -- Behind a configuration that is read, me.info is looked for.
        rw [FileHandler.runs_readTransferInfo_iff] at hread
        obtain ⟨answer, later, rfl, _⟩ := hrest
        rcases hread with ⟨contents, rfl, _⟩ | ⟨_, hinfo⟩
        · cases hsplit
        · cases hinfo
    | unknown file rest outcome hfallback =>
        exact (failure_of_explained _ (hfallback.explained.prepend [_])).symm
    | unconnected file contents rest hconnection =>
        exact (failure_of_explained _ (hconnection.explained.prepend [_])).symm
    | reconnected file contents self address port rest outcome hreconnection houtcome =>
        exact (failure_of_explained _ (hreconnection.explained.prepend [_, _, _])).symm
    | failed file contents self address port first rest what outcome hreconnection hfallback =>
        exact (failure_of_explained _ (hfallback.explained.prepend ([_, _, _] ++ first))).symm
  · exact (failure_of_unconfigured hread).symm

-- The exceptions that leave `handleClient`, and the ends of which nothing more can be said, come
-- from the last event of a run: this one and the event before it tell which it is, or that the
-- run returns. A `runtime_error` gets out only from the configuration or from a connection
-- that was made to register, and none from a reconnection.
theorem handleClient_failure (crypto : CryptoPP) (trace : Trace) (outcome : Except Stop Bool)
    (hruns : (handleClient crypto).Runs trace outcome) :
    errorOf outcome = failure trace ∧
      ∀ what, outcome = .error (.thrown (.runtimeError what)) → trace.length = 1 ∨
        ConnectedToRegister trace := by
  have hflow := handleClient_flow crypto trace outcome hruns
  refine ⟨hflow.failure_eq hruns, fun what houtcome => ?_⟩
  rw [houtcome] at hflow
  exact hflow.runtimeError

-- The server has chosen a key of one byte.
def Sample.mistaken : World :=
  World.serving (approval 2105 :: transferring) fun _ => { known (some []) with aesKey := [7] }.replies

-- A new client, whose file to transfer is missing.
def Sample.unready : World :=
  let files (path : List UInt8) : Option (List UInt8) :=
    if path = TRANSFER_INFO_PATH then
      some (text "127.0.0.1:8080" ++ [10] ++ text "name" ++ [10] ++ text "file")
    else none
  World.serving (approval 2100 :: transferring) fun _ => { machine with files }.replies

theorem handleClient_failure_wrongKey :
    let mistaken := (handleClient Sample.crypto).exec World.handler Sample.mistaken
    let unready := (handleClient Sample.crypto).exec World.handler Sample.unready
    failure mistaken.trace = some (.thrown (.invalidArgument (text "Key length must be 16 bytes."))) ∧
      errorOf mistaken.outcome = failure mistaken.trace ∧
      errorOf unready.outcome = some (unableToOpen (text "file")) ∧
      ConnectedToRegister unready.trace := by
  intro mistaken unready
  have hmissing : unready.outcome = .error (unableToOpen (text "file")) := by decide +kernel
  have hfailure :=
    handleClient_failure Sample.crypto mistaken.trace mistaken.outcome (Prog.exec_runs _ _ _)
  have hescapes :=
    handleClient_failure Sample.crypto unready.trace unready.outcome (Prog.exec_runs _ _ _)
  refine ⟨by decide +kernel, hfailure.1, by rw [hmissing]; rfl, ?_⟩
  exact (hescapes.2 _ hmissing).resolve_left (by decide +kernel)

end TransferClient
