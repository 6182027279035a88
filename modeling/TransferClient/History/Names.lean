import TransferClient.HandleClient.Fallback
import TransferClient.HandleClient.MeInfo
import TransferClient.HandleClient.Rules
import TransferClient.History.Theorems

namespace TransferClient

open Interaction Bytes Client ProtocolHandler ServerRequests ServerResponses

-- The bytes of the payload that `sendRequest` sends.
def Request.sentPayload (request : Request) : List UInt8 :=
  request.payload.take request.payloadSize.toNat

-- The run has opened me.info for writing, and so saves it.
def saves (trace : Trace) : Bool :=
  trace.any fun event =>
    match event with
    | ⟨.ofstream path, opened⟩ => opened && decide (path = ME_INFO_PATH)
    | _ => false

-- What a run does before the first file that does not open.
def beforeFailure (trace : Trace) : Trace :=
  trace.takeWhile fun event => !fails event

-- If the run has saved me.info, a next run that finds it as it was left reconnects with the
-- name field of every registration of this run. The other files may have changed.
def CarriesName (crypto : CryptoPP) (first : Trace) : Prop :=
  saves first = true → ∀ (disk disk' : Disk) (next : Trace),
    disk' ME_INFO_PATH = disk.after first ME_INFO_PATH → RunsOn crypto disk' next →
    ∀ registration, sent registration ∈ first → registration.code = REGISTRATION →
    ∀ reconnect, sent reconnect ∈ next → reconnect.code = RECONNECT →
      reconnect.sentPayload = registration.sentPayload ∧
      registration.sentPayload.length = NAME_FIELD_SIZE

-- Registering and reconnecting agree through me.info: its lines give back the name, the id and
-- the key that were saved, no two clients have the same file, and the name is carried over
-- from the run to the next.
structure MeInfoAgrees (crypto : CryptoPP) (first : Trace) : Prop where
  readBack : ∀ name clientId privateKey, 10 ∉ name → ∀ saving : Trace,
    (FileHandler.saveMeInfo crypto name clientId privateKey).Runs saving (.ok ()) →
    (∀ event ∈ saving, getsThrough event = true) →
    ∀ (disk : Disk) (reading : Trace) (outcome : Except Stop MeInfo),
      FileHandler.readMeInfo.Runs reading outcome →
      (∀ file, ⟨.ifstream ME_INFO_PATH, file⟩ ∈ reading → file = disk.after saving ME_INFO_PATH) →
      ∃ info, outcome = .ok info ∧ Identifies info name clientId privateKey
  unique : ∀ name clientId privateKey name' clientId' privateKey', 10 ∉ name → 10 ∉ name' →
    FileHandler.meInfo crypto name clientId privateKey =
      FileHandler.meInfo crypto name' clientId' privateKey' →
    name = name' ∧ clientId = clientId' ∧ privateKey = privateKey'
  carried : CarriesName crypto first

-- The `catch` block opens me.info for writing behind a reconnection that the server has
-- rejected, or connects behind one that has opened me.info, and does not open it itself.
def Renames (trace : Trace) : Prop :=
  if saves (afterFailure trace) then rejected trace
  else saves (beforeFailure trace) = true ∧ connects (afterFailure trace) = true

instance (trace : Trace) : Decidable (Renames trace) := by
  unfold Renames
  infer_instance

-- The names in transfer.info and in me.info, as the run reads them, have the same name field.
def OneName (trace : Trace) : Prop :=
  ∀ contents info lines rest, FileHandler.transferInfoOf contents = .ok info →
    trace = [⟨.ifstream TRANSFER_INFO_PATH, some contents⟩, ⟨.ifstream ME_INFO_PATH, some lines⟩] ++ rest →
    nameField (FileHandler.meInfoOf lines).name = nameField info.name

section Parts

variable {crypto : CryptoPP} {self : ProtocolHandler} {trace : Trace} {outcome : Except Stop Bool}

-- Under which name a request goes out that registers or reconnects.
def OpensAs (name : List UInt8) (event : Event Ans) : Prop :=
  ∀ request, event = sent request → request.code = REGISTRATION ∨ request.code = RECONNECT →
    request.payload = nameField name

theorem asked_opensAs (requestCode : UInt16) (buffer : ClientId) (answer : Response) :
    ∀ event ∈ self.asked requestCode buffer answer, OpensAs self.clientName event := by
  rintro event hevent request rfl _
  have hrequest : request = self.connectionRequest requestCode := by simpa [asked] using hevent
  rw [hrequest, self.connectionRequest_payload]

theorem not_opening_of_keying {clientId : ClientId} {request : Request}
    (hkeying : KeyingOp crypto self clientId (.sendRequest request)) :
    ¬(request.code = REGISTRATION ∨ request.code = RECONNECT) := by
  have hcode : request.code = SEND_PUBLIC_KEY := hkeying
  rw [hcode]
  decide

theorem not_opening_of_transfer {request : Request}
    (htransfer : TransferOp (.sendRequest request)) :
    ¬(request.code = REGISTRATION ∨ request.code = RECONNECT) := by
  have hcode : request.code = SEND_FILE ∨ StatusCode request.code := htransfer
  rcases hcode with hfile | hstatus
  · rw [hfile]
    decide
  · exact not_or.mpr ⟨hstatus.ne.1, hstatus.ne.2.1⟩

theorem keying_opensAs (name : List UInt8) (clientId : ClientId) (event : Event Ans)
    (hkeying : KeyingOp crypto self clientId event.op) : OpensAs name event := by
  rintro request rfl hcode
  exact absurd hcode (not_opening_of_keying hkeying)

theorem transfer_opensAs (name : List UInt8) (event : Event Ans) (htransfer : TransferOp event.op) :
    OpensAs name event := by
  rintro request rfl hcode
  exact absurd hcode (not_opening_of_transfer htransfer)

theorem registration_opensAs (hregistration : Registration crypto self trace outcome) :
    ∀ event ∈ trace, OpensAs self.clientName event :=
  hregistration.forall_mem _ (asked_opensAs REGISTRATION) (keying_opensAs _) (transfer_opensAs _)

theorem reconnection_opensAs (hreconnection : Reconnection crypto self trace outcome) :
    ∀ event ∈ trace, OpensAs self.clientName event :=
  hreconnection.forall_mem _ (asked_opensAs REGISTRATION) (asked_opensAs RECONNECT)
    (keying_opensAs _) (transfer_opensAs _)

-- A request that registers or reconnects sends the whole of its payload.
theorem sentPayload_of_runs (hruns : (handleClient crypto).Runs trace outcome) {request : Request}
    (hsent : sent request ∈ trace)
    (hcode : request.code = REGISTRATION ∨ request.code = RECONNECT) :
    request.sentPayload = request.payload := by
  let Whole (_ : Trace) (event : Event Ans) : Prop := ∀ request, event = sent request →
    request.code = REGISTRATION ∨ request.code = RECONNECT → request.sentPayload = request.payload
  have hwhole : Anywhere Whole trace := by
    refine (handleClient_flow crypto trace outcome hruns).anywhere ?_ ?_ ?_ ?_
    · rintro past event haround request rfl
      exact haround.elim
    · intro self requestCode buffer answer _
      refine .of_forall ?_
      rintro event hevent past request rfl _
      have hrequest : request = self.connectionRequest requestCode := by simpa [asked] using hevent
      rw [hrequest]
      have hexact : (self.connectionRequest requestCode).payload.length =
          (self.connectionRequest requestCode).payloadSize.toNat := self.connectionRequest_exact requestCode
      rw [Request.sentPayload, ← hexact, List.take_length]
    · intro self clientId trace result hkeying
      refine .of_forall ?_
      rintro event hevent past request rfl hcode
      exact absurd hcode (not_opening_of_keying (hkeying.ops _ hevent))
    · intro self encrypted_aes_key privateKey clientId trace outcome hsending
      refine .of_forall ?_
      rintro event hevent past request rfl hcode
      exact absurd hcode (not_opening_of_transfer (hsending.ops _ hevent))
  obtain ⟨past, future, hsplit⟩ := List.append_of_mem hsent
  exact hwhole.atEach past (sent request) future hsplit request rfl hcode

@[simp] theorem saves_append (first last : Trace) :
    saves (first ++ last) = (saves first || saves last) :=
  List.any_append

theorem saves_of_quiet (hquiet : Quiet trace) : saves trace = false := by
  rw [saves, List.any_eq_false]
  intro event hevent
  have hemptied := (hquiet event hevent).1
  obtain ⟨op, answer⟩ := event
  cases op with
  | ofstream path =>
      have hopened : ¬(answer = true ∧ path = ME_INFO_PATH) := by
        rintro ⟨rfl, rfl⟩
        exact hemptied rfl
      simpa using hopened
  | _ => simp

theorem after_of_quiet (hquiet : Quiet trace) (disk : Disk) :
    disk.after trace ME_INFO_PATH = disk ME_INFO_PATH := by
  induction trace generalizing disk with
  | nil => rfl
  | cons event rest ih =>
      obtain ⟨hemptied, hput⟩ := hquiet event (by simp)
      have hevent := disk.event_meInfo event hemptied hput
      have hrest : Quiet rest := fun other hother => hquiet other (by simp [hother])
      exact (ih hrest (disk.event event)).trans hevent

-- A part of a run under one name leaves me.info as it was, or with an entry for this name.
inductive Leaves (crypto : CryptoPP) (name : List UInt8) (trace : Trace) : Prop where
  | kept (hsaves : saves trace = false)
      (hkept : ∀ disk : Disk, disk.after trace ME_INFO_PATH = disk ME_INFO_PATH)
  | saved (hsaves : saves trace = true) (clientId : ClientId) (privateKey : List UInt8)
      (hsaved : ∀ disk : Disk,
        disk.after trace ME_INFO_PATH = some (FileHandler.meInfo crypto name clientId privateKey))

namespace Leaves

variable {name : List UInt8} {first last : Trace}

theorem of_quiet (hquiet : Quiet trace) : Leaves crypto name trace :=
  .kept (saves_of_quiet hquiet) (after_of_quiet hquiet)

-- The last part that saves anything decides.
theorem append (hfirst : Leaves crypto name first) (hlast : Leaves crypto name last) :
    Leaves crypto name (first ++ last) := by
  cases hlast with
  | kept hsaves hkept =>
      cases hfirst with
      | kept hsaves' hkept' =>
          refine .kept (by simp [hsaves, hsaves']) fun disk => ?_
          rw [Disk.after_append, hkept, hkept']
      | saved hsaves' clientId privateKey hsaved =>
          refine .saved (by simp [hsaves']) clientId privateKey fun disk => ?_
          rw [Disk.after_append, hkept, hsaved]
  | saved hsaves clientId privateKey hsaved =>
      refine .saved (by simp [hsaves]) clientId privateKey fun disk => ?_
      rw [Disk.after_append, hsaved]

theorem entry {clientId : ClientId} {privateKey : List UInt8} {infoCount : Nat}
    (hcount : (FileHandler.meInfo crypto name clientId privateKey).length ≤ infoCount) :
    Leaves crypto name
      [emptied, ⟨.put ME_INFO_PATH (FileHandler.meInfo crypto name clientId privateKey), infoCount⟩] := by
  refine .saved (by simp [saves, emptied]) clientId privateKey fun disk => ?_
  simp [Disk.after, Disk.event, Disk.set, emptied, List.take_of_length_le hcount]

end Leaves

namespace ProtocolHandler

theorem Keying.leaves {clientId : ClientId} {result : Except Stop (Response × List UInt8)}
    (hkeying : Keying crypto self clientId trace result)
    (hwrites : ∀ event ∈ trace, getsThrough event = true) :
    Leaves crypto self.clientName trace := by
  have hpaths := paths_ne
  cases hkeying with
  | noKeys => exact .of_quiet (by simp [Quiet, emptied])
  | noKeyFile keys buffer => exact .of_quiet (by simp [Quiet, emptied, keysMade])
  | noMeInfo keys buffer => exact .of_quiet (by simp [Quiet, emptied, keysMade, hpaths])
  | offered keys buffer answer keyCount infoCount =>
      have hcount := hwrites ⟨.put ME_INFO_PATH
        (FileHandler.meInfo crypto self.clientName clientId keys.privateKey), infoCount⟩ (by simp)
      have hkeys : Leaves crypto self.clientName (keysMade keys buffer ++
          [⟨.ofstream PRIVATE_KEY_PATH, true⟩, ⟨.put PRIVATE_KEY_PATH keys.privateKey, keyCount⟩]) :=
        .of_quiet (by simp [Quiet, emptied, keysMade, hpaths])
      have hentry : Leaves crypto self.clientName [emptied, ⟨.put ME_INFO_PATH
          (FileHandler.meInfo crypto self.clientName clientId keys.privateKey), infoCount⟩] :=
        .entry (of_decide_eq_true hcount)
      have hoffer : Leaves crypto self.clientName
          [sent (self.pubkeyRequest clientId keys.publicKey buffer), got answer] :=
        .of_quiet (by simp [Quiet, emptied])
      have hall := hkeys.append (hentry.append hoffer)
      rwa [List.append_assoc] at hall

theorem Approved.leaves {clientId : ClientId}
    (happroved : Approved crypto self clientId trace outcome)
    (hwrites : ∀ event ∈ trace, getsThrough event = true) :
    Leaves crypto self.clientName trace := by
  cases happroved with
  | unkeyed trace stop hkeying => exact hkeying.leaves hwrites
  | refused trace answer privateKey hkeying hcode => exact hkeying.leaves hwrites
  | short trace answer privateKey hkeying hcode hlength => exact hkeying.leaves hwrites
  | keyed first answer privateKey rest outcome hkeying hcode hlength hsending =>
      have hfirst := hkeying.leaves fun event hevent => hwrites event (by simp [hevent])
      exact hfirst.append (.of_quiet (quiet_sending hsending))

theorem asked_leaves (name : List UInt8) (requestCode : UInt16) (buffer : ClientId)
    (answer : Response) :
    Leaves crypto name (self.asked requestCode buffer answer) :=
  .of_quiet (quiet_asked self requestCode buffer answer)

theorem Registration.leaves (hregistration : Registration crypto self trace outcome)
    (hwrites : ∀ event ∈ trace, getsThrough event = true) :
    Leaves crypto self.clientName trace := by
  cases hregistration with
  | refused buffer answer hcode => exact asked_leaves _ _ buffer answer
  | approved buffer answer rest outcome hcode happroved =>
      have hrest := happroved.leaves fun event hevent => hwrites event (by simp [hevent])
      exact (asked_leaves _ _ buffer answer).append hrest

theorem Reconnection.leaves (hreconnection : Reconnection crypto self trace outcome)
    (hwrites : ∀ event ∈ trace, getsThrough event = true) :
    Leaves crypto self.clientName trace := by
  cases hreconnection with
  | rejected buffer answer rest outcome hcode hregistration =>
      have hrest := hregistration.leaves fun event hevent => hwrites event (by simp [hevent])
      exact (asked_leaves _ _ buffer answer).append hrest
  | refused buffer answer hreject happrove => exact asked_leaves _ _ buffer answer
  | approved buffer answer rest outcome hcode happroved =>
      have hrest := happroved.leaves fun event hevent => hwrites event (by simp [hevent])
      exact (asked_leaves _ _ buffer answer).append hrest

end ProtocolHandler

end Parts

section Client

variable {crypto : CryptoPP} {first : Trace} {outcome : Except Stop Bool}

-- A part of a run goes by one name, in what it sends and in what it saves.
structure Under (crypto : CryptoPP) (name : List UInt8) (part : Trace) : Prop where
  opens : ∀ event ∈ part, OpensAs name event
  leaves : Leaves crypto name part

theorem connecting_under {self : ProtocolHandler} {flow : Client Bool} {trace : Trace}
    (hruns : (self.connecting flow).Runs trace outcome)
    (hwrites : ∀ event ∈ trace, getsThrough event = true)
    (hflow : ∀ rest outcome, flow.Runs rest outcome → (∀ event ∈ rest, getsThrough event = true) →
      Under crypto self.clientName rest) : Under crypto self.clientName trace := by
  have hquiet (part : Trace) (hpart : ∀ event ∈ part, AroundOp event.op) :
      Under crypto self.clientName part := by
    refine ⟨?_, .of_quiet fun event hevent => ⟨?_, fun content hput => ?_⟩⟩
    · rintro event hevent request rfl
      exact (hpart _ hevent).elim
    · rintro rfl
      exact hpart _ hevent
    · have hop := hpart event hevent
      rw [hput] at hop
      exact hop
  rw [runs_connecting] at hruns
  rcases hruns with ⟨rfl, _⟩ | ⟨rfl, _⟩ | ⟨rest, rfl, hrest⟩
  · exact hquiet _ (by simp [AroundOp])
  · exact hquiet _ (by simp [AroundOp])
  · have hconnected :=
      hquiet [⟨.socket, true⟩, ⟨.connect self.sin_addr self.sin_port, true⟩] (by simp [AroundOp])
    have hunder := hflow rest outcome hrest fun event hevent => hwrites event (by simp [hevent])
    exact ⟨List.forall_mem_append.mpr ⟨hconnected.opens, hunder.opens⟩,
      hconnected.leaves.append hunder.leaves⟩

theorem registration_under {self : ProtocolHandler} {trace : Trace}
    (hruns : (self.connecting (self.handleRegistration crypto)).Runs trace outcome)
    (hwrites : ∀ event ∈ trace, getsThrough event = true) : Under crypto self.clientName trace :=
  connecting_under hruns hwrites fun rest outcome hrest hthrough => by
    have hregistration := self.handleRegistration_registration crypto rest outcome hrest
    exact ⟨registration_opensAs hregistration, hregistration.leaves hthrough⟩

theorem reconnection_under {self : ProtocolHandler} {trace : Trace}
    (hruns : (self.connecting (self.handleReconnection crypto)).Runs trace outcome)
    (hwrites : ∀ event ∈ trace, getsThrough event = true) : Under crypto self.clientName trace :=
  connecting_under hruns hwrites fun rest outcome hrest hthrough => by
    have hreconnection := self.handleReconnection_reconnection crypto rest outcome hrest
    exact ⟨reconnection_opensAs hreconnection, hreconnection.leaves hthrough⟩

-- The server has rejected a reconnection exactly when it registers.
theorem rejected_iff {self : ProtocolHandler} {trace : Trace}
    (hreconnection : Reconnection crypto self trace outcome)
    (before after : Trace) (hbefore : messages before = []) :
    rejected (before ++ trace ++ after) ↔ REGISTRATION ∈ codes trace := by
  refine ⟨?_, hreconnection.reason before after hbefore⟩
  rintro ⟨exchange, hexchange, hcode⟩
  have hanswer (buffer : ClientId) (answer : Response) (rest : Trace)
      (hne : answer.code ≠ RECONNECT_REJECTED)
      (htrace : trace = self.asked RECONNECT buffer answer ++ rest) : REGISTRATION ∈ codes trace := by
    have hfirst : exchangeOf RECONNECT (messages (before ++ trace ++ after)) =
        some (self.connectionRequest RECONNECT, answer) := by
      simp [htrace, hbefore, exchangeOf, connectionRequest]
    rw [hfirst, Option.some.injEq] at hexchange
    rw [← hexchange] at hcode
    exact absurd hcode hne
  cases hreconnection with
  | rejected buffer answer rest outcome hreject hregistration =>
      rw [codes_append]
      exact List.mem_append_right _ hregistration.codes_mem.1
  | refused buffer answer hreject happrove =>
      exact hanswer buffer answer [] hreject (List.append_nil _).symm
  | approved buffer answer rest outcome happrove happroved =>
      exact hanswer buffer answer rest (by rw [happrove]; decide) rfl

-- A run that has registered only under the name that it has left carries the name over.
theorem carriesName_of (hruns : (handleClient crypto).Runs first outcome) {name : List UInt8}
    (hname : 10 ∉ name)
    (hregisters : ∀ registration, sent registration ∈ first → registration.code = REGISTRATION →
      registration.payload = nameField name)
    (hleft : saves first = true → ∃ clientId privateKey, ∀ disk : Disk,
      disk.after first ME_INFO_PATH = some (FileHandler.meInfo crypto name clientId privateKey)) :
    CarriesName crypto first := by
  intro hsaves disk disk' next hkept hnext registration hsent hcode reconnect hsent' hcode'
  obtain ⟨clientId, privateKey, hsaved⟩ := hleft hsaves
  obtain ⟨past, future, hsplit⟩ := List.append_of_mem hsent'
  obtain ⟨lines, hlines, hpayload⟩ := hnext.payload hsplit hcode'
  have hcontents : FileHandler.meInfo crypto name clientId privateKey = lines :=
    Option.some.inj ((hsaved disk).symm.trans (hkept.symm.trans hlines))
  rw [← hcontents, FileHandler.meInfoOf_meInfo crypto name clientId privateKey hname] at hpayload
  obtain ⟨rest, outcome', hwhole⟩ := hnext.runs
  have hmem : sent reconnect ∈ next ++ rest := List.mem_append_left rest hsent'
  rw [sentPayload_of_runs hwhole hmem (.inr hcode'), sentPayload_of_runs hruns hsent (.inl hcode),
    hpayload, hregisters registration hsent hcode]
  exact ⟨rfl, length_nameField name⟩

-- A next run that finds these lines in me.info, and reconnects.
def reconnecting (lines : List UInt8) : Trace :=
  let self := ProtocolHandler.configured ⟨text "127.0.0.1", 8080, text "name", text "file"⟩
    (FileHandler.meInfoOf lines).name
  [⟨.ifstream TRANSFER_INFO_PATH,
      some (text "127.0.0.1:8080" ++ [10] ++ text "name" ++ [10] ++ text "file")⟩,
    ⟨.ifstream ME_INFO_PATH, some lines⟩, ⟨.socket, true⟩, ⟨.connect self.sin_addr self.sin_port, true⟩,
    ⟨.newArray 16, Sample.clientId⟩, sent (self.connectionRequest RECONNECT), got ⟨51, 0, 0, []⟩]

theorem runsOn_reconnecting (crypto : CryptoPP) (disk : Disk) (lines : List UInt8)
    (hlines : disk ME_INFO_PATH = some lines) (hinfo : disk TRANSFER_INFO_PATH =
      some (text "127.0.0.1:8080" ++ [10] ++ text "name" ++ [10] ++ text "file")) :
    RunsOn crypto disk (reconnecting lines) := by
  refine ⟨⟨[], .ok false, ?_⟩, ?_⟩
  · exact ⟨_, _, rfl, some lines, _, rfl, true, _, rfl, true, _, rfl, Sample.clientId, _, rfl, (),
      _, rfl, _, _, rfl, rfl, rfl⟩
  · simp only [reconnecting, AtEach.cons_iff]
    exact ⟨hinfo, hlines, trivial, trivial, trivial, trivial, trivial, .nil⟩

-- A run that carries its name over has registered only under the name that it has left.
theorem name_of_carriesName (hruns : (handleClient crypto).Runs first outcome)
    (hcarries : CarriesName crypto first)
    (hsaves : saves first = true) {left : List UInt8} (hleftName : 10 ∉ left) {clientId : ClientId}
    {privateKey : List UInt8} (hleft : ∀ disk : Disk,
      disk.after first ME_INFO_PATH = some (FileHandler.meInfo crypto left clientId privateKey))
    (registration : Request) (hsent : sent registration ∈ first)
    (hcode : registration.code = REGISTRATION) :
    registration.payload = nameField left := by
  let contents := FileHandler.meInfo crypto left clientId privateKey
  let configuration := text "127.0.0.1:8080" ++ [10] ++ text "name" ++ [10] ++ text "file"
  let disk : Disk := fun _ => none
  let disk' : Disk := (disk.after first).set TRANSFER_INFO_PATH configuration
  have hpaths : ME_INFO_PATH ≠ TRANSFER_INFO_PATH := by decide
  have hkept : disk' ME_INFO_PATH = disk.after first ME_INFO_PATH := if_neg hpaths
  have hnext : RunsOn crypto disk' (reconnecting contents) :=
    runsOn_reconnecting crypto disk' contents (hkept.trans (hleft disk)) (if_pos rfl)
  let self := ProtocolHandler.configured ⟨text "127.0.0.1", 8080, text "name", text "file"⟩
    (FileHandler.meInfoOf contents).name
  have hreconnect : sent (self.connectionRequest RECONNECT) ∈ reconnecting contents := by
    simp [reconnecting, self]
  obtain ⟨hsame, _⟩ :=
    hcarries hsaves disk disk' _ hkept hnext registration hsent hcode _ hreconnect rfl
  obtain ⟨rest, outcome', hwhole⟩ := hnext.runs
  have hmem := List.mem_append_left rest hreconnect
  rw [sentPayload_of_runs hwhole hmem (.inr rfl), sentPayload_of_runs hruns hsent (.inl hcode),
    self.connectionRequest_payload] at hsame
  have hname : self.clientName = left := by
    show (FileHandler.meInfoOf contents).name = left
    rw [FileHandler.meInfoOf_meInfo crypto left clientId privateKey hleftName]
  rw [← hsame, hname]

-- A run that never fails to open a file does not get into the `catch` block.
theorem not_renames_of_smooth (hno : ∀ event ∈ first, fails event = false) : ¬Renames first := by
  have hafter := afterFailure_of_none hno
  rw [Renames, hafter]
  simp [saves, connects]

theorem beforeFailure_of_failure (past : Trace) (event : Event Ans) (rest : Trace)
    (hno : ∀ event ∈ past, fails event = false) (hfails : fails event = true) :
    beforeFailure (past ++ [event] ++ rest) = past := by
  have hpast : ∀ event ∈ past, (!fails event) = true := by
    intro event hevent
    rw [hno event hevent]
    rfl
  rw [beforeFailure, List.append_assoc, List.takeWhile_append_of_pos hpast]
  simp [hfails]

-- The event that fails saves nothing.
theorem saves_of_failing {event : Event Ans} (hfails : fails event = true) :
    saves [event] = false := by
  obtain ⟨op, answer⟩ := event
  cases op with
  | ofstream path =>
      cases answer with
      | false => rfl
      | true => cases hfails
  | ifstream path => rfl
  | _ => cases hfails

theorem ReadsOnly.silent {before : Trace} (hreads : ReadsOnly before) :
    saves before = false ∧ ∀ request, sent request ∉ before := by
  refine ⟨saves_of_quiet hreads.quiet, fun request hmem => ?_⟩
  obtain ⟨path, file, hevent⟩ := hreads _ hmem
  cases hevent

-- A run over one connection carries its name over.
theorem Under.carriesName {before part : Trace} {name : List UInt8}
    (hunder : Under crypto name part)
    (hruns : (handleClient crypto).Runs (before ++ part) outcome) (hreads : ReadsOnly before)
    (hname : 10 ∉ name) :
    CarriesName crypto (before ++ part) := by
  obtain ⟨hunsaved, hunsent⟩ := hreads.silent
  apply carriesName_of hruns hname
  · intro registration hsent hcode
    have hmem := (List.mem_append.mp hsent).resolve_left (hunsent registration)
    exact hunder.opens _ hmem registration rfl (.inl hcode)
  · intro hsaves
    cases hunder.leaves with
    | kept hkept => simp [hunsaved, hkept] at hsaves
    | saved _ clientId privateKey hsaved =>
        refine ⟨clientId, privateKey, fun disk => ?_⟩
        rw [Disk.after_append, hsaved]

section TwoConnections

variable {before part rest : Trace} {old new : List UInt8}

-- Where the reconnection ends, and what the `catch` block does.
theorem renames_iff_of_failed (hreads : ReadsOnly before)
    (hopened : ∀ event ∈ before, fails event = false)
    (past : Trace) (event : Event Ans) (hpart : part = past ++ [event])
    (hno : ∀ event ∈ past, fails event = false) (hfails : fails event = true) :
    Renames (before ++ part ++ rest) ↔
      if saves rest then rejected (before ++ part ++ rest)
      else saves part = true ∧ connects rest = true := by
  obtain ⟨hunsaved, _⟩ := hreads.silent
  have hsaves := saves_of_failing hfails
  have hopened' := List.forall_mem_append.mpr ⟨hopened, hno⟩
  have hwhole : before ++ part ++ rest = (before ++ past) ++ [event] ++ rest := by simp [hpart]
  have hbefore : saves (before ++ past) = saves part := by simp [hpart, hunsaved, hsaves]
  rw [Renames, hwhole, afterFailure_of_failure _ event rest hopened' hfails,
    beforeFailure_of_failure _ event rest hopened' hfails, hbefore]

-- What the run leaves in me.info goes by the name of the last part that saves it.
theorem left_of_parts (before : Trace) (hpart : Leaves crypto old part)
    (hrest : Leaves crypto new rest) (hsaves : saves part = true ∨ saves rest = true) :
    ∃ clientId privateKey, ∀ disk : Disk, disk.after (before ++ part ++ rest) ME_INFO_PATH =
      some (FileHandler.meInfo crypto (if saves rest then new else old) clientId privateKey) := by
  cases hrest with
  | kept hunsaved hkept =>
      cases hpart with
      | kept hunsaved' => simp [hunsaved, hunsaved'] at hsaves
      | saved _ clientId privateKey hsaved =>
          refine ⟨clientId, privateKey, fun disk => ?_⟩
          rw [Disk.after_append, hkept, Disk.after_append, hsaved, hunsaved]
          rfl
  | saved hsaved clientId privateKey hentry =>
      refine ⟨clientId, privateKey, fun disk => ?_⟩
      rw [Disk.after_append, hentry, hsaved]
      rfl

theorem carriesName_iff_of_failed
    (hruns : (handleClient crypto).Runs (before ++ part ++ rest) outcome)
    (hreads : ReadsOnly before) (hpart : Under crypto old part) (hrest : Under crypto new rest)
    (hold : 10 ∉ old) (hnew : 10 ∉ new) :
    CarriesName crypto (before ++ part ++ rest) ↔
      ((if saves rest then REGISTRATION ∈ codes part else saves part = true ∧ REGISTRATION ∈ codes rest) →
        nameField old = nameField new) := by
  obtain ⟨hunsaved, hunsent⟩ := hreads.silent
  have hleftName : 10 ∉ if saves rest then new else old := by
    split
    · exact hnew
    · exact hold
  have hregistersPart : ∀ registration, sent registration ∈ part →
      registration.code = REGISTRATION →
      registration.payload = nameField old :=
    fun registration hsent hcode => hpart.opens _ hsent registration rfl (.inl hcode)
  have hregistersRest : ∀ registration, sent registration ∈ rest →
      registration.code = REGISTRATION →
      registration.payload = nameField new :=
    fun registration hsent hcode => hrest.opens _ hsent registration rfl (.inl hcode)
  constructor
  · intro hcarries hrenames
    by_cases hsaves : saves rest = true
    · rw [if_pos hsaves] at hrenames
      obtain ⟨registration, hsent, hcode⟩ := (mem_codes _ _).mp hrenames
      obtain ⟨clientId, privateKey, hleft⟩ :=
        left_of_parts before hpart.leaves hrest.leaves (.inr hsaves)
      have hname := name_of_carriesName hruns hcarries (by simp [hsaves]) hleftName hleft registration
        (by simp [hsent]) hcode
      rw [if_pos hsaves] at hname
      exact (hregistersPart registration hsent hcode).symm.trans hname
    · rw [if_neg hsaves] at hrenames
      obtain ⟨hsavesPart, hmem⟩ := hrenames
      obtain ⟨registration, hsent, hcode⟩ := (mem_codes _ _).mp hmem
      obtain ⟨clientId, privateKey, hleft⟩ :=
        left_of_parts before hpart.leaves hrest.leaves (.inl hsavesPart)
      have hname := name_of_carriesName hruns hcarries (by simp [hsavesPart]) hleftName hleft registration
        (by simp [hsent]) hcode
      rw [if_neg hsaves] at hname
      exact hname.symm.trans (hregistersRest registration hsent hcode)
  · intro hnames
    by_cases hany : saves part = true ∨ saves rest = true
    · refine carriesName_of hruns hleftName ?_ fun _ => left_of_parts before hpart.leaves hrest.leaves hany
      intro registration hsent hcode
      have hwhere : sent registration ∈ part ∨ sent registration ∈ rest := by
        simpa [hunsent registration] using hsent
      rcases hwhere with hmem | hmem
      · rw [hregistersPart registration hmem hcode]
        by_cases hsaves : saves rest = true
        · rw [if_pos hsaves] at hnames ⊢
          exact hnames ((mem_codes _ _).mpr ⟨registration, hmem, hcode⟩)
        · rw [if_neg hsaves]
      · rw [hregistersRest registration hmem hcode]
        by_cases hsaves : saves rest = true
        · rw [if_pos hsaves]
        · rw [if_neg hsaves] at hnames ⊢
          have hsavesPart := hany.resolve_right hsaves
          exact (hnames ⟨hsavesPart, (mem_codes _ _).mpr ⟨registration, hmem, hcode⟩⟩).symm
    · intro hsaves
      simp only [saves_append, hunsaved, Bool.false_or, Bool.or_eq_true] at hsaves
      exact absurd hsaves hany

end TwoConnections

theorem carriesName_iff (hruns : (handleClient crypto).Runs first outcome)
    (hwrites : ∀ event ∈ first, getsThrough event = true) :
    CarriesName crypto first ↔ (Renames first → OneName first) := by
  have hsilent (event : Event Ans) (hread : ∃ path file, event = ⟨.ifstream path, file⟩) :
      CarriesName crypto [event] ∧ ¬Renames [event] := by
    obtain ⟨path, file, rfl⟩ := hread
    refine ⟨fun hsaves => absurd hsaves Bool.false_ne_true, ?_⟩
    cases file <;> simp [Renames, afterFailure, beforeFailure, fails, saves]
  have hconfigured := handleClient_configured crypto first outcome hruns
  cases hconfigured with
  | unopened stop =>
      obtain ⟨hcarries, hno⟩ := hsilent _ ⟨TRANSFER_INFO_PATH, none, rfl⟩
      exact iff_of_true hcarries fun hrenames => absurd hrenames hno
  | rejected contents exception hinfo =>
      obtain ⟨hcarries, hno⟩ := hsilent _ ⟨TRANSFER_INFO_PATH, some contents, rfl⟩
      exact iff_of_true hcarries fun hrenames => absurd hrenames hno
  | unknown contents info rest outcome hinfo hfallback =>
      have hunder :=
        registration_under hfallback fun event hevent => hwrites event (by simp [hevent])
      have hcarries := hunder.carriesName hruns (by simp [ReadsOnly]) (transferInfoOf_name hinfo)
      refine iff_of_true hcarries fun hrenames => ?_
      -- The failure is that of me.info, before anything is sent, and there is no reconnection.
      have hread : ReadsOnly [⟨.ifstream TRANSFER_INFO_PATH, some contents⟩] := by simp [ReadsOnly]
      have hfailed := (renames_iff_of_failed hread (by simp [fails]) [] ⟨.ifstream ME_INFO_PATH, none⟩ rfl
        (by simp) rfl).mp hrenames
      split at hfailed
      · obtain ⟨exchange, hexchange, _⟩ := hfailed
        have hreconnect := mem_codes_of_exchangeOf hexchange
        have hno := (fallback_of_runs crypto _ rest outcome hfallback).codes_mem.1
        exact absurd hreconnect hno
      · exact absurd hfailed.1 Bool.false_ne_true
  | known contents lines info self rest outcome hinfo hself hknown houtcome =>
      have hunder := reconnection_under hknown fun event hevent => hwrites event (by simp [hevent])
      have hname : 10 ∉ self.clientName := by
        rw [hself]
        exact lineFeed_notMem_getline lines
      have hcarries := hunder.carriesName hruns (by simp [ReadsOnly]) hname
      have hno : ∀ event ∈ rest, fails event = false := by
        rw [runs_connecting] at hknown
        rcases hknown with ⟨rfl, _⟩ | ⟨rfl, _⟩ | ⟨last, rfl, hlast⟩
        · simp [fails]
        · simp [fails]
        · cases (self.handleReconnection_reconnection crypto last outcome hlast).ended with
          | smoothly _ _ hsmooth _ => exact List.forall_mem_append.mpr ⟨by simp [fails], hsmooth⟩
          | failing past event what _ _ => exact absurd rfl (houtcome what)
      have hsmooth := not_renames_of_smooth (List.forall_mem_append.mpr
        ⟨by simp [fails], hno⟩ : ∀ event ∈ [⟨.ifstream TRANSFER_INFO_PATH, some contents⟩,
          ⟨.ifstream ME_INFO_PATH, some lines⟩] ++ rest, fails event = false)
      exact iff_of_true hcarries fun hrenames => absurd hrenames hsmooth
  | failed contents lines info self part rest what outcome hinfo hself hknown hfallback =>
      have hpart := reconnection_under hknown fun event hevent => hwrites event (by simp [hevent])
      have hrest :=
        registration_under hfallback fun event hevent => hwrites event (by simp [hevent])
      have hname : self.clientName = (FileHandler.meInfoOf lines).name := by
        rw [hself]
        rfl
      rw [hname] at hpart
      rw [runs_connecting] at hknown
      rcases hknown with ⟨_, hfalse⟩ | ⟨_, hfalse⟩ | ⟨last, hlast, hflow⟩
      · cases hfalse
      · cases hfalse
      · obtain ⟨past, event, hends, hno, hfails⟩ : ∃ past event, last = past ++ [event] ∧
            (∀ event ∈ past, fails event = false) ∧ fails event = true := by
          cases (self.handleReconnection_reconnection crypto last _ hflow).ended with
          | smoothly _ _ _ houtcome => exact absurd rfl (houtcome what)
          | failing past event _ hno hfails => exact ⟨past, event, rfl, hno, hfails⟩
        have hpartEnds : part = ([⟨.socket, true⟩, ⟨.connect self.sin_addr self.sin_port, true⟩] ++ past) ++
            [event] := by rw [hlast, hends, List.append_assoc]
        have hrejected := rejected_iff (self.handleReconnection_reconnection crypto last _ hflow)
          ([⟨.ifstream TRANSFER_INFO_PATH, some contents⟩, ⟨.ifstream ME_INFO_PATH, some lines⟩] ++
            [⟨.socket, true⟩, ⟨.connect self.sin_addr self.sin_port, true⟩]) rest rfl
        have hcodes : codes part = codes last := by
          rw [hlast, codes_append]
          rfl
        rw [List.append_assoc _ _ last, ← hlast, ← hcodes] at hrejected
        have hconnects := (fallback_of_runs crypto _ rest outcome hfallback).codes_mem.2
        rw [carriesName_iff_of_failed hruns (by simp [ReadsOnly]) hpart hrest
          (lineFeed_notMem_getline lines) (transferInfoOf_name hinfo),
          renames_iff_of_failed (by simp [ReadsOnly]) (by simp [fails]) _ event hpartEnds
          (List.forall_mem_append.mpr ⟨by simp [fails], hno⟩) hfails, hrejected, ← hconnects]
        refine imp_congr_right fun _ =>
          ⟨?_, fun hone => hone contents info lines (part ++ rest) hinfo (by simp)⟩
        intro hsame contents' info' lines' rest' hinfo' hsplit
        rw [List.append_assoc] at hsplit
        cases hsplit
        rw [hinfo] at hinfo'
        cases hinfo'
        exact hsame

end Client

-- Over two runs of the client: me.info agrees with the client that is registered exactly when
-- the `catch` block does not register another name than the one that is left in me.info.
theorem meInfo_roundTrip_iff (crypto : CryptoPP)
    (hencoder : ∀ key, (crypto.base64Encoder key).filter (· != 10) = Base64.encode key)
    (first : Trace) (outcome : Except Stop Bool) (hruns : (handleClient crypto).Runs first outcome)
    (hwrites : ∀ event ∈ first, getsThrough event = true) :
    MeInfoAgrees crypto first ↔ (Renames first → OneName first) := by
  rw [← carriesName_iff hruns hwrites]
  refine ⟨MeInfoAgrees.carried, fun hcarries => ⟨?_, ?_, hcarries⟩⟩
  · intro name clientId privateKey hname saving hsaving hthrough disk reading outcome hreading hdisk
    have hstored :=
      FileHandler.saveMeInfo_stored name clientId privateKey saving hsaving hthrough disk
    rcases FileHandler.runs_readMeInfo reading outcome hreading with ⟨lines, rfl, rfl⟩ | ⟨rfl, _⟩
    · have hlines := hdisk (some lines) (by simp)
      rw [hstored, Option.some.injEq] at hlines
      rw [hlines]
      exact ⟨_, rfl, FileHandler.meInfo_identifies hencoder name clientId privateKey hname⟩
    · have hlines := hdisk none (by simp)
      rw [hstored] at hlines
      cases hlines
  · intro name clientId privateKey name' clientId' privateKey' hname hname' hsame
    have hfirst := FileHandler.meInfo_identifies hencoder name clientId privateKey hname
    have hsecond := FileHandler.meInfo_identifies hencoder name' clientId' privateKey' hname'
    rw [hsame] at hfirst
    exact hfirst.unique hsecond

namespace Sample

-- The run that registers a client, and what it leaves in me.info.
def installing : Execution Ans Stop Bool World :=
  (handleClient base64).exec World.handler
    (World.serving (approval 2100 :: transferring) fun _ => { machine with files := installed }.replies)

def lines : List UInt8 :=
  FileHandler.meInfo base64 (text "name") clientId machine.keys.privateKey

-- transfer.info names another client than me.info, and the file to transfer is missing. The
-- server lets the old client in, and does not register the new one.
def changed : Execution Ans Stop Bool World :=
  let files (path : List UInt8) : Option (List UInt8) :=
    if path = TRANSFER_INFO_PATH then
      some (text "127.0.0.1:8080" ++ [10] ++ text "new" ++ [10] ++ text "file")
    else if path = ME_INFO_PATH then some (text "old")
    else none
  (handleClient base64).exec World.handler
    { World.serving [] fun _ => { machine with files }.replies with
      upcoming := fun clock =>
        let frames := if clock < 4 then approval 2105 :: transferring else [bare 2101]
        Socket.chunked (ResponseFrame.stream frames) (fun _ => 2 ^ 32) fun _ => .moves (2 ^ 64) }

end Sample

theorem meInfo_roundTrip_registered :
    codes Sample.installing.trace = [REGISTRATION, SEND_PUBLIC_KEY, SEND_FILE, CRC_CORRECT] ∧
      (∃ registration reconnect, sent registration ∈ Sample.installing.trace ∧
        sent reconnect ∈ reconnecting Sample.lines ∧ reconnect.code = RECONNECT ∧
        reconnect.sentPayload = registration.sentPayload ∧
        registration.sentPayload.length = NAME_FIELD_SIZE) ∧
      Identifies (FileHandler.meInfoOf Sample.lines) (text "name") Sample.clientId (text "private") := by
  have hruns := Prog.exec_runs World.handler (handleClient Sample.base64)
    (World.serving (Sample.approval 2100 :: Sample.transferring) fun _ =>
      { Sample.machine with files := Sample.installed }.replies)
  have hcodes : codes Sample.installing.trace =
      [REGISTRATION, SEND_PUBLIC_KEY, SEND_FILE, CRC_CORRECT] := by
    decide +kernel
  have hwrites : ∀ event ∈ Sample.installing.trace, getsThrough event = true := by decide +kernel
  have hsteady : ¬Renames Sample.installing.trace := by decide +kernel
  have hagrees : MeInfoAgrees Sample.base64 Sample.installing.trace :=
    (meInfo_roundTrip_iff Sample.base64 Sample.base64_encoder _ _ hruns hwrites).mpr
      fun hrenames => absurd hrenames hsteady
  refine ⟨hcodes, ?_, ?_⟩
  · obtain ⟨registration, hsent, hcode⟩ :=
      (mem_codes REGISTRATION Sample.installing.trace).mp (by simp [hcodes])
    have hleft : Sample.installed.after Sample.installing.trace ME_INFO_PATH =
        some Sample.lines := by decide +kernel
    have hinfo : Sample.installed.after Sample.installing.trace TRANSFER_INFO_PATH =
        some (text "127.0.0.1:8080" ++ [10] ++ text "name" ++ [10] ++ text "file") := by decide +kernel
    have hnext := runsOn_reconnecting Sample.base64 _ Sample.lines hleft hinfo
    obtain ⟨reconnect, hsent', hcode'⟩ :=
      (mem_codes RECONNECT (reconnecting Sample.lines)).mp (by decide +kernel)
    have hcarried := hagrees.carried (by decide +kernel) _ _ _ rfl hnext registration hsent hcode reconnect
      hsent' hcode'
    exact ⟨registration, reconnect, hsent, hsent', hcode', hcarried⟩
  · have hsaving : (FileHandler.saveMeInfo Sample.base64 (text "name") Sample.clientId
          (text "private")).Runs
        [⟨.ofstream ME_INFO_PATH, true⟩, ⟨.put ME_INFO_PATH Sample.lines, Sample.lines.length⟩]
        (.ok ()) := by
      rw [FileHandler.saveMeInfo_eq, FileHandler.runs_writeToFile]
      exact .inl ⟨_, rfl, rfl⟩
    have hreading : FileHandler.readMeInfo.Runs [⟨.ifstream ME_INFO_PATH, some Sample.lines⟩]
        (.ok (FileHandler.meInfoOf Sample.lines)) :=
      ⟨some _, [], rfl, rfl, rfl⟩
    have hthrough : ∀ event ∈ ([⟨.ofstream ME_INFO_PATH, true⟩,
        ⟨.put ME_INFO_PATH Sample.lines, Sample.lines.length⟩] : Trace), getsThrough event = true := by
      simp [getsThrough]
    obtain ⟨info, hinfo, hidentifies⟩ := hagrees.readBack (text "name") Sample.clientId (text "private")
      (by decide) _ hsaving hthrough (fun _ => none) _ _ hreading (by
        intro file hfile
        have hfile' : file = some Sample.lines := by simpa using hfile
        rw [hfile', FileHandler.saveMeInfo_stored _ _ _ _ hsaving hthrough]
        rfl)
    cases hinfo
    exact hidentifies

-- The run registers the new client, and leaves the old one in me.info.
theorem meInfo_of_another_name :
    (handleClient Sample.base64).Runs Sample.changed.trace Sample.changed.outcome ∧
      (∀ event ∈ Sample.changed.trace, getsThrough event = true) ∧
      codes Sample.changed.trace = [RECONNECT, SEND_PUBLIC_KEY, REGISTRATION] ∧
      ¬MeInfoAgrees Sample.base64 Sample.changed.trace := by
  have hruns : (handleClient Sample.base64).Runs Sample.changed.trace Sample.changed.outcome :=
    Prog.exec_runs World.handler (handleClient Sample.base64) _
  have hwrites : ∀ event ∈ Sample.changed.trace, getsThrough event = true := by decide +kernel
  have hrenames : Renames Sample.changed.trace := by decide +kernel
  refine ⟨hruns, hwrites, by decide +kernel, fun hagrees => ?_⟩
  have hone := (carriesName_iff hruns hwrites).mp hagrees.carried hrenames
  have hnames := hone (text "127.0.0.1:8080" ++ [10] ++ text "new" ++ [10] ++ text "file")
    ⟨text "127.0.0.1", 8080, text "new", text "file"⟩ (text "old") (Sample.changed.trace.drop 2)
    (by decide +kernel) rfl
  exact absurd hnames (by decide +kernel)

end TransferClient
