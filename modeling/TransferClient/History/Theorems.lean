import TransferClient.History

namespace TransferClient

open Interaction Bytes Client ProtocolHandler ServerRequests ServerResponses

theorem lineFeed_notMem_getline (stream : List UInt8) : 10 ∉ (getline stream).1 := by
  intro hmem
  have hne := List.mem_takeWhile_imp hmem
  exact absurd hne (by decide)

theorem transferInfoOf_name {contents : List UInt8} {info : TransferInfo}
    (hinfo : FileHandler.transferInfoOf contents = .ok info) : 10 ∉ info.name := by
  have hname : info.name = (getline (getline contents).2).1 := by
    simp only [FileHandler.transferInfoOf, FileHandler.splitAddress] at hinfo
    split at hinfo
    · cases hinfo
    · split at hinfo
      · cases hsplit : stoi _ with
        | error exception =>
            rw [hsplit] at hinfo
            cases hinfo
        | ok port =>
            rw [hsplit] at hinfo
            cases hinfo
            rfl
      · cases hinfo
  rw [hname]
  exact lineFeed_notMem_getline _

-- Events that neither empty me.info nor put anything into it.
def Quiet (trace : Trace) : Prop :=
  ∀ event ∈ trace, event ≠ emptied ∧ ∀ content, event.op ≠ .put ME_INFO_PATH content

-- The files that a run reads first.
def ReadsOnly (before : Trace) : Prop :=
  ∀ event ∈ before, ∃ path file, event = ⟨.ifstream path, file⟩

theorem ReadsOnly.quiet {before : Trace} (hreads : ReadsOnly before) : Quiet before := by
  intro event hevent
  obtain ⟨path, file, rfl⟩ := hreads event hevent
  exact ⟨by simp [emptied], by simp⟩

theorem quiet_asked (self : ProtocolHandler) (requestCode : UInt16) (buffer : ClientId)
    (answer : Response) :
    Quiet (self.asked requestCode buffer answer) := by
  simp [Quiet, emptied, asked]

-- Once the keys are exchanged, me.info is left alone.
theorem quiet_sending {crypto : CryptoPP} {self : ProtocolHandler}
    {encrypted_aes_key privateKey : List UInt8}
    {clientId : ClientId} {trace : Trace} {outcome : Except Stop Bool}
    (hsending : FileSending crypto self encrypted_aes_key privateKey clientId trace outcome) :
    Quiet trace := by
  intro event hevent
  have hop := hsending.ops event hevent
  refine ⟨?_, fun content hput => ?_⟩
  · rintro rfl
    exact hop
  · rw [hput] at hop
    exact hop

section Recording

variable {crypto : CryptoPP} {first : Trace}

-- The next part of a run keeps the rules for me.info, and does not leave it empty.
def KeepsRecord (crypto : CryptoPP) (first trace : Trace) : Prop :=
  AtEach (fun past => Recorded crypto (first ++ past)) trace ∧
  (first ++ trace).getLast? ≠ some emptied

theorem KeepsRecord.append {middle last : Trace} (hmiddle : KeepsRecord crypto first middle)
    (hlast : KeepsRecord crypto (first ++ middle) last) :
    KeepsRecord crypto first (middle ++ last) := by
  obtain ⟨hrecorded, _⟩ := hmiddle
  obtain ⟨hrecorded', hend⟩ := hlast
  rw [List.append_assoc] at hend
  exact ⟨hrecorded.append (hrecorded'.mono fun past event h => by rwa [List.append_assoc] at h),
    hend⟩

theorem KeepsRecord.of_quiet {trace : Trace} (hfirst : first.getLast? ≠ some emptied)
    (hquiet : Quiet trace) :
    KeepsRecord crypto first trace := by
  have hend (part : Trace) (hpart : part ⊆ trace) : (first ++ part).getLast? ≠ some emptied := by
    intro hlast
    rw [List.getLast?_append] at hlast
    cases hl : part.getLast? with
    | none =>
        rw [hl, Option.none_or] at hlast
        exact hfirst hlast
    | some event =>
        rw [hl, Option.some_or, Option.some.injEq] at hlast
        exact (hquiet event (hpart (List.mem_of_getLast? hl))).1 hlast
  refine ⟨?_, hend trace (List.Subset.refl trace)⟩
  intro past event future hsplit
  refine ⟨?_, ?_⟩
  · intro content hput
    exact absurd hput ((hquiet event (by simp [hsplit])).2 content)
  · intro hlast
    exact absurd hlast (hend past (by simp [hsplit]))

theorem LetIn.append_right {name : List UInt8} {clientId : ClientId}
    (hletIn : LetIn first name clientId) (last : Trace) : LetIn (first ++ last) name clientId := by
  obtain ⟨past, future, request, answer, rfl, hpayload, happroves, hid⟩ := hletIn
  exact ⟨past, future ++ last, request, answer, by simp, hpayload, happroves, hid⟩

-- The file is filled by the event that stands directly behind the one that empties it.
theorem KeepsRecord.entry {name : List UInt8} {clientId : ClientId} {keys : KeyPair}
    (hname : 10 ∉ name)
    (hletIn : LetIn first name clientId) (hkeys : ⟨.generateKeyPair, some keys⟩ ∈ first)
    (hfirst : first.getLast? ≠ some emptied) (infoCount : Nat) :
    KeepsRecord crypto first
      [emptied, ⟨.put ME_INFO_PATH (FileHandler.meInfo crypto name clientId keys.privateKey), infoCount⟩] := by
  have hput : AtEach (fun past => Recorded crypto (first ++ ([emptied] ++ past)))
      [⟨.put ME_INFO_PATH (FileHandler.meInfo crypto name clientId keys.privateKey), infoCount⟩] := by
    apply AtEach.singleton
    refine ⟨?_, fun _ => ⟨_, rfl⟩⟩
    rintro content ⟨⟩
    refine ⟨by simp, name, clientId, keys, rfl, hname, hletIn.append_right _, ?_⟩
    exact List.mem_append_left _ hkeys
  have hopen : Recorded crypto (first ++ []) emptied := by
    rw [List.append_nil]
    refine ⟨?_, fun hlast => absurd hlast hfirst⟩
    intro content hput
    cases hput
  exact ⟨hput.cons hopen, by simp [emptied]⟩

end Recording

namespace ProtocolHandler

variable {crypto : CryptoPP} {self : ProtocolHandler} {first trace : Trace}

theorem Keying.keepsRecord {clientId : ClientId} {result : Except Stop (Response × List UInt8)}
    (hkeying : Keying crypto self clientId trace result) (hname : 10 ∉ self.clientName)
    (hletIn : LetIn first self.clientName clientId) (hfirst : first.getLast? ≠ some emptied) :
    KeepsRecord crypto first trace := by
  have hpaths := paths_ne
  cases hkeying with
  | noKeys => exact .of_quiet hfirst (by simp [Quiet, emptied])
  | noKeyFile keys buffer => exact .of_quiet hfirst (by simp [Quiet, emptied, keysMade])
  | noMeInfo keys buffer => exact .of_quiet hfirst (by simp [Quiet, emptied, keysMade, hpaths])
  | offered keys buffer answer keyCount infoCount =>
      have hkeys : KeepsRecord crypto first (keysMade keys buffer ++
          [⟨.ofstream PRIVATE_KEY_PATH, true⟩, ⟨.put PRIVATE_KEY_PATH keys.privateKey, keyCount⟩]) :=
        .of_quiet hfirst (by simp [Quiet, emptied, keysMade, hpaths])
      have hmade : (⟨.generateKeyPair, some keys⟩ : Event Ans) ∈ first ++ (keysMade keys buffer ++
          [⟨.ofstream PRIVATE_KEY_PATH, true⟩, ⟨.put PRIVATE_KEY_PATH keys.privateKey, keyCount⟩]) :=
        List.mem_append_right first (by simp [keysMade])
      have hentry : KeepsRecord crypto _ [emptied,
          ⟨.put ME_INFO_PATH (FileHandler.meInfo crypto self.clientName clientId keys.privateKey), infoCount⟩] :=
        .entry hname (hletIn.append_right _) hmade hkeys.2 infoCount
      have hoffer : KeepsRecord crypto _
          [sent (self.pubkeyRequest clientId keys.publicKey buffer), got answer] :=
        .of_quiet hentry.2 (by simp [Quiet, emptied])
      have hwhole := hkeys.append (hentry.append hoffer)
      rwa [List.append_assoc] at hwhole

theorem Approved.keepsRecord {clientId : ClientId} {outcome : Except Stop Bool}
    (happroved : Approved crypto self clientId trace outcome) (hname : 10 ∉ self.clientName)
    (hletIn : LetIn first self.clientName clientId) (hfirst : first.getLast? ≠ some emptied) :
    KeepsRecord crypto first trace := by
  cases happroved with
  | unkeyed trace stop hkeying => exact hkeying.keepsRecord hname hletIn hfirst
  | refused trace answer privateKey hkeying hcode => exact hkeying.keepsRecord hname hletIn hfirst
  | short trace answer privateKey hkeying hcode hlength =>
      exact hkeying.keepsRecord hname hletIn hfirst
  | keyed trace answer privateKey rest outcome hkeying hcode hlength hsending =>
      have hkeyed := hkeying.keepsRecord hname hletIn hfirst
      exact hkeyed.append (.of_quiet hkeyed.2 (quiet_sending hsending))

theorem asked_keepsRecord (requestCode : UInt16) (buffer : ClientId) (answer : Response)
    (hfirst : first.getLast? ≠ some emptied) :
    KeepsRecord crypto first (self.asked requestCode buffer answer) :=
  .of_quiet hfirst (quiet_asked self requestCode buffer answer)

theorem letIn_asked {requestCode : UInt16} {buffer : ClientId} {answer : Response} (first : Trace)
    (happroves : Approves (self.connectionRequest requestCode, answer)) :
    LetIn (first ++ self.asked requestCode buffer answer) self.clientName
      (storeClientId buffer answer.payload) :=
  ⟨first ++ [⟨.newArray 16, buffer⟩], [], self.connectionRequest requestCode, answer, by simp [asked],
    self.connectionRequest_payload requestCode, happroves, storeClientId_given buffer answer.payload⟩

theorem Registration.keepsRecord {outcome : Except Stop Bool}
    (hregistration : Registration crypto self trace outcome) (hname : 10 ∉ self.clientName)
    (hfirst : first.getLast? ≠ some emptied) : KeepsRecord crypto first trace := by
  cases hregistration with
  | refused buffer answer hcode => exact asked_keepsRecord _ buffer answer hfirst
  | approved buffer answer rest outcome hcode happroved =>
      have hasked : KeepsRecord crypto first (self.asked REGISTRATION buffer answer) :=
        asked_keepsRecord _ buffer answer hfirst
      exact hasked.append (happroved.keepsRecord hname (letIn_asked first (.inl ⟨rfl, hcode⟩)) hasked.2)

theorem Reconnection.keepsRecord {outcome : Except Stop Bool}
    (hreconnection : Reconnection crypto self trace outcome) (hname : 10 ∉ self.clientName)
    (hfirst : first.getLast? ≠ some emptied) : KeepsRecord crypto first trace := by
  have hasked (buffer : ClientId) (answer : Response) :
      KeepsRecord crypto first (self.asked RECONNECT buffer answer) := asked_keepsRecord _ buffer answer hfirst
  cases hreconnection with
  | rejected buffer answer rest outcome hcode hregistration =>
      exact (hasked buffer answer).append (hregistration.keepsRecord hname (hasked buffer answer).2)
  | refused buffer answer hreject happrove => exact hasked buffer answer
  | approved buffer answer rest outcome hcode happroved =>
      exact (hasked buffer answer).append
        (happroved.keepsRecord hname (letIn_asked first (.inr ⟨rfl, hcode⟩)) (hasked buffer answer).2)

end ProtocolHandler

section Client

variable {crypto : CryptoPP} {trace : Trace} {outcome : Except Stop Bool}

theorem connecting_keepsRecord {self : ProtocolHandler} {flow : Client Bool} {first : Trace}
    (hruns : (self.connecting flow).Runs trace outcome) (hfirst : first.getLast? ≠ some emptied)
    (hflow : ∀ first rest outcome, first.getLast? ≠ some emptied → flow.Runs rest outcome →
      KeepsRecord crypto first rest) : KeepsRecord crypto first trace := by
  rw [runs_connecting] at hruns
  rcases hruns with ⟨rfl, _⟩ | ⟨rfl, _⟩ | ⟨rest, rfl, hrest⟩
  · exact .of_quiet hfirst (by simp [Quiet, emptied])
  · exact .of_quiet hfirst (by simp [Quiet, emptied])
  · have hconnected : KeepsRecord crypto first
        [⟨.socket, true⟩, ⟨.connect self.sin_addr self.sin_port, true⟩] :=
      .of_quiet hfirst (by simp [Quiet, emptied])
    exact hconnected.append (hflow _ rest outcome hconnected.2 hrest)

theorem handleClient_keepsRecord (hruns : (handleClient crypto).Runs trace outcome) :
    KeepsRecord crypto [] trace := by
  have hread (events : Trace) (hreads : ReadsOnly events) : KeepsRecord crypto [] events :=
    .of_quiet (by simp) hreads.quiet
  have hregisters (self : ProtocolHandler) (hname : 10 ∉ self.clientName) (first rest : Trace)
      (outcome : Except Stop Bool) (hfirst : first.getLast? ≠ some emptied)
      (hflow : (self.handleRegistration crypto).Runs rest outcome) : KeepsRecord crypto first rest :=
    (self.handleRegistration_registration crypto rest outcome hflow).keepsRecord hname hfirst
  have hreconnects (self : ProtocolHandler) (hname : 10 ∉ self.clientName) (first rest : Trace)
      (outcome : Except Stop Bool) (hfirst : first.getLast? ≠ some emptied)
      (hflow : (self.handleReconnection crypto).Runs rest outcome) : KeepsRecord crypto first rest :=
    (self.handleReconnection_reconnection crypto rest outcome hflow).keepsRecord hname hfirst
  cases handleClient_configured crypto trace outcome hruns with
  | unopened stop => exact hread _ (by simp [ReadsOnly])
  | rejected contents exception hinfo => exact hread _ (by simp [ReadsOnly])
  | unknown contents info rest outcome hinfo hfallback =>
      have hboth := hread [⟨.ifstream TRANSFER_INFO_PATH, some contents⟩, ⟨.ifstream ME_INFO_PATH, none⟩]
        (by simp [ReadsOnly])
      exact hboth.append (connecting_keepsRecord hfallback hboth.2
        (hregisters _ (transferInfoOf_name hinfo)))
  | known contents lines info self rest outcome hinfo hself hknown houtcome =>
      have hboth := hread [⟨.ifstream TRANSFER_INFO_PATH, some contents⟩,
        ⟨.ifstream ME_INFO_PATH, some lines⟩] (by simp [ReadsOnly])
      refine hboth.append (connecting_keepsRecord hknown hboth.2 (hreconnects self ?_))
      rw [hself]
      exact lineFeed_notMem_getline lines
  | failed contents lines info self first rest what outcome hinfo hself hknown hfallback =>
      have hboth := hread [⟨.ifstream TRANSFER_INFO_PATH, some contents⟩,
        ⟨.ifstream ME_INFO_PATH, some lines⟩] (by simp [ReadsOnly])
      have hfirst := hboth.append (connecting_keepsRecord hknown hboth.2 (hreconnects self (by
        rw [hself]
        exact lineFeed_notMem_getline lines)))
      exact hfirst.append (connecting_keepsRecord hfallback hfirst.2
        (hregisters _ (transferInfoOf_name hinfo)))

-- Under which name a request to reconnect goes out.
def GoesBy (name : List UInt8) (event : Event Ans) : Prop :=
  ∀ request, event = sent request → request.code = RECONNECT → request.payload = nameField name

theorem keying_goesBy {self : ProtocolHandler} (name : List UInt8) (clientId : ClientId)
    (event : Event Ans) (hop : KeyingOp crypto self clientId event.op) : GoesBy name event := by
  rintro request rfl hcode
  have hkey : request.code = SEND_PUBLIC_KEY := hop
  rw [hkey] at hcode
  exact absurd hcode (by decide)

theorem transfer_goesBy (name : List UInt8) (event : Event Ans) (hop : TransferOp event.op) :
    GoesBy name event := by
  rintro request rfl hcode
  have hsent : request.code = SEND_FILE ∨ StatusCode request.code := hop
  rcases hsent with hfile | hstatus
  · rw [hfile] at hcode
    exact absurd hcode (by decide)
  · exact absurd hcode hstatus.ne.2.1

-- A registration sends no such request.
theorem register_goesBy (self : ProtocolHandler) (name : List UInt8) (buffer : ClientId)
    (answer : Response) :
    ∀ event ∈ self.asked REGISTRATION buffer answer, GoesBy name event := by
  rintro event hevent request rfl hcode
  have hrequest : request = self.connectionRequest REGISTRATION := by simpa [asked] using hevent
  rw [hrequest] at hcode
  exact absurd hcode (by decide : REGISTRATION ≠ RECONNECT)

theorem reconnect_goesBy (self : ProtocolHandler) (buffer : ClientId) (answer : Response) :
    ∀ event ∈ self.asked RECONNECT buffer answer, GoesBy self.clientName event := by
  rintro event hevent request rfl _
  have hrequest : request = self.connectionRequest RECONNECT := by simpa [asked] using hevent
  rw [hrequest, self.connectionRequest_payload]

theorem registration_goesBy {self : ProtocolHandler} {rest : Trace} {outcome : Except Stop Bool}
    (name : List UInt8) (hruns : (self.handleRegistration crypto).Runs rest outcome) :
    ∀ event ∈ rest, GoesBy name event :=
  (self.handleRegistration_registration crypto rest outcome hruns).forall_mem _
    (register_goesBy self name) (keying_goesBy _) (transfer_goesBy _)

theorem reconnection_goesBy {self : ProtocolHandler} {rest : Trace} {outcome : Except Stop Bool}
    (hruns : (self.handleReconnection crypto).Runs rest outcome) :
    ∀ event ∈ rest, GoesBy self.clientName event :=
  (self.handleReconnection_reconnection crypto rest outcome hruns).forall_mem _
    (register_goesBy self _) (reconnect_goesBy self) (keying_goesBy _) (transfer_goesBy _)

theorem connecting_goesBy {self : ProtocolHandler} {flow : Client Bool} {name : List UInt8}
    (hruns : (self.connecting flow).Runs trace outcome)
    (hflow : ∀ rest outcome, flow.Runs rest outcome → ∀ event ∈ rest, GoesBy name event) :
    ∀ event ∈ trace, GoesBy name event :=
  forall_mem_connecting _ hruns (fun created request hsent => by cases hsent)
    (fun connected request hsent => by cases hsent) hflow

-- Behind the two files that the run reads first, the requests to reconnect go by me.info.
theorem handleClient_reconnects (hruns : (handleClient crypto).Runs trace outcome) :
    AtEach Reconnects trace := by
  have hread (path : List UInt8) (file : Option (List UInt8)) (past : Trace) :
      Reconnects past ⟨.ifstream path, file⟩ := fun request hsent => by cases hsent
  have hquiet (list : Trace) (hlist : ∀ event ∈ list, ∃ path file, event = ⟨.ifstream path, file⟩) :
      AtEach Reconnects list := by
    refine .of_forall fun event hevent past => ?_
    obtain ⟨path, file, rfl⟩ := hlist event hevent
    exact hread path file past
  have hnamed (contents lines : List UInt8) (first rest : Trace)
      (hrest : ∀ event ∈ rest, GoesBy (FileHandler.meInfoOf lines).name event) :
      AtEach (fun past => Reconnects ([⟨.ifstream TRANSFER_INFO_PATH, some contents⟩,
        ⟨.ifstream ME_INFO_PATH, some lines⟩] ++ first ++ past)) rest := by
    refine .of_forall fun event hevent past request hsent hcode => ⟨contents, lines, ?_, ?_⟩
    · rw [List.append_assoc]
      exact List.prefix_append _ _
    · exact hrest event hevent request hsent hcode
  cases handleClient_configured crypto trace outcome hruns with
  | unopened stop => exact hquiet _ (by simp)
  | rejected contents exception hinfo => exact hquiet _ (by simp)
  | unknown contents info rest outcome hinfo hfallback =>
      -- No request to reconnect has any name, and so it has the one that is asked for.
      refine (hquiet _ (by simp)).append
        (.of_forall fun event hevent past request hsent hcode => ?_)
      have hno (name : List UInt8) := connecting_goesBy hfallback
        (fun rest outcome => registration_goesBy name) event hevent request hsent hcode
      have hdiffer := (hno []).symm.trans (hno [65])
      exact absurd hdiffer (by decide)
  | known contents lines info self rest outcome hinfo hself hknown houtcome =>
      refine (hquiet _ (by simp)).append ?_
      have hrest := connecting_goesBy hknown fun rest outcome => reconnection_goesBy
      have hname : self.clientName = (FileHandler.meInfoOf lines).name := by rw [hself]; rfl
      rw [hname] at hrest
      have hbehind := hnamed contents lines [] rest hrest
      rwa [List.append_nil] at hbehind
  | failed contents lines info self first rest what outcome hinfo hself hknown hfallback =>
      have hfirst := connecting_goesBy hknown fun rest outcome => reconnection_goesBy
      have hname : self.clientName = (FileHandler.meInfoOf lines).name := by rw [hself]; rfl
      rw [hname] at hfirst
      have hbehind := hnamed contents lines [] first hfirst
      rw [List.append_nil] at hbehind
      refine ((hquiet _ (by simp)).append hbehind).append (hnamed contents lines first rest ?_)
      exact connecting_goesBy hfallback fun rest outcome => registration_goesBy _

end Client

section Files

variable {crypto : CryptoPP}

theorem Entry.append_right {first : Trace} {content : List UInt8}
    (hentry : Entry crypto first content)
    (last : Trace) : Entry crypto (first ++ last) content := by
  obtain ⟨name, clientId, keys, hcontent, hname, hletIn, hkeys⟩ := hentry
  exact ⟨name, clientId, keys, hcontent, hname, hletIn.append_right last,
    List.mem_append_left _ hkeys⟩

-- Only two events change me.info.
theorem Disk.event_meInfo (disk : Disk) (event : Event Ans) (hemptied : event ≠ emptied)
    (hput : ∀ content, event.op ≠ .put ME_INFO_PATH content) :
    disk.event event ME_INFO_PATH = disk ME_INFO_PATH := by
  obtain ⟨op, answer⟩ := event
  cases op with
  | ofstream path =>
      cases answer with
      | false => rfl
      | true =>
          have hpath : ME_INFO_PATH ≠ path := by
            rintro rfl
            exact hemptied rfl
          exact if_neg hpath
  | put path content =>
      have hpath : ME_INFO_PATH ≠ path := by
        rintro rfl
        exact hput content rfl
      exact if_neg hpath
  | _ => rfl

-- A run leaves me.info as it was, or empty, which is where it is cut off, or with an entry.
inductive MeInfoAfter (crypto : CryptoPP) (disk : Disk) (trace : Trace) (disk' : Disk) : Prop where
  | kept (hlast : trace.getLast? ≠ some emptied) (hkept : disk' ME_INFO_PATH = disk ME_INFO_PATH)
  | empty (hlast : trace.getLast? = some emptied) (hempty : disk' ME_INFO_PATH = some [])
  | filled (hlast : trace.getLast? ≠ some emptied) (content : List UInt8)
      (hcontent : disk' ME_INFO_PATH = some content) (hentry : Entry crypto trace content)

theorem meInfo_after (disk : Disk) (trace : Trace) (hrecorded : AtEach (Recorded crypto) trace)
    (hwrites : ∀ event ∈ trace, getsThrough event = true) :
    MeInfoAfter crypto disk trace (disk.after trace) := by
  have hboth : AtEach (fun past event => Recorded crypto past event ∧ getsThrough event = true) trace :=
    fun past event future hsplit => ⟨hrecorded past event future hsplit, hwrites event (by simp [hsplit])⟩
  refine hboth.foldl_invariant Disk.event disk (MeInfoAfter crypto disk) (.kept (by simp) rfl) ?_
  intro past event state ⟨hevent, hthrough⟩ hinv
  by_cases hemptied : event = emptied
  · subst hemptied
    exact .empty (by simp) (by simp [Disk.event, Disk.set, emptied])
  · have hlast : (past ++ [event]).getLast? ≠ some emptied := by simpa using hemptied
    by_cases hput : ∃ content, event.op = .put ME_INFO_PATH content
    · obtain ⟨content, hop⟩ := hput
      obtain ⟨hpast, hentry⟩ := hevent.entry content hop
      refine .filled hlast content ?_ (hentry.append_right _)
      have hempty : state ME_INFO_PATH = some [] := by
        cases hinv with
        | kept hno => exact absurd hpast hno
        | empty _ hempty => exact hempty
        | filled hno => exact absurd hpast hno
      obtain ⟨op, answer⟩ := event
      subst hop
      have hset : state.event ⟨.put ME_INFO_PATH content, answer⟩ ME_INFO_PATH =
          some ((state ME_INFO_PATH).getD [] ++ content.take answer) := by simp [Disk.event, Disk.set]
      rw [hset, hempty, Option.getD_some, List.nil_append,
        List.take_of_length_le (of_decide_eq_true hthrough)]
    · have hsame := state.event_meInfo event hemptied fun content hop => hput ⟨content, hop⟩
      cases hinv with
      | kept _ hkept => exact .kept hlast (hsame.trans hkept)
      | empty hpast _ => exact absurd (hevent.filled hpast) hput
      | filled _ content hcontent hentry =>
          exact .filled hlast content (hsame.trans hcontent) (hentry.append_right _)

theorem Known.append_right {runs : List Trace} {payload : List UInt8} (hknown : Known runs payload)
    (run : Trace) : Known (runs ++ [run]) payload := by
  rcases hknown with ⟨other, hmem, hregistered⟩ | ⟨hpayload, other, hmem, hcut⟩
  · exact .inl ⟨other, List.mem_append_left _ hmem, hregistered⟩
  · exact .inr ⟨hpayload, other, List.mem_append_left _ hmem, hcut⟩

-- What a request to reconnect goes by in a run on these files.
theorem RunsOn.payload {disk : Disk} {run : Trace} (hruns : RunsOn crypto disk run)
    {past future : Trace}
    {request : Request} (hsplit : run = past ++ sent request :: future)
    (hcode : request.code = RECONNECT) :
    ∃ lines, disk ME_INFO_PATH = some lines ∧
      request.payload = nameField (FileHandler.meInfoOf lines).name := by
  obtain ⟨⟨rest, outcome, hwhole⟩, hreads⟩ := hruns
  have hreconnects := (handleClient_reconnects hwhole).of_append_left
  obtain ⟨configuration, lines, ⟨middle, rfl⟩, hpayload⟩ :=
    hreconnects past (sent request) future hsplit request rfl hcode
  refine ⟨lines, ?_, hpayload⟩
  exact hreads [⟨.ifstream TRANSFER_INFO_PATH, some configuration⟩]
    ⟨.ifstream ME_INFO_PATH, some lines⟩
    (middle ++ sent request :: future) (by rw [hsplit]; rfl)

-- Where the contents of me.info come from, and whom a reconnection goes by.
structure History.Invariant (crypto : CryptoPP) (runs : List Trace) (disk : Disk) : Prop where
  contents : disk ME_INFO_PATH = none ∨ disk ME_INFO_PATH = some [] ∧ CutOff runs ∨
    ∃ run ∈ runs, ∃ content, disk ME_INFO_PATH = some content ∧ Entry crypto run content
  known : ∀ lines, disk ME_INFO_PATH = some lines →
    Known runs (nameField (FileHandler.meInfoOf lines).name)
  reconnects : AtEach (fun earlier run => ∀ request, sent request ∈ run → request.code = RECONNECT →
    Known earlier request.payload) runs

namespace History.Invariant

variable {runs : List Trace} {disk : Disk} {run : Trace}

-- What the invariant says of me.info does not depend on the other files.
theorem of_meInfo {disk' : Disk} (hinv : Invariant crypto runs disk)
    (hkept : disk' ME_INFO_PATH = disk ME_INFO_PATH) : Invariant crypto runs disk' := by
  obtain ⟨hcontents, hknown, hreconnects⟩ := hinv
  rw [← hkept] at hcontents
  exact ⟨hcontents, fun lines hlines => hknown lines (hkept.symm.trans hlines), hreconnects⟩

-- Whom the server has let in, it has registered, now or before.
theorem known_of_letIn (hinv : Invariant crypto runs disk) (hruns : RunsOn crypto disk run)
    {name : List UInt8} {clientId : ClientId} (hletIn : LetIn run name clientId) :
    Known (runs ++ [run]) (nameField name) := by
  obtain ⟨past, future, request, answer, hsplit, hpayload, happroves, _⟩ := hletIn
  rcases happroves with ⟨hcode, hanswer⟩ | ⟨hcode, hanswer⟩
  · exact .inl ⟨run, by simp, past, future, request, answer, hsplit, hcode, hpayload, hanswer⟩
  · obtain ⟨lines, hlines, hsent⟩ := hruns.payload hsplit hcode
    rw [← hpayload, hsent]
    exact (hinv.known lines hlines).append_right run

theorem ran (hinv : Invariant crypto runs disk) (hruns : RunsOn crypto disk run)
    (hwrites : ∀ event ∈ run, getsThrough event = true) : Invariant crypto (runs ++ [run])
    (disk.after run) := by
  have hreconnects : AtEach (fun earlier run => ∀ request, sent request ∈ run → request.code = RECONNECT →
      Known earlier request.payload) (runs ++ [run]) := by
    refine hinv.reconnects.concat fun request hmem hcode => ?_
    obtain ⟨past, future, hsplit⟩ := List.append_of_mem hmem
    obtain ⟨lines, hlines, hsent⟩ := hruns.payload hsplit hcode
    rw [hsent]
    exact hinv.known lines hlines
  obtain ⟨rest, outcome, hwhole⟩ := hruns.runs
  have hrecorded := (handleClient_keepsRecord hwhole).1.of_append_left
  cases meInfo_after disk run hrecorded hwrites with
  | kept _ hkept =>
      refine ⟨?_, fun lines hlines => (hinv.known lines (hkept.symm.trans hlines)).append_right run,
        hreconnects⟩
      rw [hkept]
      rcases hinv.contents with hnone | ⟨hempty, other, hmem, hcut⟩ | ⟨other, hmem, hentry⟩
      · exact .inl hnone
      · exact .inr (.inl ⟨hempty, other, List.mem_append_left _ hmem, hcut⟩)
      · exact .inr (.inr ⟨other, List.mem_append_left _ hmem, hentry⟩)
  | empty hlast hempty =>
      have hcut : CutOff (runs ++ [run]) := ⟨run, by simp, hlast⟩
      refine ⟨.inr (.inl ⟨hempty, hcut⟩), ?_, hreconnects⟩
      intro lines hlines
      rw [hempty, Option.some.injEq] at hlines
      exact .inr ⟨by rw [← hlines]; rfl, hcut⟩
  | filled _ content hcontent hentry =>
      refine ⟨.inr (.inr ⟨run, by simp, content, hcontent, hentry⟩), ?_, hreconnects⟩
      intro lines hlines
      rw [hcontent, Option.some.injEq] at hlines
      obtain ⟨name, clientId, keys, rfl, hname, hletIn, _⟩ := hentry
      rw [← hlines, FileHandler.meInfoOf_meInfo crypto name clientId _ hname]
      exact hinv.known_of_letIn hruns hletIn

end History.Invariant

-- Over all runs on one machine, wherever they are cut off: me.info holds nothing, or what a run
-- has stored of a client that the server had let in, and the client asks to reconnect only
-- under a name that it has registered in an earlier run. The disk takes what is put into
-- an open file.
theorem history_invariant {runs : List Trace} {disk : Disk} (hhistory : History crypto runs disk)
    (hwrites : ∀ run ∈ runs, ∀ event ∈ run, getsThrough event = true) :
    History.Invariant crypto runs disk := by
  induction hhistory with
  | installed disk hnew =>
      refine ⟨.inl hnew, ?_, .nil⟩
      intro lines hlines
      rw [hnew] at hlines
      cases hlines
  | edited runs disk disk' hhistory hkept ih => exact (ih hwrites).of_meInfo hkept
  | ran runs disk run hhistory hruns ih =>
      have hbefore := ih fun other hother => hwrites other (by simp [hother])
      exact hbefore.ran hruns (hwrites run (by simp))

end Files

namespace Sample

-- The files of a machine before the first run, and with what that run has stored.
def installed : Disk := fun path =>
  if path = TRANSFER_INFO_PATH then
    some (text "127.0.0.1:8080" ++ [10] ++ text "name" ++ [10] ++ text "file")
  else if path = text "file" then some []
  else none

def stored : Disk :=
  installed.set ME_INFO_PATH (FileHandler.meInfo crypto (text "name") clientId machine.keys.privateKey)

def runOn (disk : Disk) (frames : List ResponseFrame) : Trace :=
  ((handleClient crypto).exec World.handler
    (World.serving frames fun _ => { machine with files := disk }.replies)).trace

theorem runsOn_runOn (disk : Disk) (frames : List ResponseFrame)
    (hreads : AtEach (fun past event => (disk.after past).Reads event) (runOn disk frames)) :
    RunsOn crypto disk (runOn disk frames) := by
  have hruns := Prog.exec_runs World.handler (handleClient crypto)
    (World.serving frames fun _ => { machine with files := disk }.replies)
  rw [← List.append_nil (Execution.trace _)] at hruns
  exact ⟨⟨[], _, hruns⟩, hreads⟩

end Sample

-- A client registers, and reconnects in the next run.
theorem history_invariant_reconnected :
    ∃ first second disk, codes first = [REGISTRATION, SEND_PUBLIC_KEY, SEND_FILE, CRC_CORRECT] ∧
      codes second = [RECONNECT, SEND_PUBLIC_KEY, SEND_FILE, CRC_CORRECT] ∧
      History.Invariant Sample.crypto [first, second] disk := by
  have hfirst := Sample.runsOn_runOn Sample.installed (Sample.approval 2100 :: Sample.transferring)
    (by decide +kernel)
  have hsecond := Sample.runsOn_runOn Sample.stored (Sample.approval 2105 :: Sample.transferring)
    (by decide +kernel)
  have hhistory := (History.installed Sample.installed rfl).ran _ _ _ hfirst
  have hreconnected := (hhistory.edited _ _ Sample.stored (by decide +kernel)).ran _ _ _ hsecond
  refine ⟨_, _, _, by decide +kernel, by decide +kernel, history_invariant hreconnected ?_⟩
  have hwrites : ∀ run ∈ [Sample.runOn Sample.installed (Sample.approval 2100 :: Sample.transferring),
      Sample.runOn Sample.stored (Sample.approval 2105 :: Sample.transferring)],
      ∀ event ∈ run, getsThrough event = true := by
    decide +kernel
  exact hwrites

end TransferClient
