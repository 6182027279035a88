import TransferClient.Interaction.Automaton
import TransferClient.Trace

namespace TransferClient

open Interaction ServerRequests ServerResponses

-- Where a client stands in its session with the server. From the approval on it
-- has an id, and from the first file on it has the request that carries it.
inductive Phase where
  | idle
  | rejected
  | approved (clientId : List UInt8)
  | keyed (clientId : List UInt8)
  | sending (clientId : List UInt8) (file : Request)
  | finished
deriving DecidableEq

namespace Phase

def afterRegistration (answer : Response) : Phase :=
  if answer.code = REGISTRATION_SUCCESS then approved (answer.payload.take 16) else finished

def afterReconnect (answer : Response) : Phase :=
  if answer.code = RECONNECT_REJECTED then rejected
  else if answer.code = APPROVE_RECONNECT_SEND_AES then approved (answer.payload.take 16)
  else finished

def afterPublicKey (clientId : List UInt8) (answer : Response) : Phase :=
  if answer.code = RECEIVED_PUBLIC_KEY_SEND_AES then keyed clientId else finished

-- What the protocol permits a client to ask in each phase, and where the answer
-- takes it.
def step : Phase → Exchange → Option Phase
  | idle, (request, answer) =>
      if request.code = RECONNECT then some (afterReconnect answer)
      else if request.code = REGISTRATION then some (afterRegistration answer)
      else none
  | rejected, (request, answer) =>
      if request.code = REGISTRATION then some (afterRegistration answer) else none
  | approved clientId, (request, answer) =>
      if request.code = SEND_PUBLIC_KEY ∧ request.clientId.val = clientId then
        some (afterPublicKey clientId answer)
      else
        none
  | keyed clientId, (request, _) =>
      if request.code = SEND_FILE ∧ request.clientId.val = clientId then
        some (sending clientId request)
      else
        none
  | sending clientId file, (request, _) =>
      if request = file then some (sending clientId file)
      else if request.clientId.val = clientId ∧ request.code = CRC_INCORRECT_RESEND then
        some (sending clientId file)
      else if request.clientId.val = clientId ∧
          (request.code = CRC_CORRECT ∨ request.code = CRC_INCORRECT_DONE) then
        some finished
      else
        none
  | finished, _ => none

end Phase

-- The session of a client, as the language of an automaton over exchanges.
def session : Automaton Phase Exchange where
  start := .idle
  step := Phase.step

-- What is true of an exchange with regard to those before it.
structure Orderly (past : List Exchange) (next : Exchange) : Prop where
  reconnection : next.1.code = RECONNECT → past = []
  registration : next.1.code = REGISTRATION → past = [] ∨ ∃ previous,
    past.getLast? = some previous ∧ previous.1.code = RECONNECT ∧
      previous.2.code = RECONNECT_REJECTED
  publicKeyOnce : next.1.code = SEND_PUBLIC_KEY →
    ∀ earlier ∈ past, earlier.1.code ≠ SEND_PUBLIC_KEY
  publicKeyApproved : next.1.code = SEND_PUBLIC_KEY →
    ∃ previous, past.getLast? = some previous ∧ Approves previous
  fileKeyed : next.1.code = SEND_FILE → ∃ earlier ∈ past,
    earlier.1.code = SEND_PUBLIC_KEY ∧ earlier.2.code = RECEIVED_PUBLIC_KEY_SEND_AES
  fileIdentical : next.1.code = SEND_FILE →
    ∀ earlier ∈ past, earlier.1.code = SEND_FILE → next.1.frame = earlier.1.frame
  statusAfterFile : StatusCode next.1.code → ∃ earlier ∈ past, earlier.1.code = SEND_FILE
  approvedOnce : Approves next → ∀ earlier ∈ past, ¬Approves earlier
  identity : (next.1.code ≠ REGISTRATION ∧ next.1.code ≠ RECONNECT ∨
      ∃ earlier ∈ past, earlier.1.code = SEND_PUBLIC_KEY) →
    ∃ approval ∈ past, Approves approval ∧ next.1.clientId.val = approval.2.payload.take 16

-- Every exchange of the run is in order.
def Ordered (exchanges : List Exchange) : Prop :=
  ∀ past next future, exchanges = past ++ next :: future → Orderly past next

namespace Phase

-- The id comes from the approval.
def Identified (past : List Exchange) (clientId : List UInt8) : Prop :=
  ∃ approval ∈ past, Approves approval ∧ clientId = approval.2.payload.take 16

def Keyed (past : List Exchange) : Prop :=
  ∃ earlier ∈ past,
    earlier.1.code = SEND_PUBLIC_KEY ∧ earlier.2.code = RECEIVED_PUBLIC_KEY_SEND_AES

-- What has happened when the session is in this phase.
def History (past : List Exchange) : Phase → Prop
  | idle => past = []
  | rejected => ∃ first, past = [first] ∧ first.1.code = RECONNECT ∧
      first.2.code = RECONNECT_REJECTED
  | approved clientId =>
      (∃ previous, past.getLast? = some previous ∧ Approves previous ∧
        clientId = previous.2.payload.take 16) ∧
      ∀ earlier ∈ past, earlier.1.code = REGISTRATION ∨ earlier.1.code = RECONNECT
  | keyed clientId => Identified past clientId ∧ Keyed past ∧
      ∀ earlier ∈ past, earlier.1.code ≠ SEND_FILE
  | sending clientId file => Identified past clientId ∧ Keyed past ∧ file.code = SEND_FILE ∧
      file.clientId.val = clientId ∧ (∃ earlier ∈ past, earlier.1.code = SEND_FILE) ∧
      ∀ earlier ∈ past, earlier.1.code = SEND_FILE → earlier.1 = file
  | finished => True

end Phase

theorem Approves.opening {exchange : Exchange} (happroves : Approves exchange) :
    exchange.1.code = REGISTRATION ∨ exchange.1.code = RECONNECT :=
  happroves.imp And.left And.left

theorem not_opening {code : UInt16}
    (hcode : code = SEND_PUBLIC_KEY ∨ code = SEND_FILE ∨ StatusCode code) :
    ¬(code = REGISTRATION ∨ code = RECONNECT) := by
  rcases hcode with rfl | rfl | hcode
  · decide
  · decide
  · exact fun h => h.elim hcode.ne.1 hcode.ne.2.1

section Kinds

-- Each kind of request has its own conditions; the others are void for it.
variable {past : List Exchange} {next : Exchange}

theorem orderly_opening (hcode : next.1.code = REGISTRATION ∨ next.1.code = RECONNECT)
    (hreconnection : next.1.code = RECONNECT → past = [])
    (hregistration : next.1.code = REGISTRATION → past = [] ∨ ∃ previous,
      past.getLast? = some previous ∧ previous.1.code = RECONNECT ∧
        previous.2.code = RECONNECT_REJECTED)
    (hunkeyed : ∀ earlier ∈ past, earlier.1.code ≠ SEND_PUBLIC_KEY)
    (honce : ∀ earlier ∈ past, ¬Approves earlier) : Orderly past next := by
  have hne : next.1.code ≠ SEND_PUBLIC_KEY ∧ next.1.code ≠ SEND_FILE := by
    rcases hcode with hc | hc
    · rw [hc]
      decide
    · rw [hc]
      decide
  have hstatus : ¬StatusCode next.1.code := fun h => hcode.elim h.ne.1 h.ne.2.1
  have hbehind : ¬(next.1.code ≠ REGISTRATION ∧ next.1.code ≠ RECONNECT ∨
      ∃ earlier ∈ past, earlier.1.code = SEND_PUBLIC_KEY) := by
    rintro (⟨hregister, hreconnect⟩ | ⟨earlier, he, hkey⟩)
    · exact hcode.elim hregister hreconnect
    · exact hunkeyed earlier he hkey
  exact {
    reconnection := hreconnection
    registration := hregistration
    publicKeyOnce := fun h => absurd h hne.1
    publicKeyApproved := fun h => absurd h hne.1
    fileKeyed := fun h => absurd h hne.2
    fileIdentical := fun h => absurd h hne.2
    statusAfterFile := fun h => absurd h hstatus
    approvedOnce := fun _ => honce
    identity := fun h => absurd h hbehind }

theorem orderly_publicKey (hcode : next.1.code = SEND_PUBLIC_KEY)
    (honce : ∀ earlier ∈ past, earlier.1.code ≠ SEND_PUBLIC_KEY) (approval : Exchange)
    (hlast : past.getLast? = some approval) (happroves : Approves approval)
    (hid : next.1.clientId.val = approval.2.payload.take 16) : Orderly past next where
  reconnection h := absurd (hcode.symm.trans h) (by decide)
  registration h := absurd (hcode.symm.trans h) (by decide)
  publicKeyOnce _ := honce
  publicKeyApproved _ := ⟨approval, hlast, happroves⟩
  fileKeyed h := absurd (hcode.symm.trans h) (by decide)
  fileIdentical h := absurd (hcode.symm.trans h) (by decide)
  statusAfterFile h := absurd hcode h.ne.2.2.1
  approvedOnce h := (not_opening (.inl hcode) h.opening).elim
  identity _ := ⟨approval, List.mem_of_getLast? hlast, happroves, hid⟩

theorem orderly_file (hcode : next.1.code = SEND_FILE) (hkeyed : Phase.Keyed past)
    (hsame : ∀ earlier ∈ past, earlier.1.code = SEND_FILE → earlier.1 = next.1)
    (hid : Phase.Identified past next.1.clientId.val) : Orderly past next where
  reconnection h := absurd (hcode.symm.trans h) (by decide)
  registration h := absurd (hcode.symm.trans h) (by decide)
  publicKeyOnce h := absurd (hcode.symm.trans h) (by decide)
  publicKeyApproved h := absurd (hcode.symm.trans h) (by decide)
  fileKeyed _ := hkeyed
  fileIdentical _ earlier he hc := by rw [hsame earlier he hc]
  statusAfterFile h := absurd hcode h.ne.2.2.2
  approvedOnce h := (not_opening (.inr (.inl hcode)) h.opening).elim
  identity _ := hid

theorem orderly_status (hcode : StatusCode next.1.code)
    (hfile : ∃ earlier ∈ past, earlier.1.code = SEND_FILE)
    (hid : Phase.Identified past next.1.clientId.val) : Orderly past next where
  reconnection h := absurd h hcode.ne.2.1
  registration h := absurd h hcode.ne.1
  publicKeyOnce h := absurd h hcode.ne.2.2.1
  publicKeyApproved h := absurd h hcode.ne.2.2.1
  fileKeyed h := absurd h hcode.ne.2.2.2
  fileIdentical h := absurd h hcode.ne.2.2.2
  statusAfterFile _ := hfile
  approvedOnce h := (not_opening (.inr (.inr hcode)) h.opening).elim
  identity _ := hid

end Kinds

namespace Phase

variable {past : List Exchange} {clientId : List UInt8} {next : Exchange}

theorem Identified.append (hid : Identified past clientId) :
    Identified (past ++ [next]) clientId := by
  obtain ⟨approval, hmem, happroves, he⟩ := hid
  exact ⟨approval, List.mem_append_left _ hmem, happroves, he⟩

theorem Keyed.append (hkeyed : Keyed past) : Keyed (past ++ [next]) := by
  obtain ⟨earlier, hmem, hcode⟩ := hkeyed
  exact ⟨earlier, List.mem_append_left _ hmem, hcode⟩

-- After an answer to REGISTRATION the session is approved or over.
theorem history_afterRegistration (hcode : next.1.code = REGISTRATION)
    (hpast : ∀ earlier ∈ past, earlier.1.code = REGISTRATION ∨ earlier.1.code = RECONNECT) :
    History (past ++ [next]) (afterRegistration next.2) := by
  unfold afterRegistration
  by_cases hanswer : next.2.code = REGISTRATION_SUCCESS
  · rw [if_pos hanswer]
    refine ⟨⟨next, List.getLast?_concat, .inl ⟨hcode, hanswer⟩, rfl⟩, ?_⟩
    intro earlier he
    rcases List.mem_append.mp he with he | he
    · exact hpast earlier he
    · rw [List.mem_singleton.mp he]
      exact .inl hcode
  · rw [if_neg hanswer]
    trivial

theorem history_afterReconnect (hcode : next.1.code = RECONNECT) :
    History [next] (afterReconnect next.2) := by
  unfold afterReconnect
  by_cases hreject : next.2.code = RECONNECT_REJECTED
  · rw [if_pos hreject]
    exact ⟨next, rfl, hcode, hreject⟩
  · rw [if_neg hreject]
    by_cases happrove : next.2.code = APPROVE_RECONNECT_SEND_AES
    · rw [if_pos happrove]
      refine ⟨⟨next, rfl, .inr ⟨hcode, happrove⟩, rfl⟩, ?_⟩
      intro earlier he
      rw [List.mem_singleton.mp he]
      exact .inr hcode
    · rw [if_neg happrove]
      trivial

-- The requests before the key exchange ask for something else.
theorem opening_ne (hpast : ∀ earlier ∈ past, earlier.1.code = REGISTRATION ∨ earlier.1.code = RECONNECT) :
    ∀ earlier ∈ past, earlier.1.code ≠ SEND_PUBLIC_KEY ∧ earlier.1.code ≠ SEND_FILE := by
  intro earlier he
  rcases hpast earlier he with hc | hc
  · rw [hc]
    decide
  · rw [hc]
    decide

theorem history_afterPublicKey (hcode : next.1.code = SEND_PUBLIC_KEY)
    (hid : Identified past clientId)
    (hpast : ∀ earlier ∈ past, earlier.1.code = REGISTRATION ∨ earlier.1.code = RECONNECT) :
    History (past ++ [next]) (afterPublicKey clientId next.2) := by
  unfold afterPublicKey
  by_cases hanswer : next.2.code = RECEIVED_PUBLIC_KEY_SEND_AES
  · rw [if_pos hanswer]
    refine ⟨hid.append, ⟨next, by simp, hcode, hanswer⟩, ?_⟩
    intro earlier he
    rcases List.mem_append.mp he with he | he
    · exact (opening_ne hpast earlier he).2
    · rw [List.mem_singleton.mp he, hcode]
      decide
  · rw [if_neg hanswer]
    trivial

-- The first file becomes the file of the session.
theorem history_firstFile (hcode : next.1.code = SEND_FILE)
    (hid : Identified past next.1.clientId.val)
    (hkeyed : Keyed past)
    (hsame : ∀ earlier ∈ past, earlier.1.code = SEND_FILE → earlier.1 = next.1) :
    History (past ++ [next]) (sending next.1.clientId.val next.1) := by
  refine ⟨hid.append, hkeyed.append, hcode, rfl, ⟨next, by simp, hcode⟩, ?_⟩
  intro earlier he hfile
  rcases List.mem_append.mp he with he | he
  · exact hsame earlier he hfile
  · rw [List.mem_singleton.mp he]

-- Other requests leave the file as it is.
theorem history_report {file : Request} (hne : next.1.code ≠ SEND_FILE)
    (hhistory : History past (sending clientId file)) :
    History (past ++ [next]) (sending clientId file) := by
  obtain ⟨hid, hkeyed, hfile, hfileId, ⟨earlier, he, hcode⟩, hsame⟩ := hhistory
  have hsent : ∃ earlier ∈ past ++ [next], earlier.1.code = SEND_FILE :=
    ⟨earlier, List.mem_append_left _ he, hcode⟩
  refine ⟨hid.append, hkeyed.append, hfile, hfileId, hsent, ?_⟩
  intro other ho hcode
  rcases List.mem_append.mp ho with ho | ho
  · exact hsame other ho hcode
  · rw [List.mem_singleton.mp ho] at hcode
    exact absurd hcode hne

variable {final : Phase}

theorem step_idle (hstep : step idle next = some final) :
    Orderly [] next ∧ History [next] final := by
  obtain ⟨request, answer⟩ := next
  simp only [step] at hstep
  by_cases hreconnect : request.code = RECONNECT
  · rw [if_pos hreconnect] at hstep
    cases hstep
    exact ⟨orderly_opening (.inr hreconnect) (fun _ => rfl) (fun _ => .inl rfl) (by simp) (by simp),
      history_afterReconnect hreconnect⟩
  · rw [if_neg hreconnect] at hstep
    by_cases hregister : request.code = REGISTRATION
    · rw [if_pos hregister] at hstep
      cases hstep
      have hhistory : History ([] ++ [(request, answer)]) (afterRegistration answer) :=
        history_afterRegistration hregister (by simp)
      exact ⟨orderly_opening (.inl hregister) (fun _ => rfl) (fun _ => .inl rfl) (by simp) (by simp), hhistory⟩
    · rw [if_neg hregister] at hstep
      cases hstep

theorem step_rejected {first : Exchange} (hfirst : first.1.code = RECONNECT)
    (hreject : first.2.code = RECONNECT_REJECTED) (hstep : step rejected next = some final) :
    Orderly [first] next ∧ History ([first] ++ [next]) final := by
  obtain ⟨request, answer⟩ := next
  have hnot : ∀ earlier ∈ [first], ¬Approves earlier := by
    intro earlier he happroves
    rw [List.mem_singleton.mp he] at happroves
    rcases happroves with ⟨hc, _⟩ | ⟨_, hc⟩
    · exact absurd (hfirst.symm.trans hc) (by decide)
    · exact absurd (hreject.symm.trans hc) (by decide)
  have hpast : ∀ earlier ∈ [first], earlier.1.code = REGISTRATION ∨ earlier.1.code = RECONNECT := by
    intro earlier he
    rw [List.mem_singleton.mp he]
    exact .inr hfirst
  simp only [step] at hstep
  by_cases hregister : request.code = REGISTRATION
  · rw [if_pos hregister] at hstep
    cases hstep
    have hfresh (hreconnect : request.code = RECONNECT) : [first] = [] :=
      absurd (hregister.symm.trans hreconnect) (by decide)
    have hunkeyed := fun earlier he => (opening_ne hpast earlier he).1
    exact ⟨orderly_opening (.inl hregister) hfresh (fun _ => .inr ⟨first, rfl, hfirst, hreject⟩) hunkeyed hnot,
      history_afterRegistration hregister hpast⟩
  · rw [if_neg hregister] at hstep
    cases hstep

theorem step_approved (hhistory : History past (approved clientId))
    (hstep : step (approved clientId) next = some final) :
    Orderly past next ∧ History (past ++ [next]) final := by
  obtain ⟨request, answer⟩ := next
  obtain ⟨⟨approval, hlast, happroves, hid⟩, hpast⟩ := hhistory
  have hidentified : Identified past clientId :=
    ⟨approval, List.mem_of_getLast? hlast, happroves, hid⟩
  simp only [step] at hstep
  by_cases hrequest : request.code = SEND_PUBLIC_KEY ∧ request.clientId.val = clientId
  · rw [if_pos hrequest] at hstep
    cases hstep
    have honce := fun earlier he => (opening_ne hpast earlier he).1
    exact ⟨orderly_publicKey hrequest.1 honce approval hlast happroves (hrequest.2.trans hid),
      history_afterPublicKey hrequest.1 hidentified hpast⟩
  · rw [if_neg hrequest] at hstep
    cases hstep

theorem step_keyed (hhistory : History past (keyed clientId))
    (hstep : step (keyed clientId) next = some final) :
    Orderly past next ∧ History (past ++ [next]) final := by
  obtain ⟨request, answer⟩ := next
  obtain ⟨hid, hkeyed, hpast⟩ := hhistory
  simp only [step] at hstep
  by_cases hrequest : request.code = SEND_FILE ∧ request.clientId.val = clientId
  · rw [if_pos hrequest] at hstep
    obtain ⟨hcode, rfl⟩ := hrequest
    cases hstep
    have hsame : ∀ earlier ∈ past, earlier.1.code = SEND_FILE → earlier.1 = request :=
      fun earlier he hc => absurd hc (hpast earlier he)
    exact ⟨orderly_file hcode hkeyed hsame hid, history_firstFile hcode hid hkeyed hsame⟩
  · rw [if_neg hrequest] at hstep
    cases hstep

theorem step_sending {file : Request} (hhistory : History past (sending clientId file))
    (hstep : step (sending clientId file) next = some final) :
    Orderly past next ∧ History (past ++ [next]) final := by
  have hreport (hne : next.1.code ≠ SEND_FILE) :
      History (past ++ [next]) (sending clientId file) := history_report hne hhistory
  obtain ⟨request, answer⟩ := next
  obtain ⟨hid, hkeyed, hfile, hfileId, hsent, hsame⟩ := hhistory
  simp only [step] at hstep
  by_cases hrequest : request = file
  · rw [if_pos hrequest] at hstep
    cases hstep
    subst hrequest
    rw [← hfileId] at hid ⊢
    exact ⟨orderly_file hfile hkeyed hsame hid, history_firstFile hfile hid hkeyed hsame⟩
  · rw [if_neg hrequest] at hstep
    by_cases hresend : request.clientId.val = clientId ∧ request.code = CRC_INCORRECT_RESEND
    · rw [if_pos hresend] at hstep
      cases hstep
      refine ⟨orderly_status (.inr (.inl hresend.2)) hsent (hresend.1.symm ▸ hid), hreport ?_⟩
      rw [hresend.2]
      decide
    · rw [if_neg hresend] at hstep
      by_cases hend : request.clientId.val = clientId ∧
          (request.code = CRC_CORRECT ∨ request.code = CRC_INCORRECT_DONE)
      · rw [if_pos hend] at hstep
        cases hstep
        exact ⟨orderly_status (hend.2.imp_right .inr) hsent (hend.1.symm ▸ hid), trivial⟩
      · rw [if_neg hend] at hstep
        cases hstep

-- One step of the session keeps the history of its phase, and is in order.
theorem step_orderly (past : List Exchange) (phase : Phase) (label : Exchange) (final : Phase)
    (hhistory : History past phase) (hstep : step phase label = some final) :
    Orderly past label ∧ History (past ++ [label]) final := by
  cases phase with
  | idle =>
      cases hhistory
      exact step_idle hstep
  | rejected =>
      obtain ⟨first, rfl, hfirst, hreject⟩ := hhistory
      exact step_rejected hfirst hreject hstep
  | approved clientId => exact step_approved hhistory hstep
  | keyed clientId => exact step_keyed hhistory hstep
  | sending clientId file => exact step_sending hhistory hstep
  | finished => cases hstep

end Phase

-- Every session that the protocol permits is in order.
theorem ordered_of_session (exchanges : List Exchange) (final : Phase)
    (hrun : session.run session.start exchanges = some final) : Ordered exchanges :=
  session.run_along Phase.History Orderly rfl Phase.step_orderly exchanges final hrun

end TransferClient
