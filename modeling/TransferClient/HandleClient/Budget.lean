import TransferClient.HandleClient.Sessions

namespace TransferClient

open Interaction Bytes Client ProtocolHandler ServerRequests ServerResponses

-- How many requests of each kind a part of a run may send.
structure Budget where
  registrations : Nat
  reconnections : Nat
  keys : Nat
  files : Nat
  reports : Nat

namespace Budget

def total (budget : Budget) : Nat :=
  budget.registrations + budget.reconnections + budget.keys + budget.files + budget.reports

instance : Add Budget where
  add first second :=
    ⟨first.registrations + second.registrations, first.reconnections + second.reconnections,
      first.keys + second.keys, first.files + second.files, first.reports + second.reports⟩

instance : LE Budget where
  le first second :=
    first.registrations ≤ second.registrations ∧ first.reconnections ≤ second.reconnections ∧
      first.keys ≤ second.keys ∧ first.files ≤ second.files ∧ first.reports ≤ second.reports

variable {registrations reconnections keys files reports : Nat}
  {registrations' reconnections' keys' files' reports' : Nat}

@[simp]
theorem add_mk : (⟨registrations, reconnections, keys, files, reports⟩ : Budget) +
    ⟨registrations', reconnections', keys', files', reports'⟩ =
      ⟨registrations + registrations', reconnections + reconnections', keys + keys', files + files',
        reports + reports'⟩ := rfl

@[simp]
theorem mk_le_mk : (⟨registrations, reconnections, keys, files, reports⟩ : Budget) ≤
    ⟨registrations', reconnections', keys', files', reports'⟩ ↔
      registrations ≤ registrations' ∧ reconnections ≤ reconnections' ∧ keys ≤ keys' ∧
      files ≤ files' ∧
        reports ≤ reports' := Iff.rfl

end Budget

-- The requests of a part of a run keep to the budget, and there are no others.
structure Keeps (budget : Budget) (codes : List UInt16) : Prop where
  registrations : codes.count REGISTRATION ≤ budget.registrations
  reconnections : codes.count RECONNECT ≤ budget.reconnections
  keys : codes.count SEND_PUBLIC_KEY ≤ budget.keys
  files : codes.count SEND_FILE ≤ budget.files
  reports : codes.countP (fun code => decide (StatusCode code)) ≤ budget.reports
  only : ∀ code ∈ codes, code = REGISTRATION ∨ code = RECONNECT ∨ code = SEND_PUBLIC_KEY ∨
    code = SEND_FILE ∨ StatusCode code

namespace Keeps

variable {first second : Budget} {codes rest : List UInt16}

theorem append (hfirst : Keeps first codes) (hsecond : Keeps second rest) :
    Keeps (first + second) (codes ++ rest) := by
  obtain ⟨h₁, h₂, h₃, h₄, h₅, honly⟩ := hfirst
  obtain ⟨h₁', h₂', h₃', h₄', h₅', honly'⟩ := hsecond
  refine ⟨?_, ?_, ?_, ?_, ?_, List.forall_mem_append.mpr ⟨honly, honly'⟩⟩
  · rw [List.count_append]
    exact Nat.add_le_add h₁ h₁'
  · rw [List.count_append]
    exact Nat.add_le_add h₂ h₂'
  · rw [List.count_append]
    exact Nat.add_le_add h₃ h₃'
  · rw [List.count_append]
    exact Nat.add_le_add h₄ h₄'
  · rw [List.countP_append]
    exact Nat.add_le_add h₅ h₅'

theorem mono (hkeeps : Keeps first codes) (hle : first ≤ second) : Keeps second codes := by
  obtain ⟨h₁, h₂, h₃, h₄, h₅, honly⟩ := hkeeps
  obtain ⟨hle₁, hle₂, hle₃, hle₄, hle₅⟩ := hle
  exact ⟨h₁.trans hle₁, h₂.trans hle₂, h₃.trans hle₃, h₄.trans hle₄, h₅.trans hle₅, honly⟩

theorem nil (budget : Budget) : Keeps budget [] := by
  refine ⟨?_, ?_, ?_, ?_, ?_, ?_⟩ <;> simp

-- The kinds are apart, so that the budget bounds all the requests together.
theorem length_le (hkeeps : Keeps first codes) : codes.length ≤ first.total := by
  have hsum : codes.length ≤ codes.count REGISTRATION + codes.count RECONNECT +
      codes.count SEND_PUBLIC_KEY + codes.count SEND_FILE +
      codes.countP (fun code => decide (StatusCode code)) := by
    have honly := hkeeps.only
    clear hkeeps
    induction codes with
    | nil => exact Nat.zero_le _
    | cons code codes ih =>
        have hrest := ih fun other hother => honly other (by simp [hother])
        simp only [List.length_cons, List.count_cons, List.countP_cons]
        rcases honly code (by simp) with rfl | rfl | rfl | rfl | hstatus
        · simp only [beq_self_eq_true, if_true]
          omega
        · simp only [beq_self_eq_true, if_true]
          omega
        · simp only [beq_self_eq_true, if_true]
          omega
        · simp only [beq_self_eq_true, if_true]
          omega
        · simp only [hstatus, decide_true, if_true]
          omega
  obtain ⟨h₁, h₂, h₃, h₄, h₅, _⟩ := hkeeps
  rw [Budget.total]
  omega

theorem report {code : UInt16} (hcode : StatusCode code) : Keeps ⟨0, 0, 0, 0, 1⟩ [code] := by
  have honly := hcode
  rcases hcode with rfl | rfl | rfl
  · exact ⟨by decide, by decide, by decide, by decide, by decide, by simp [honly]⟩
  · exact ⟨by decide, by decide, by decide, by decide, by decide, by simp [honly]⟩
  · exact ⟨by decide, by decide, by decide, by decide, by decide, by simp [honly]⟩

theorem file : Keeps ⟨0, 0, 0, 1, 0⟩ [SEND_FILE] :=
  ⟨by decide, by decide, by decide, by decide, by decide, by simp⟩

theorem key : Keeps ⟨0, 0, 1, 0, 0⟩ [SEND_PUBLIC_KEY] :=
  ⟨by decide, by decide, by decide, by decide, by decide, by simp⟩

-- Without a file and without reports the rest of the budget is enough.
theorem of_quiet {registrations reconnections keys files reports : Nat}
    (hkeeps : Keeps ⟨registrations, reconnections, keys, files, reports⟩ codes)
    (hquiet : ∀ code ∈ codes, ¬(code = SEND_FILE ∨ StatusCode code)) :
    Keeps ⟨registrations, reconnections, keys, 0, 0⟩ codes := by
  obtain ⟨h₁, h₂, h₃, _, _, honly⟩ := hkeeps
  refine ⟨h₁, h₂, h₃, ?_, ?_, honly⟩
  · exact Nat.le_of_eq (List.count_eq_zero.mpr fun hmem => hquiet _ hmem (.inl rfl))
  · refine Nat.le_of_eq (List.countP_eq_zero.mpr fun code hmem hstatus => ?_)
    exact hquiet code hmem (.inr (of_decide_eq_true hstatus))

end Keeps

namespace ProtocolHandler

variable {crypto : CryptoPP} {self : ProtocolHandler} {clientId : ClientId} {trace : Trace}

-- A round sends the file once, with one report at most.
theorem Round.keeps {file : Request} (hfile : file.code = SEND_FILE)
    {result : Except Stop (Option Bool)}
    (hround : Round self file clientId trace result) : Keeps ⟨0, 0, 0, 1, 1⟩ (codes trace) := by
  have hsent (reading : Trace) (hsilent : messages reading = []) (answer : Response) :
      Keeps ⟨0, 0, 0, 1, 0⟩ (codes ([sent file, got answer] ++ reading)) := by
    rw [codes_append, codes_of_messages hsilent, List.append_nil]
    simpa [codes, requests, messages, hfile] using Keeps.file
  cases hround with
  | other answer hcode => exact (hsent [] rfl answer).mono (by simp)
  | short answer hcode hcrc =>
      exact (hsent [] rfl answer).mono (by simp)
  | unread answer received reading stop hcode hcrc hread =>
      exact (hsent [_] rfl answer).mono (by simp)
  | mismatched answer received calculated reading buffer reply hcode hcrc hread hne =>
      rw [codes_append, codes_status]
      exact (hsent [_] rfl answer).append (.report (.inr (.inl rfl)))
  | matched answer received reading buffer reply hcode hcrc hread =>
      rw [codes_append, codes_status]
      exact (hsent [_] rfl answer).append (.report (.inl rfl))

theorem rounds_keep {file : Request} (hfile : file.code = SEND_FILE) (failed : List Trace)
    (hfailed : ∀ round ∈ failed, Round self file clientId round (.ok none)) :
    Keeps ⟨0, 0, 0, failed.length, failed.length⟩ (codes failed.flatten) := by
  induction failed with
  | nil => exact .nil _
  | cons round failed ih =>
      have hround := (hfailed round (by simp)).keeps hfile
      have hrest := ih fun other hother => hfailed other (by simp [hother])
      rw [List.flatten_cons, codes_append]
      have hlength : (round :: failed).length = failed.length + 1 := List.length_cons
      exact (hround.append hrest).mono (by simp; omega)

-- The loop sends the file once for each retry that is left, and reports once more at most.
theorem Retries.keeps {file : Request} (hfile : file.code = SEND_FILE) {maxRetries : Nat}
    {failed : List Trace} {outcome : Except Stop Bool}
    (hretries : Retries self file clientId maxRetries failed trace outcome) :
    Keeps ⟨0, 0, 0, maxRetries, maxRetries + 1⟩ (codes trace) := by
  have hended {last : Trace} {result : Except Stop (Option Bool)}
      (hfailed : ∀ round ∈ failed, Round self file clientId round (.ok none))
      (hlength : failed.length < maxRetries) (hlast : Round self file clientId last result) :
      Keeps ⟨0, 0, 0, maxRetries, maxRetries + 1⟩ (codes (failed.flatten ++ last)) := by
    rw [codes_append]
    exact ((rounds_keep hfile failed hfailed).append (hlast.keeps hfile)).mono (by simp; omega)
  cases hretries with
  | exhausted buffer reply hfailed hlength =>
      rw [codes_append, codes_status]
      exact ((rounds_keep hfile failed hfailed).append (.report (.inr (.inr rfl)))).mono
        (by simp; omega)
  | settled last status hfailed hlength hlast => exact hended hfailed hlength hlast
  | stopped last stop hfailed hlength hlast => exact hended hfailed hlength hlast

theorem FileSending.keeps {encrypted_aes_key privateKey : List UInt8} {outcome : Except Stop Bool}
    (hsending : FileSending crypto self encrypted_aes_key privateKey clientId trace outcome) :
    Keeps ⟨0, 0, 0, 3, 4⟩ (codes trace) := by
  cases hsending with
  | noAesKey => exact .nil _
  | noFile aes_key => exact .nil _
  | wrongKey aes_key contents hlength => exact .nil _
  | noBlock aes_key contents hlength => exact .nil _
  | sending aes_key contents iv buffer payload failed loop outcome hlength hpayload hretries =>
      rw [codes_append]
      exact hretries.keeps rfl

theorem Keying.keeps {result : Except Stop (Response × List UInt8)}
    (hkeying : Keying crypto self clientId trace result) : Keeps ⟨0, 0, 1, 0, 0⟩ (codes trace) := by
  cases hkeying with
  | noKeys => exact .nil _
  | noKeyFile keys buffer => exact .nil _
  | noMeInfo keys buffer => exact .nil _
  | offered keys buffer answer =>
      simpa [codes, requests, messages, keysMade, pubkeyRequest] using Keeps.key

theorem Approved.keeps {outcome : Except Stop Bool}
    (happroved : Approved crypto self clientId trace outcome) :
    Keeps ⟨0, 0, 1, 3, 4⟩ (codes trace) := by
  have hkeyed {first : Trace} {result : Except Stop (Response × List UInt8)}
      (hkeying : Keying crypto self clientId first result) : Keeps ⟨0, 0, 1, 3, 4⟩ (codes first) :=
    hkeying.keeps.mono (by simp)
  cases happroved with
  | unkeyed trace stop hkeying => exact hkeyed hkeying
  | refused trace answer privateKey hkeying hcode => exact hkeyed hkeying
  | short trace answer privateKey hkeying hcode hlength => exact hkeyed hkeying
  | keyed first answer privateKey rest outcome hkeying hcode hlength hsending =>
      rw [codes_append]
      exact hkeying.keeps.append hsending.keeps

theorem Registration.keeps {outcome : Except Stop Bool}
    (hregistration : Registration crypto self trace outcome) :
    Keeps ⟨1, 0, 1, 3, 4⟩ (codes trace) := by
  have hasked : Keeps ⟨1, 0, 0, 0, 0⟩ [REGISTRATION] :=
    ⟨by decide, by decide, by decide, by decide, by decide, by simp⟩
  cases hregistration with
  | refused buffer answer hcode =>
      rw [codes_asked]
      exact hasked.mono (by simp)
  | approved buffer answer rest outcome hcode happroved =>
      rw [codes_append, codes_asked]
      exact hasked.append happroved.keeps

theorem Reconnection.keeps {outcome : Except Stop Bool}
    (hreconnection : Reconnection crypto self trace outcome) :
    Keeps ⟨1, 1, 1, 3, 4⟩ (codes trace) := by
  have hasked : Keeps ⟨0, 1, 0, 0, 0⟩ [RECONNECT] :=
    ⟨by decide, by decide, by decide, by decide, by decide, by simp⟩
  cases hreconnection with
  | rejected buffer answer rest outcome hcode hregistration =>
      rw [codes_append, codes_asked]
      exact hasked.append hregistration.keeps
  | refused buffer answer hreject happrove =>
      rw [codes_asked]
      exact hasked.mono (by simp)
  | approved buffer answer rest outcome hcode happroved =>
      rw [codes_append, codes_asked]
      exact (hasked.append happroved.keeps).mono (by simp)

end ProtocolHandler

theorem Fallback.keeps {crypto : CryptoPP} {trace : Trace} {outcome : Except Stop Bool}
    (hfallback : Fallback crypto trace outcome) : Keeps ⟨1, 0, 1, 3, 4⟩ (codes trace) := by
  cases hfallback with
  | unconnected trace hconnection =>
      rw [codes_of_messages (Connection.silent hconnection).1]
      exact .nil _
  | registered self address port rest outcome hregistration =>
      rw [codes_append]
      exact hregistration.keeps

-- One run sends twelve requests at most: one to reconnect, two to register, two with a key,
-- the file three times and four reports.
theorem handleClient_budget (crypto : CryptoPP) (trace : Trace) (outcome : Except Stop Bool)
    (hruns : (handleClient crypto).Runs trace outcome) :
    Keeps ⟨2, 1, 2, 3, 4⟩ (codes trace) ∧ (codes trace).length ≤ 12 := by
  have hkeeps : Keeps ⟨2, 1, 2, 3, 4⟩ (codes trace) := by
    have hflow := handleClient_flow crypto trace outcome hruns
    cases hflow with
    | unconfigured file stop => exact .nil _
    | unknown file rest outcome hfallback =>
        rw [codes_append]
        exact hfallback.keeps.mono (by simp)
    | unconnected file contents rest hconnection =>
        rw [codes_append, codes_of_messages (Connection.silent hconnection).1]
        exact .nil _
    | reconnected file contents self address port rest outcome hreconnection houtcome =>
        rw [codes_append]
        exact hreconnection.keeps.mono (by simp)
    | failed file contents self address port first rest what outcome hreconnection hfallback =>
        -- The file has not been sent when the client turns to the registration.
        have hfirst := hreconnection.keeps.of_quiet fun code hcode =>
          hreconnection.codes_of_runtimeError hcode
        rw [codes_append, codes_append]
        exact hfirst.append hfallback.keeps
  exact ⟨hkeeps, hkeeps.length_le⟩

namespace Sample

-- The server rejects the reconnection, the file is not there when it is read for the first
-- time, and then the server has another checksum in every round.
def belated : World :=
  let key := approval 2100 :: transferring.take 1
  let round := transferring.drop 1
  let replies := fun time => (known (if 22 ≤ time then some [65] else none)).replies
  let world := World.serving (bare 2106 :: key) replies
  { world with
    upcoming := fun time =>
      if 10 ≤ time then (World.serving (key ++ round ++ round ++ round ++ [bare 2104]) replies).socket
      else world.socket }

end Sample

-- The bound is reached.
theorem handleClient_budget_belated :
    ∃ run, run = (handleClient Sample.crypto).exec World.handler Sample.belated ∧
      (codes run.trace).length = 12 ∧
      Keeps ⟨2, 1, 2, 3, 4⟩ (codes run.trace) ∧ (codes run.trace).length ≤ 12 :=
  ⟨_, rfl, by decide +kernel, handleClient_budget Sample.crypto _ _ (Prog.exec_runs _ _ _)⟩

end TransferClient
