import TransferClient.ProtocolHandler.Runs
import TransferClient.World

namespace TransferClient

open Interaction Client ServerRequests ServerResponses

-- One attempt to send the file: the answer to SEND_FILE and, after a 2103, the
-- value that `readCrc` returned.
structure Attempt where
  answer : Response
  calculated : Option UInt32

namespace Attempt

-- Answered by 2103, with the checksum that `readCrc` returned.
def Confirms (attempt : Attempt) : Prop :=
  attempt.answer.code = FILE_RECEIVED_CRC_OK ∧
    ∃ crc, attempt.calculated = some crc ∧ trailingCRC attempt.answer.payload = some crc

instance (attempt : Attempt) : Decidable attempt.Confirms :=
  decidable_of_iff (attempt.answer.code = FILE_RECEIVED_CRC_OK ∧ attempt.calculated.isSome ∧
      trailingCRC attempt.answer.payload = attempt.calculated) (by
    simp only [Confirms, Option.isSome_iff_exists]
    constructor
    · rintro ⟨hcode, ⟨crc, hc⟩, ht⟩
      exact ⟨hcode, crc, hc, ht.trans hc⟩
    · rintro ⟨hcode, crc, hc, ht⟩
      exact ⟨hcode, ⟨crc, hc⟩, ht.trans hc.symm⟩)

-- Answered by 2103, with another checksum than `readCrc` returned.
def Mismatches (attempt : Attempt) : Prop :=
  attempt.answer.code = FILE_RECEIVED_CRC_OK ∧
    ∃ received calculated, trailingCRC attempt.answer.payload = some received ∧
      attempt.calculated = some calculated ∧ received ≠ calculated

instance (attempt : Attempt) : Decidable attempt.Mismatches :=
  decidable_of_iff (attempt.answer.code = FILE_RECEIVED_CRC_OK ∧ attempt.calculated.isSome ∧
      (trailingCRC attempt.answer.payload).isSome ∧
      trailingCRC attempt.answer.payload ≠ attempt.calculated) (by
    simp only [Mismatches, Option.isSome_iff_exists]
    constructor
    · rintro ⟨hcode, ⟨calculated, hc⟩, ⟨received, hr⟩, hne⟩
      exact ⟨hcode, received, calculated, hr, hc, fun h => hne (by rw [hr, hc, h])⟩
    · rintro ⟨hcode, received, calculated, hr, hc, hne⟩
      exact ⟨hcode, ⟨calculated, hc⟩, ⟨received, hr⟩, fun h => hne (by simpa [hr, hc] using h)⟩)

theorem Confirms.not_mismatches {attempt : Attempt} (hconfirms : attempt.Confirms) :
    ¬attempt.Mismatches := by
  obtain ⟨_, crc, hc, ht⟩ := hconfirms
  rintro ⟨_, received, calculated, hreceived, hcalculated, hne⟩
  rw [ht] at hreceived
  rw [hc] at hcalculated
  exact hne ((Option.some.inj hreceived).symm.trans (Option.some.inj hcalculated))

-- No 2103, or one with another checksum.
def Failed (attempt : Attempt) : Prop :=
  attempt.answer.code = FILE_RECEIVED_CRC_OK → attempt.Mismatches

theorem Failed.not_confirms {attempt : Attempt} (hfailed : attempt.Failed) : ¬attempt.Confirms :=
  fun hconfirms => hconfirms.not_mismatches (hfailed hconfirms.1)

theorem not_confirms_of_none {attempt : Attempt} (hnone : attempt.calculated = none) :
    ¬attempt.Confirms := by
  rintro ⟨_, crc, hc, _⟩
  rw [hnone] at hc
  cases hc

theorem not_mismatches_of_none {attempt : Attempt} (hnone : attempt.calculated = none) :
    ¬attempt.Mismatches := by
  rintro ⟨_, received, calculated, _, hc, _⟩
  rw [hnone] at hc
  cases hc

-- The requests of an attempt that does not settle the transfer.
def codes (attempt : Attempt) : List UInt16 :=
  if attempt.answer.code = FILE_RECEIVED_CRC_OK then [SEND_FILE, CRC_INCORRECT_RESEND]
  else [SEND_FILE]

-- What `readCrc` returned, when the next event is its reading.
def calculatedFrom : Trace → Option UInt32
  | ⟨.ifstreamAte _, reading⟩ :: _ => (crcOf reading).toOption
  | _ => none

-- The attempt that starts with this event.
def startsAt : Event Ans → Trace → Option Attempt
  | ⟨.sendRequest request, _⟩, ⟨.getResponse, answer⟩ :: rest =>
      if request.code = SEND_FILE then
        some ⟨answer, if answer.code = FILE_RECEIVED_CRC_OK then calculatedFrom rest else none⟩
      else
        none
  | _, _ => none

end Attempt

def attempts : Trace → List Attempt
  | [] => []
  | event :: rest => (Attempt.startsAt event rest).toList ++ attempts rest

-- The index of the first attempt that confirms the file.
def firstConfirmed (tries : List Attempt) : Option Nat :=
  tries.findIdx? fun attempt => decide attempt.Confirms

theorem firstConfirmed_none (tries : List Attempt) (hfailed : ∀ attempt ∈ tries, attempt.Failed) :
    firstConfirmed tries = none := by
  have hno : ∀ attempt ∈ tries, ¬attempt.Confirms :=
    fun attempt ha => (hfailed attempt ha).not_confirms
  simpa [firstConfirmed] using hno

theorem firstConfirmed_last (tries : List Attempt) (last : Attempt)
    (hfailed : ∀ attempt ∈ tries, attempt.Failed) (hlast : last.Confirms) :
    firstConfirmed (tries ++ [last]) = some tries.length := by
  have hnone : tries.findIdx? (fun attempt => decide attempt.Confirms) = none :=
    firstConfirmed_none tries hfailed
  simp [firstConfirmed, List.findIdx?_append, hnone, hlast]

namespace ProtocolHandler

variable (self : ProtocolHandler) (file : Request) (clientId : ClientId)

@[simp] theorem codes_status (code : UInt16) (buffer : Buffer (self.filePath.length + 1))
    (reply : Response) : codes (self.status clientId code buffer reply) = [code] := by
  simp [codes, requests, messages, status, statusRequest]

theorem attempts_status (code : UInt16) (buffer : Buffer (self.filePath.length + 1))
    (reply : Response) (hcode : code ≠ SEND_FILE) (rest : Trace) :
    attempts (self.status clientId code buffer reply ++ rest) = attempts rest := by
  simp [attempts, Attempt.startsAt, status, statusRequest, hcode]

-- A round that goes on is one attempt, which fails.
theorem Round.failed_attempt (hfile : file.code = SEND_FILE) (round : Trace)
    (hround : Round self file clientId round (.ok none)) :
    ∃ attempt : Attempt, attempt.Failed ∧ codes round = attempt.codes ∧
      ∀ rest, attempts (round ++ rest) = attempt :: attempts rest := by
  cases hround with
  | other answer hcode =>
      refine ⟨⟨answer, none⟩, fun h => absurd h hcode, ?_, ?_⟩
      · simp [codes, requests, messages, Attempt.codes, hcode, hfile]
      · intro rest
        simp [attempts, Attempt.startsAt, hfile, hcode]
  | mismatched answer received calculated reading buffer reply hcode hcrc hread hne =>
      refine ⟨⟨answer, some calculated⟩, ?_, ?_, ?_⟩
      · exact fun _ => ⟨hcode, received, calculated, hcrc, rfl, hne⟩
      · rw [codes_append, codes_status]
        simp [codes, requests, messages, Attempt.codes, hcode, hfile]
      · intro rest
        simp [attempts, Attempt.startsAt, Attempt.calculatedFrom, hfile, hcode, hread,
          Except.toOption,
          attempts_status self clientId CRC_INCORRECT_RESEND buffer reply (by decide)]

theorem failed_attempts (hfile : file.code = SEND_FILE) (failed : List Trace)
    (hfailed : ∀ round ∈ failed, Round self file clientId round (.ok none)) :
    ∃ tries : List Attempt, tries.length = failed.length ∧ (∀ attempt ∈ tries, attempt.Failed) ∧
      codes failed.flatten = tries.flatMap Attempt.codes ∧
      ∀ rest, attempts (failed.flatten ++ rest) = tries ++ attempts rest := by
  induction failed with
  | nil => exact ⟨[], by simp [codes, requests, messages]⟩
  | cons round failed ih =>
      obtain ⟨attempt, hattempt, hcodes, hnext⟩ := Round.failed_attempt self file clientId hfile round
        (hfailed round (by simp))
      obtain ⟨tries, hlength, htries, hcodess, hnexts⟩ := ih fun other ho =>
        hfailed other (List.mem_cons_of_mem _ ho)
      refine ⟨attempt :: tries, by simp [hlength], ?_, ?_, ?_⟩
      · simpa using ⟨hattempt, htries⟩
      · simp [hcodes, hcodess]
      · intro rest
        simp [hnext, hnexts]

theorem attempts_file (hfile : file.code = SEND_FILE) (answer : Response) (rest : Trace) :
    attempts (sent file :: got answer :: rest) =
      ⟨answer, if answer.code = FILE_RECEIVED_CRC_OK then Attempt.calculatedFrom rest else none⟩ ::
        attempts rest := by
  simp [attempts, Attempt.startsAt, hfile]

theorem attempts_matched (hfile : file.code = SEND_FILE) (answer : Response) (received : UInt32)
    (reading : Reading) (buffer : Buffer (self.filePath.length + 1)) (reply : Response)
    (hcode : answer.code = FILE_RECEIVED_CRC_OK) (hread : crcOf reading = .ok received) :
    attempts ([sent file, got answer, ⟨.ifstreamAte self.filePath, reading⟩] ++
      self.status clientId CRC_CORRECT buffer reply) = [⟨answer, some received⟩] := by
  have hrest := attempts_status self clientId CRC_CORRECT buffer reply (by decide) []
  simp only [List.append_nil] at hrest
  simp only [List.cons_append, List.nil_append, attempts_file file hfile, hcode, if_true]
  simp [attempts, Attempt.startsAt, Attempt.calculatedFrom, hread, hrest, Except.toOption]

-- A round that leaves the loop is one attempt, which confirms the file.
theorem Round.settling_attempt (hfile : file.code = SEND_FILE) (round : Trace) (status : Bool)
    (hround : Round self file clientId round (.ok (some status))) :
    ∃ attempt : Attempt, attempt.Confirms ∧ attempts round = [attempt] ∧
      codes round = [SEND_FILE, CRC_CORRECT] ∧
      ∃ reply, round.getLast? = some (got reply) ∧ status = (reply.code == CONFIRM_MSG) := by
  cases hround with
  | matched answer received reading buffer reply hcode hcrc hread =>
      refine ⟨⟨answer, some received⟩, ⟨hcode, received, rfl, hcrc⟩, ?_, ?_, reply, ?_, rfl⟩
      · exact attempts_matched self file clientId hfile answer received reading buffer reply hcode
          hread
      · rw [codes_append, codes_status]
        simp [codes, requests, messages, hfile]
      · rfl

-- A round that stops the run is one attempt, in which nothing was compared.
theorem Round.stopping_attempt (hfile : file.code = SEND_FILE) (round : Trace) (stop : Stop)
    (hround : Round self file clientId round (.error stop)) :
    ∃ attempt : Attempt, attempt.calculated = none ∧ attempts round = [attempt] ∧
      codes round = [SEND_FILE] := by
  cases hround with
  | short answer hcode hcrc =>
      refine ⟨⟨answer, none⟩, rfl, ?_, ?_⟩
      · simp [attempts, Attempt.startsAt, Attempt.calculatedFrom, hfile]
      · simp [codes, requests, messages, hfile]
  | unread answer received reading stop hcode hcrc hread =>
      refine ⟨⟨answer, none⟩, rfl, ?_, ?_⟩
      · simp [attempts, Attempt.startsAt, Attempt.calculatedFrom, hfile, hread, Except.toOption]
      · simp [codes, requests, messages, hfile]

-- A run of the loop by its attempts. All of them fail and the end is reported, or
-- the last one confirms the file, or it stops the run.
inductive Tried (maxRetries : Nat) (trace : Trace) : Except Stop Bool → Prop where
  | exhausted (hfailed : ∀ attempt ∈ attempts trace, attempt.Failed)
      (hlength : (attempts trace).length = maxRetries)
      (hcodes : codes trace = (attempts trace).flatMap Attempt.codes ++ [CRC_INCORRECT_DONE]) :
      Tried maxRetries trace (.ok false)
  | confirmed (tries : List Attempt) (final : Attempt) (reply : Response)
      (hattempts : attempts trace = tries ++ [final]) (hfailed : ∀ attempt ∈ tries, attempt.Failed)
      (hlength : tries.length < maxRetries) (hfinal : final.Confirms)
      (hcodes : codes trace = tries.flatMap Attempt.codes ++ [SEND_FILE, CRC_CORRECT])
      (hreply : trace.getLast? = some (got reply)) :
      Tried maxRetries trace (.ok (reply.code == CONFIRM_MSG))
  | stopped (tries : List Attempt) (final : Attempt) (stop : Stop)
      (hattempts : attempts trace = tries ++ [final]) (hfailed : ∀ attempt ∈ tries, attempt.Failed)
      (hlength : tries.length < maxRetries) (hfinal : final.calculated = none)
      (hcodes : codes trace = tries.flatMap Attempt.codes ++ [SEND_FILE]) :
      Tried maxRetries trace (.error stop)

theorem Retries.tried (hfile : file.code = SEND_FILE) {maxRetries : Nat} {failed : List Trace}
    {trace : Trace} {outcome : Except Stop Bool}
    (hretries : Retries self file clientId maxRetries failed trace outcome) :
    Tried maxRetries trace outcome := by
  cases hretries with
  | exhausted buffer reply hfailed hlength =>
      obtain ⟨tries, hl, htries, hcodes, hnext⟩ :=
        self.failed_attempts file clientId hfile failed hfailed
      have hdone := attempts_status self clientId CRC_INCORRECT_DONE buffer reply (by decide) []
      rw [List.append_nil] at hdone
      have hattempts : attempts (failed.flatten ++
          self.status clientId CRC_INCORRECT_DONE buffer reply) = tries := by
        rw [hnext, hdone, attempts, List.append_nil]
      apply Tried.exhausted
      · rwa [hattempts]
      · rw [hattempts]
        omega
      · rw [hattempts, codes_append, codes_status, hcodes]
  | settled last status hfailed hlength hlast =>
      obtain ⟨tries, hl, htries, hcodes, hnext⟩ :=
        self.failed_attempts file clientId hfile failed hfailed
      obtain ⟨final, hfinal, hattempts, hfinalCodes, reply, hreply, rfl⟩ :=
        Round.settling_attempt self file clientId hfile last status hlast
      apply Tried.confirmed tries final reply
      · rw [hnext, hattempts]
      · exact htries
      · omega
      · exact hfinal
      · rw [codes_append, hcodes, hfinalCodes]
      · rw [List.getLast?_append, hreply]
        rfl
  | stopped last stop hfailed hlength hlast =>
      obtain ⟨tries, hl, htries, hcodes, hnext⟩ :=
        self.failed_attempts file clientId hfile failed hfailed
      obtain ⟨final, hfinal, hattempts, hfinalCodes⟩ :=
        Round.stopping_attempt self file clientId hfile last stop hlast
      apply Tried.stopped tries final stop
      · rw [hnext, hattempts]
      · exact htries
      · omega
      · exact hfinal
      · rw [codes_append, hcodes, hfinalCodes]

-- A round in which nothing is left undefined and every reading has a value
-- does not stop.
theorem Round.not_stopped (round : Trace) (stop : Stop)
    (hround : Round self file clientId round (.error stop))
    (hpayload : ∀ response ∈ responses round,
      response.code = FILE_RECEIVED_CRC_OK → 4 ≤ response.payload.length)
    (hreturns : ∀ reading ∈ readings round, (crcOf reading).isOk) : False := by
  cases hround with
  | short answer hcode hcrc =>
      have h4 := hpayload answer (by simp [responses, messages]) hcode
      simp [trailingCRC, h4] at hcrc
  | unread answer received reading stop hcode hcrc hread =>
      have hok := hreturns reading (by simp [readings])
      rw [hread] at hok
      cases hok

theorem Retries.returns {maxRetries : Nat} {failed : List Trace} {trace : Trace}
    {outcome : Except Stop Bool}
    (hretries : Retries self file clientId maxRetries failed trace outcome)
    (hpayload : ∀ response ∈ responses trace,
      response.code = FILE_RECEIVED_CRC_OK → 4 ≤ response.payload.length)
    (hreturns : ∀ reading ∈ readings trace, (crcOf reading).isOk) (stop : Stop) :
    outcome ≠ .error stop := by
  cases hretries with
  | exhausted buffer reply hfailed hlength => simp
  | settled last status hfailed hlength hlast => simp
  | stopped last stop hfailed hlength hlast =>
      refine (Round.not_stopped self file clientId last stop hlast ?_ ?_).elim
      · exact fun response hr => hpayload response (by simp [hr])
      · exact fun reading hr => hreturns reading (by simp [hr])

theorem count_attempt_codes (tries : List Attempt) :
    (tries.flatMap Attempt.codes).count SEND_FILE = tries.length := by
  induction tries with
  | nil => rfl
  | cons attempt tries ih =>
      have hone : attempt.codes.count SEND_FILE = 1 := by
        unfold Attempt.codes
        split <;> decide
      simp only [List.flatMap_cons, List.count_append, hone, ih, List.length_cons]
      omega

-- The attempts that fail do not report the end of the transfer.
theorem attempt_codes_ne (tries : List Attempt) (code : UInt16)
    (hcode : code ∈ tries.flatMap Attempt.codes) :
    code ≠ CRC_CORRECT ∧ code ≠ CRC_INCORRECT_DONE := by
  obtain ⟨attempt, _, hcode⟩ := List.mem_flatMap.mp hcode
  unfold Attempt.codes at hcode
  split at hcode
  · simp only [List.mem_cons, List.not_mem_nil, or_false] at hcode
    rcases hcode with rfl | rfl <;> decide
  · rw [List.mem_singleton.mp hcode]
    decide

-- The loop sends the file until an attempt confirms it or the attempts are used
-- up, and what it sends in between is fixed by the answers.
theorem handleRetrySendFile_exact (hfile : file.code = SEND_FILE) (maxRetries : Int)
    (hmax : 0 ≤ maxRetries) (trace : Trace) (outcome : Except Stop Bool)
    (hruns : (self.handleRetrySendFile file maxRetries clientId).Runs trace outcome)
    (hpayload : ∀ response ∈ responses trace,
      response.code = FILE_RECEIVED_CRC_OK → 4 ≤ response.payload.length)
    (hreturns : ∀ reading ∈ readings trace, (crcOf reading).isOk) :
    (∀ attempt ∈ attempts trace, attempt.answer.code = FILE_RECEIVED_CRC_OK →
      attempt.Confirms ∨ attempt.Mismatches) ∧
    (∀ j, firstConfirmed (attempts trace) = some j →
      j < maxRetries ∧
      codes trace = ((attempts trace).take j).flatMap Attempt.codes ++ [SEND_FILE, CRC_CORRECT] ∧
      (codes trace).count SEND_FILE = j + 1 ∧ CRC_INCORRECT_DONE ∉ codes trace ∧
      ∃ reply, trace.getLast? = some (got reply) ∧ outcome = .ok (reply.code == CONFIRM_MSG)) ∧
    (firstConfirmed (attempts trace) = none →
      (attempts trace).length = maxRetries ∧
      codes trace = (attempts trace).flatMap Attempt.codes ++ [CRC_INCORRECT_DONE] ∧
      (codes trace).count SEND_FILE = maxRetries ∧ CRC_CORRECT ∉ codes trace ∧
      outcome = .ok false) := by
  obtain ⟨failed, hretries⟩ := self.handleRetrySendFile_retries file clientId maxRetries hmax trace
    outcome hruns
  have hstop := Retries.returns self file clientId hretries hpayload hreturns
  cases Retries.tried self file clientId hfile hretries with
  | exhausted hfailed hlength hcodes =>
      have hmaxTries : ((attempts trace).length : Int) = maxRetries := by omega
      rw [firstConfirmed_none _ hfailed]
      refine ⟨fun attempt ha hcode => .inr (hfailed attempt ha hcode), fun j hj => ?_, fun _ => ?_⟩
      · cases hj
      · refine ⟨hmaxTries, hcodes, ?_, ?_, rfl⟩
        · have hdone : [CRC_INCORRECT_DONE].count SEND_FILE = 0 := by decide
          rw [hcodes, List.count_append, count_attempt_codes, hdone]
          exact hmaxTries
        · rw [hcodes, List.mem_append]
          exact fun h => h.elim (fun hmem => (attempt_codes_ne _ _ hmem).1 rfl) (by decide)
  | confirmed tries final reply hattempts hfailed hlength hfinal hcodes hreply =>
      rw [hattempts, firstConfirmed_last tries final hfailed hfinal]
      refine ⟨?_, ?_, fun hnone => ?_⟩
      · intro attempt ha hcode
        rcases List.mem_append.mp ha with ha | ha
        · exact .inr (hfailed attempt ha hcode)
        · rw [List.mem_singleton.mp ha]
          exact .inl hfinal
      · intro j hj
        cases hj
        refine ⟨by omega, by rw [List.take_left, hcodes], ?_, ?_, reply, hreply, rfl⟩
        · have hlast : [SEND_FILE, CRC_CORRECT].count SEND_FILE = 1 := by decide
          rw [hcodes, List.count_append, count_attempt_codes, hlast]
        · rw [hcodes, List.mem_append]
          exact fun h => h.elim (fun hmem => (attempt_codes_ne _ _ hmem).2 rfl) (by decide)
      · cases hnone
  | stopped tries final stop => exact absurd rfl (hstop stop)

-- Two attempts: the first answer has another checksum, the second the right one.
theorem handleRetrySendFile_second_attempt :
    let run := (Sample.client.handleRetrySendFile Sample.file 2 Sample.clientId).exec World.handler
      (Sample.world [Sample.frame 2103 [0, 0, 0, 0], Sample.frame 2104 [],
        Sample.frame 2103 [255, 255, 255, 255], Sample.frame 2104 []])
    codes run.trace = ((attempts run.trace).take 1).flatMap Attempt.codes ++ [SEND_FILE, CRC_CORRECT] ∧
      (codes run.trace).count SEND_FILE = 2 ∧ run.outcome = .ok true := by
  intro run
  obtain ⟨_, hcodes, hcount, _, _⟩ := (Sample.client.handleRetrySendFile_exact Sample.file
    Sample.clientId rfl 2 (by decide) run.trace run.outcome (Prog.exec_runs _ _ _) (by decide)
    (by decide)).2.1 1 (by decide)
  exact ⟨hcodes, hcount, by decide⟩

theorem head_attempt_codes (tries : List Attempt) (tail : List UInt16)
    (h : tries ≠ [] ∨ tail.head? = some SEND_FILE) :
    (tries.flatMap Attempt.codes ++ tail).head? = some SEND_FILE := by
  cases tries with
  | nil => simpa using h
  | cons attempt tries =>
      unfold List.flatMap Attempt.codes
      simp only [List.map_cons, List.flatten_cons]
      split <;> rfl

-- Between the attempts every request to resend is followed by the file. Only the
-- last attempt needs a look at what comes behind it.
theorem resend_followed (tries : List Attempt) (tail : List UInt16)
    (htail : CRC_INCORRECT_RESEND ∉ tail)
    (hlast : tail.head? = some SEND_FILE ∨
      ∀ attempt, tries.getLast? = some attempt → attempt.codes = [SEND_FILE])
    (before after : List UInt16)
    (hcodes : tries.flatMap Attempt.codes ++ tail = before ++ CRC_INCORRECT_RESEND :: after) :
    after.head? = some SEND_FILE := by
  induction tries generalizing before with
  | nil =>
      rw [List.flatMap_nil, List.nil_append] at hcodes
      exact absurd (by simp [hcodes]) htail
  | cons attempt tries ih =>
      have hrest : tail.head? = some SEND_FILE ∨
          ∀ attempt, tries.getLast? = some attempt → attempt.codes = [SEND_FILE] := by
        refine hlast.imp_right fun h other ho => h other ?_
        rw [List.getLast?_cons, ho]
        rfl
      simp only [List.flatMap_cons, List.append_assoc] at hcodes
      by_cases hcode : attempt.answer.code = FILE_RECEIVED_CRC_OK
      · have hresend : attempt.codes = [SEND_FILE, CRC_INCORRECT_RESEND] := if_pos hcode
        rw [hresend] at hcodes
        match before, hcodes with
        | [], h => exact absurd (List.cons.inj h).1 (by decide)
        | [_], h =>
            rw [← (List.cons.inj (List.cons.inj h).2).2]
            apply head_attempt_codes
            by_cases hnil : tries = []
            · subst hnil
              refine .inr (hlast.resolve_right fun h => ?_)
              have hone := h attempt rfl
              rw [hresend] at hone
              cases hone
            · exact .inl hnil
        | _ :: _ :: before, h => exact ih hrest before (List.cons.inj (List.cons.inj h).2).2
      · have honly : attempt.codes = [SEND_FILE] := if_neg hcode
        rw [honly] at hcodes
        match before, hcodes with
        | [], h => exact absurd (List.cons.inj h).1 (by decide)
        | _ :: before, h => exact ih hrest before (List.cons.inj h).2

-- A resend that is announced takes place, and a mismatch on the last permitted
-- attempt is reported as the end alone.
def ResendsHonoured (maxRetries : Nat) (trace : Trace) : Prop :=
  (∀ before after, codes trace = before ++ CRC_INCORRECT_RESEND :: after →
    after.head? = some SEND_FILE) ∧
  ∀ attempt ∈ (attempts trace)[maxRetries - 1]?, attempt.Mismatches →
    ∃ before, codes trace = before ++ [SEND_FILE, CRC_INCORRECT_DONE]

-- A run that an attempt ends early has nothing to resend behind it.
theorem resendsHonoured_of_ended (maxRetries : Nat) (trace : Trace) (tries : List Attempt)
    (final : Attempt) (last : List UInt16) (hattempts : attempts trace = tries ++ [final])
    (hlength : tries.length < maxRetries) (hfinal : ¬final.Mismatches)
    (hcodes : codes trace = tries.flatMap Attempt.codes ++ last)
    (hhead : last.head? = some SEND_FILE) (hno : CRC_INCORRECT_RESEND ∉ last) :
    ResendsHonoured maxRetries trace ∧
      ∀ attempt ∈ (attempts trace)[maxRetries - 1]?, ¬attempt.Mismatches := by
  have hlast : ∀ attempt ∈ (attempts trace)[maxRetries - 1]?, ¬attempt.Mismatches := by
    intro attempt ha
    rw [Option.mem_def, hattempts, List.getElem?_append_right (by omega)] at ha
    rw [List.mem_singleton.mp (List.mem_of_getElem? ha)]
    exact hfinal
  refine ⟨⟨?_, fun attempt ha hmismatch => absurd hmismatch (hlast attempt ha)⟩, hlast⟩
  rw [hcodes]
  exact resend_followed tries last hno (.inl hhead)

-- The code keeps this exactly when the last permitted attempt does not end in a
-- mismatch: there it announces a resend, and then gives up.
theorem resendsHonoured_iff (hfile : file.code = SEND_FILE) (maxRetries : Int)
    (hmax : 0 < maxRetries) (trace : Trace) (outcome : Except Stop Bool)
    (hruns : (self.handleRetrySendFile file maxRetries clientId).Runs trace outcome) :
    ResendsHonoured maxRetries.toNat trace ↔
      ∀ attempt ∈ (attempts trace)[maxRetries.toNat - 1]?, ¬attempt.Mismatches := by
  obtain ⟨failed, hretries⟩ := self.handleRetrySendFile_retries file clientId maxRetries (by omega)
    trace outcome hruns
  cases Retries.tried self file clientId hfile hretries with
  | exhausted hfailed hlength hcodes =>
      have hindex : (attempts trace)[maxRetries.toNat - 1]? = (attempts trace).getLast? := by
        rw [List.getLast?_eq_getElem?, hlength]
      rw [ResendsHonoured, hcodes, hindex]
      constructor
      · rintro ⟨hfollowed, _⟩ attempt hlast hmismatch
        obtain ⟨first, hfirst⟩ := List.getLast?_eq_some_iff.mp hlast
        have hresend : attempt.codes = [SEND_FILE, CRC_INCORRECT_RESEND] := if_pos hmismatch.1
        have hnot := hfollowed (first.flatMap Attempt.codes ++ [SEND_FILE]) [CRC_INCORRECT_DONE]
          (by simp [hfirst, hresend])
        exact absurd hnot (by decide)
      · intro hlast
        have hsingle : ∀ attempt, (attempts trace).getLast? = some attempt →
            attempt.codes = [SEND_FILE] := fun attempt ha =>
          if_neg fun hcode => hlast attempt ha (hfailed attempt (List.mem_of_getLast? ha) hcode)
        refine ⟨resend_followed _ _ (by decide) (.inr hsingle), ?_⟩
        exact fun attempt ha hmismatch => absurd hmismatch (hlast attempt ha)
  | confirmed tries final reply hattempts hfailed hlength hfinal hcodes hreply =>
      obtain ⟨hhonoured, hno⟩ := resendsHonoured_of_ended _ trace tries final _ hattempts hlength
        hfinal.not_mismatches hcodes rfl (by decide)
      exact iff_of_true hhonoured hno
  | stopped tries final stop hattempts hfailed hlength hfinal hcodes =>
      obtain ⟨hhonoured, hno⟩ := resendsHonoured_of_ended _ trace tries final _ hattempts hlength
        (Attempt.not_mismatches_of_none hfinal) hcodes rfl (by decide)
      exact iff_of_true hhonoured hno

-- The only attempt ends in a mismatch: 1030 is followed by 1031.
theorem resend_announced_without_file :
    let run := (Sample.client.handleRetrySendFile Sample.file 1 Sample.clientId).exec World.handler
      (Sample.world [Sample.frame 2103 [0, 0, 0, 0], Sample.frame 2104 [], Sample.frame 2104 []])
    (Sample.client.handleRetrySendFile Sample.file 1 Sample.clientId).Runs run.trace run.outcome ∧
      ¬ResendsHonoured 1 run.trace := by
  intro run
  refine ⟨Prog.exec_runs _ _ _, fun ⟨hfollowed, _⟩ => ?_⟩
  have hcodes : codes run.trace = [SEND_FILE] ++ CRC_INCORRECT_RESEND :: [CRC_INCORRECT_DONE] := by
    decide
  exact absurd (hfollowed _ _ hcodes) (by decide)

-- The same answers with one more attempt to come.
theorem resendsHonoured_second_attempt :
    let run := (Sample.client.handleRetrySendFile Sample.file 2 Sample.clientId).exec World.handler
      (Sample.world [Sample.frame 2103 [0, 0, 0, 0], Sample.frame 2104 [], Sample.frame 2101 [],
        Sample.frame 2104 []])
    ResendsHonoured 2 run.trace := by
  intro run
  exact (Sample.client.resendsHonoured_iff Sample.file Sample.clientId rfl 2 (by decide) run.trace
    run.outcome (Prog.exec_runs _ _ _)).mpr (by decide)

end ProtocolHandler

end TransferClient
