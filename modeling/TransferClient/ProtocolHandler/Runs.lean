import TransferClient.Checksum.Theorems
import TransferClient.ProtocolHandler
import TransferClient.Trace

namespace TransferClient

open Interaction Bytes Client ServerRequests ServerResponses

-- The checksum of a file of less than 2 GiB is defined, and `readCrc` returns it.
theorem crcOf_contents (buffer : List UInt8) (hsmall : buffer.length < 2147483648) :
    ∃ crc : UInt32,
      Checksum.memcrc buffer (BitVec.ofNat 64 buffer.length) = some (BitVec.ofNat 64 crc.toNat) ∧
        crcOf (.contents buffer) = .ok crc := by
  obtain ⟨crcValue, hcrc, hlt⟩ := Checksum.memcrc_defined buffer hsmall
  have hword := word_of_lt crcValue.toNat hlt
  refine ⟨UInt32.ofNat crcValue.toNat, ?_, ?_⟩
  · rw [hcrc, hword, BitVec.ofNat_toNat, BitVec.setWidth_eq]
  · simp only [crcOf, hcrc]

-- The two ways in which a reading has no checksum.
theorem crcOf_error {reading : Reading} {stop : Stop} (hread : crcOf reading = .error stop) :
    stop = .thrown .allocation ∨ stop = .undefined := by
  cases reading with
  | cannotOpen => cases hread
  | noSize => cases hread
  | shortRead => cases hread
  | noMemory =>
      cases hread
      exact .inl rfl
  | contents buffer =>
      simp only [crcOf] at hread
      split at hread
      · cases hread
      · cases hread
        exact .inr rfl

-- `readCrc` has no defined value exactly for the files of 2 GiB and more.
theorem crcOf_undefined_iff (n : BitVec 64) (buffer : Buffer n.toNat) :
    crcOf (.contents buffer.val) = .error .undefined ↔ 2 ^ 31 ≤ n.toNat := by
  have hlength := buffer.property
  constructor
  · intro hundefined
    by_contra hsmall
    obtain ⟨crc, _, hcrc⟩ := crcOf_contents buffer.val (by omega)
    rw [hcrc] at hundefined
    cases hundefined
  · intro hlarge
    have hn : BitVec.ofNat 64 buffer.val.length = n := by
      rw [hlength, BitVec.ofNat_toNat, BitVec.setWidth_eq]
    simp only [crcOf, hn, Checksum.memcrc_overflows buffer.val n (by omega) hlarge]

theorem runs_readCrc (fname : List UInt8) (trace : Trace) (outcome : Except Stop UInt32) :
    (readCrc fname).Runs trace outcome ↔
      ∃ reading : Reading, trace = [⟨.ifstreamAte fname, reading⟩] ∧ outcome = crcOf reading := by
  simp [readCrc]

namespace ProtocolHandler

section Rounds

variable (self : ProtocolHandler) (file : Request) (clientId : ClientId)

-- The events of a status request, with the reply to it.
def status (code : UInt16) (buffer : Buffer (self.filePath.length + 1)) (reply : Response) :
    Trace :=
  [⟨.newArray (self.filePath.length + 1), buffer⟩, sent (self.statusRequest clientId code buffer),
    got reply]

@[simp] theorem statusRequest_code (code : UInt16) (buffer : Buffer (self.filePath.length + 1)) :
    (self.statusRequest clientId code buffer).code = code := rfl

@[simp] theorem statusRequest_clientId (code : UInt16)
    (buffer : Buffer (self.filePath.length + 1)) :
    (self.statusRequest clientId code buffer).clientId = clientId := rfl

theorem runs_sendCRCStatusRequest (code : UInt16) (trace : Trace) (outcome : Except Stop Bool) :
    (self.sendCRCStatusRequest clientId code).Runs trace outcome ↔
      ∃ buffer reply, trace = self.status clientId code buffer reply ∧
        outcome = .ok (reply.code == CONFIRM_MSG) := by
  simp [sendCRCStatusRequest, status]

-- What one round of the retry loop can do, by the answer to the file, the
-- reading of the file and the comparison.
inductive Round : Trace → Except Stop (Option Bool) → Prop where
  | other (answer : Response) (hcode : answer.code ≠ FILE_RECEIVED_CRC_OK) :
      Round [sent file, got answer] (.ok none)
  | short (answer : Response) (hcode : answer.code = FILE_RECEIVED_CRC_OK)
      (hcrc : trailingCRC answer.payload = none) :
      Round [sent file, got answer] (.error .undefined)
  | unread (answer : Response) (received : UInt32) (reading : Reading) (stop : Stop)
      (hcode : answer.code = FILE_RECEIVED_CRC_OK)
      (hcrc : trailingCRC answer.payload = some received) (hread : crcOf reading = .error stop) :
      Round [sent file, got answer, ⟨.ifstreamAte self.filePath, reading⟩] (.error stop)
  | mismatched (answer : Response) (received calculated : UInt32) (reading : Reading)
      (buffer : Buffer (self.filePath.length + 1)) (reply : Response)
      (hcode : answer.code = FILE_RECEIVED_CRC_OK)
      (hcrc : trailingCRC answer.payload = some received) (hread : crcOf reading = .ok calculated)
      (hne : received ≠ calculated) :
      Round ([sent file, got answer, ⟨.ifstreamAte self.filePath, reading⟩] ++
        self.status clientId CRC_INCORRECT_RESEND buffer reply) (.ok none)
  | matched (answer : Response) (received : UInt32) (reading : Reading)
      (buffer : Buffer (self.filePath.length + 1)) (reply : Response)
      (hcode : answer.code = FILE_RECEIVED_CRC_OK)
      (hcrc : trailingCRC answer.payload = some received) (hread : crcOf reading = .ok received) :
      Round ([sent file, got answer, ⟨.ifstreamAte self.filePath, reading⟩] ++
        self.status clientId CRC_CORRECT buffer reply) (.ok (some (reply.code == CONFIRM_MSG)))

theorem attempt_round (trace : Trace) (outcome : Except Stop (Option Bool))
    (hruns : (self.attempt file clientId).Runs trace outcome) :
    Round self file clientId trace outcome := by
  simp only [attempt, runs_sendRequest_bind] at hruns
  obtain ⟨_, rfl, hruns⟩ := hruns
  simp only [Prog.runs_ask_bind] at hruns
  obtain ⟨answer, rest, rfl, hruns⟩ := hruns
  by_cases hcode : answer.code = FILE_RECEIVED_CRC_OK
  · simp only [hcode, if_true] at hruns
    cases hcrc : trailingCRC answer.payload with
    | none =>
        simp only [hcrc, Option.elim_none] at hruns
        obtain ⟨rfl, rfl⟩ := hruns
        exact .short answer hcode hcrc
    | some received =>
        simp only [hcrc, Option.elim_some, Prog.runs_pure_bind] at hruns
        rw [Prog.runs_bind] at hruns
        simp only [runs_readCrc] at hruns
        rcases hruns with ⟨calculated, _, rest, rfl, ⟨reading, rfl, hread⟩, hruns⟩ |
          ⟨stop, rfl, reading, rfl, hread⟩
        · by_cases he : received = calculated
          · rw [if_pos he, Prog.runs_bind] at hruns
            simp only [runs_sendCRCStatusRequest] at hruns
            rcases hruns with ⟨status, _, _, rfl, ⟨buffer, reply, rfl, hs⟩, rfl, rfl⟩ |
              ⟨stop, rfl, buffer, reply, rfl, hs⟩
            · cases hs
              rw [List.append_nil]
              exact .matched answer received reading buffer reply hcode hcrc (he ▸ hread.symm)
            · cases hs
          · rw [if_neg he, Prog.runs_bind] at hruns
            simp only [runs_sendCRCStatusRequest] at hruns
            rcases hruns with ⟨_, _, _, rfl, ⟨buffer, reply, rfl, hs⟩, rfl, rfl⟩ |
              ⟨stop, rfl, buffer, reply, rfl, hs⟩
            · rw [List.append_nil]
              exact .mismatched answer received calculated reading buffer reply hcode hcrc
                hread.symm he
            · cases hs
        · exact .unread answer received reading stop hcode hcrc hread.symm
  · simp only [hcode, if_false] at hruns
    obtain ⟨rfl, rfl⟩ := hruns
    exact .other answer hcode

-- What the loop and the message behind it can do: `failed` are the rounds that
-- go on. The other rounds end the loop.
inductive Retries (maxRetries : Nat) : List Trace → Trace → Except Stop Bool → Prop where
  | exhausted (failed : List Trace) (buffer : Buffer (self.filePath.length + 1)) (reply : Response)
      (hfailed : ∀ round ∈ failed, Round self file clientId round (.ok none))
      (hlength : failed.length = maxRetries) :
      Retries maxRetries failed
        (failed.flatten ++ self.status clientId CRC_INCORRECT_DONE buffer reply) (.ok false)
  | settled (failed : List Trace) (last : Trace) (status : Bool)
      (hfailed : ∀ round ∈ failed, Round self file clientId round (.ok none))
      (hlength : failed.length < maxRetries)
      (hlast : Round self file clientId last (.ok (some status))) :
      Retries maxRetries failed (failed.flatten ++ last) (.ok status)
  | stopped (failed : List Trace) (last : Trace) (stop : Stop)
      (hfailed : ∀ round ∈ failed, Round self file clientId round (.ok none))
      (hlength : failed.length < maxRetries)
      (hlast : Round self file clientId last (.error stop)) :
      Retries maxRetries failed (failed.flatten ++ last) (.error stop)

theorem retryLoop_runs (remaining : Nat) (retry_count : Int) (trace : Trace)
    (outcome : Except Stop (Bool × Int))
    (hruns : (self.retryLoop file clientId remaining retry_count).Runs trace outcome) :
    ∃ (failed : List Trace) (last : Trace), trace = failed.flatten ++ last ∧
      (∀ round ∈ failed, Round self file clientId round (.ok none)) ∧
      ((failed.length = remaining ∧ last = [] ∧ outcome = .ok (false, retry_count + remaining)) ∨
        failed.length < remaining ∧
          ((∃ status, Round self file clientId last (.ok (some status)) ∧
              outcome = .ok (status, retry_count + failed.length)) ∨
            ∃ stop, Round self file clientId last (.error stop) ∧ outcome = .error stop)) := by
  induction remaining generalizing retry_count trace with
  | zero =>
      obtain ⟨rfl, rfl⟩ := hruns
      exact ⟨[], [], rfl, by simp, .inl ⟨rfl, rfl, by simp⟩⟩
  | succ remaining ih =>
      simp only [retryLoop, Prog.runs_bind] at hruns
      rcases hruns with ⟨result, round, rest, rfl, hround, hrest⟩ | ⟨stop, rfl, hround⟩
      · have hround := self.attempt_round file clientId round _ hround
        cases result with
        | some status =>
            obtain ⟨rfl, rfl⟩ := hrest
            exact ⟨[], round, by simp, by simp, .inr ⟨by simp, .inl ⟨status, hround, by simp⟩⟩⟩
        | none =>
            obtain ⟨failed, last, rfl, hfailed, hend⟩ := ih _ _ hrest
            refine ⟨round :: failed, last, by simp, ?_, ?_⟩
            · intro other ho
              rcases List.mem_cons.mp ho with rfl | ho
              · exact hround
              · exact hfailed other ho
            · simp only [List.length_cons, Nat.add_right_cancel_iff, Nat.add_lt_add_iff_right]
              push_cast
              simpa only [add_assoc, add_comm (1 : Int)] using hend
      · have hround := self.attempt_round file clientId trace _ hround
        exact ⟨[], trace, rfl, by simp, .inr ⟨by simp, .inr ⟨stop, hround, rfl⟩⟩⟩

theorem handleRetrySendFile_retries (maxRetries : Int) (hmax : 0 ≤ maxRetries) (trace : Trace)
    (outcome : Except Stop Bool)
    (hruns : (self.handleRetrySendFile file maxRetries clientId).Runs trace outcome) :
    ∃ failed, Retries self file clientId maxRetries.toNat failed trace outcome := by
  simp only [handleRetrySendFile, Prog.runs_bind] at hruns
  rcases hruns with ⟨⟨status, retry_count⟩, first, rest, rfl, hloop, hrest⟩ | ⟨stop, rfl, hloop⟩
  · obtain ⟨failed, last, rfl, hfailed, hend⟩ := self.retryLoop_runs file clientId _ _ _ _ hloop
    rcases hend with ⟨hlength, rfl, he⟩ | ⟨hlength, ⟨_, hlast, he⟩ | ⟨_, _, he⟩⟩
    · cases he
      -- The counter has reached the bound: the loop has not been left by `break`.
      have hdone : (0 : Int) + maxRetries.toNat = maxRetries := by omega
      simp only [hdone, if_true, Prog.runs_bind, runs_sendCRCStatusRequest] at hrest
      rcases hrest with ⟨_, _, _, rfl, ⟨buffer, reply, rfl, _⟩, rfl, rfl⟩ | ⟨_, _, _, _, _, h⟩
      · refine ⟨failed, ?_⟩
        have hrun : Retries self file clientId maxRetries.toNat failed _ _ :=
          .exhausted failed buffer reply hfailed hlength
        simpa using hrun
      · cases h
    · cases he
      have hleft : ¬(0 : Int) + failed.length = maxRetries := by omega
      simp only [hleft, if_false] at hrest
      obtain ⟨rfl, rfl⟩ := hrest
      rw [List.append_nil]
      exact ⟨failed, .settled failed last status hfailed hlength hlast⟩
    · cases he
  · obtain ⟨failed, last, rfl, hfailed, hend⟩ := self.retryLoop_runs file clientId _ _ _ _ hloop
    rcases hend with ⟨_, _, he⟩ | ⟨hlength, ⟨_, _, he⟩ | ⟨_, hlast, he⟩⟩
    · cases he
    · cases he
    · cases he
      exact ⟨failed, .stopped failed last stop hfailed hlength hlast⟩

-- The operations of a transfer: it reads files and keys, and sends the file and
-- the reports on it.
def TransferOp : Op → Prop
  | .sendRequest request => request.code = SEND_FILE ∨ StatusCode request.code
  | .newArray _ | .getResponse | .ifstream _ | .ifstreamAte _ | .rsaDecrypt _ _ | .generateBlock =>
      True
  | .socket | .connect _ _ | .ofstream _ | .put _ _ | .generateKeyPair => False

-- The operations of the loop: it sends the file and the reports on it, and reads the file
-- for its checksum.
def RetryOp : Op → Prop
  | .sendRequest request => request = file ∨
      ∃ code buffer, StatusCode code ∧ request = self.statusRequest clientId code buffer
  | .newArray _ | .getResponse | .ifstreamAte _ => True
  | .socket | .connect _ _ | .ifstream _ | .ofstream _ | .put _ _ | .generateKeyPair | .rsaDecrypt _ _ |
      .generateBlock => False

theorem status_ops (code : UInt16) (hcode : StatusCode code)
    (buffer : Buffer (self.filePath.length + 1)) (reply : Response) :
    ∀ event ∈ self.status clientId code buffer reply, RetryOp self file clientId event.op := by
  have hreport : RetryOp self file clientId (.sendRequest (self.statusRequest clientId code buffer)) :=
    .inr ⟨code, buffer, hcode, rfl⟩
  simp only [status, List.forall_mem_cons]
  exact ⟨trivial, hreport, trivial, by simp⟩

variable {self file clientId}

theorem Round.ops {round : Trace} {outcome : Except Stop (Option Bool)}
    (hround : Round self file clientId round outcome) :
    ∀ event ∈ round, RetryOp self file clientId event.op := by
  cases hround with
  | other answer hcode => simp [RetryOp]
  | short answer hcode hcrc => simp [RetryOp]
  | unread answer received reading stop hcode hcrc hread => simp [RetryOp]
  | mismatched answer received calculated reading buffer reply hcode hcrc hread hne =>
      have hstatus :=
        self.status_ops file clientId CRC_INCORRECT_RESEND (.inr (.inl rfl)) buffer reply
      exact List.forall_mem_append.mpr ⟨by simp [RetryOp], hstatus⟩
  | matched answer received reading buffer reply hcode hcrc hread =>
      have hstatus := self.status_ops file clientId CRC_CORRECT (.inl rfl) buffer reply
      exact List.forall_mem_append.mpr ⟨by simp [RetryOp], hstatus⟩

theorem Retries.ops {maxRetries : Nat} {failed : List Trace} {trace : Trace}
    {outcome : Except Stop Bool}
    (hretries : Retries self file clientId maxRetries failed trace outcome) :
    ∀ event ∈ trace, RetryOp self file clientId event.op := by
  have hrounds (hfailed : ∀ round ∈ failed, Round self file clientId round (.ok none)) :
      ∀ event ∈ failed.flatten, RetryOp self file clientId event.op := by
    intro event he
    obtain ⟨round, hr, he⟩ := List.mem_flatten.mp he
    exact (hfailed round hr).ops event he
  cases hretries with
  | exhausted buffer reply hfailed hlength =>
      have hdone := self.status_ops file clientId CRC_INCORRECT_DONE (.inr (.inr rfl)) buffer reply
      exact List.forall_mem_append.mpr ⟨hrounds hfailed, hdone⟩
  | settled last status hfailed hlength hlast =>
      exact List.forall_mem_append.mpr ⟨hrounds hfailed, hlast.ops⟩
  | stopped last stop hfailed hlength hlast =>
      exact List.forall_mem_append.mpr ⟨hrounds hfailed, hlast.ops⟩

theorem RetryOp.transfer (hfile : file.code = SEND_FILE) {op : Op}
    (hop : RetryOp self file clientId op) :
    TransferOp op := by
  cases op with
  | sendRequest request =>
      rcases hop with rfl | ⟨code, buffer, hcode, rfl⟩
      · exact .inl hfile
      · exact .inr hcode
  | newArray size => trivial
  | getResponse => trivial
  | ifstreamAte path => trivial
  | _ => exact hop.elim

end Rounds

end ProtocolHandler

end TransferClient
