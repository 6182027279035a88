import TransferClient.ProtocolHandler.Flow
import TransferClient.ProtocolHandler.Retry

namespace TransferClient

open Interaction Bytes Client ServerRequests ServerResponses

-- The file that a run has read as a whole.
def fileRead (trace : Trace) : Option (List UInt8) :=
  trace.findSome? fun event =>
    match event with
    | ⟨.ifstream _, file⟩ => file
    | _ => none

-- CRC_CORRECT answers a response whose trailing checksum is the one of these bytes.
def VerdictOn (plaintext : List UInt8) (trace : Trace) : Prop :=
  ∀ past request future, messages trace = past ++ .request request :: future →
    request.code = CRC_CORRECT → ∃ answer crc, past.getLast? = some (.response answer) ∧
      crcOf (.contents plaintext) = .ok crc ∧ trailingCRC answer.payload = some crc

-- The server's checksum is the one of the file as it is now, and not the one of
-- these bytes.
def Attempt.ConfirmsOther (plaintext : List UInt8) (attempt : Attempt) : Prop :=
  attempt.Confirms ∧ (crcOf (.contents plaintext)).toOption ≠ attempt.calculated

instance (plaintext : List UInt8) (attempt : Attempt) :
    Decidable (attempt.ConfirmsOther plaintext) :=
  inferInstanceAs (Decidable (_ ∧ _))

theorem mem_codes_of_messages {trace : Trace} {past future : List Message} {request : Request}
    (hsplit : messages trace = past ++ .request request :: future) :
    request.code ∈ codes trace := by
  simp [codes, requests, hsplit]

-- Without a CRC_CORRECT there is no verdict.
theorem verdictOn_of_notMem {trace : Trace} (hcodes : CRC_CORRECT ∉ codes trace)
    (plaintext : List UInt8) : VerdictOn plaintext trace := by
  intro past request future hsplit hcode
  have hmem := mem_codes_of_messages hsplit
  rw [hcode] at hmem
  exact absurd hmem hcodes

theorem toOption_eq_some {ε α : Type} (result : Except ε α) (value : α) :
    result.toOption = some value ↔ result = .ok value := by
  cases result <;> simp [Except.toOption]

namespace ProtocolHandler

variable (crypto : CryptoPP) (self : ProtocolHandler) (file : Request) (clientId : ClientId)

-- The verdict of the last round is about these bytes exactly when the file that
-- it has read has their checksum.
theorem verdictOn_matched (plaintext : List UInt8) (first : Trace) (hfile : file.code = SEND_FILE)
    (hfirst : CRC_CORRECT ∉ codes first) (answer : Response) (received : UInt32) (reading : Reading)
    (buffer : Buffer (self.filePath.length + 1)) (reply : Response)
    (hcrc : trailingCRC answer.payload = some received) :
    VerdictOn plaintext
        (first ++ ([sent file, got answer, ⟨.ifstreamAte self.filePath, reading⟩] ++
          self.status clientId CRC_CORRECT buffer reply)) ↔
      crcOf (.contents plaintext) = .ok received := by
  have hmessages : messages (first ++ ([sent file, got answer, ⟨.ifstreamAte self.filePath, reading⟩] ++
        self.status clientId CRC_CORRECT buffer reply)) =
      (messages first ++ [.request file, .response answer]) ++
        .request (self.statusRequest clientId CRC_CORRECT buffer) :: [.response reply] := by
    simp [messages, status]
  constructor
  · intro hverdict
    obtain ⟨other, crc, hlast, hplain, hother⟩ := hverdict _ _ _ hmessages rfl
    rw [List.getLast?_append, List.getLast?_cons_cons, List.getLast?_singleton] at hlast
    cases hlast
    rw [hcrc] at hother
    cases hother
    exact hplain
  · intro hplain past request future hsplit hcode
    rw [hmessages] at hsplit
    have hbefore : .request request ∉ messages first ++ [.request file, .response answer] := by
      intro hmem
      rcases List.mem_append.mp hmem with hmem | hmem
      · obtain ⟨past, future, he⟩ := List.append_of_mem hmem
        exact hfirst (hcode ▸ mem_codes_of_messages he)
      · simp only [List.mem_cons, Message.request.injEq, reduceCtorEq, List.not_mem_nil,
          or_false] at hmem
        rw [hmem, hfile] at hcode
        exact absurd hcode (by decide)
    obtain ⟨hpast, _, _⟩ := (List.append_cons_inj_of_notMem hbefore (by simp)).mp hsplit
    refine ⟨answer, received, ?_, hplain, hcrc⟩
    rw [← hpast]
    simp

-- Without a CRC_CORRECT no attempt has confirmed the file, and there is no verdict.
theorem verdictOn_of_tried {maxRetries : Nat} {trace : Trace} {outcome : Except Stop Bool}
    (htried : Tried maxRetries trace outcome) (hno : CRC_CORRECT ∉ codes trace)
    (plaintext : List UInt8) :
    VerdictOn plaintext trace ↔ ∀ attempt ∈ attempts trace, ¬attempt.ConfirmsOther plaintext := by
  have hnone : ∀ attempt ∈ attempts trace, ¬attempt.Confirms := by
    intro attempt ha
    cases htried with
    | exhausted hfailed hlength hcodes => exact (hfailed attempt ha).not_confirms
    | confirmed tries final reply hattempts hfailed hlength hfinal hcodes hreply =>
        rw [hcodes] at hno
        exact absurd (by simp) hno
    | stopped tries final stop hattempts hfailed hlength hfinal hcodes =>
        rw [hattempts, List.mem_append, List.mem_singleton] at ha
        rcases ha with ha | rfl
        · exact (hfailed attempt ha).not_confirms
        · exact Attempt.not_confirms_of_none hfinal
  exact iff_of_true (verdictOn_of_notMem hno plaintext) fun attempt ha hother => hnone attempt ha
    hother.1

theorem retries_verdictOn (plaintext : List UInt8) (hfile : file.code = SEND_FILE)
    (maxRetries : Nat) (failed : List Trace) (trace : Trace) (outcome : Except Stop Bool)
    (hretries : Retries self file clientId maxRetries failed trace outcome) :
    VerdictOn plaintext trace ↔ ∀ attempt ∈ attempts trace, ¬attempt.ConfirmsOther plaintext := by
  have htried := Retries.tried self file clientId hfile hretries
  have hfirst (hfailed : ∀ round ∈ failed, Round self file clientId round (.ok none)) :
      CRC_CORRECT ∉ codes failed.flatten := by
    obtain ⟨tries, _, _, hcodes, _⟩ := self.failed_attempts file clientId hfile failed hfailed
    rw [hcodes]
    exact fun hmem => (attempt_codes_ne tries _ hmem).1 rfl
  cases hretries with
  | exhausted buffer reply hfailed hlength =>
      apply verdictOn_of_tried htried
      rw [codes_append, codes_status, List.mem_append]
      exact fun h => h.elim (hfirst hfailed) (by decide)
  | stopped last stop hfailed hlength hlast =>
      obtain ⟨_, _, _, hcodes⟩ := Round.stopping_attempt self file clientId hfile last stop hlast
      apply verdictOn_of_tried htried
      rw [codes_append, hcodes, List.mem_append]
      exact fun h => h.elim (hfirst hfailed) (by decide)
  | settled last status hfailed hlength hlast =>
      obtain ⟨tries, _, htries, _, hnext⟩ := self.failed_attempts file clientId hfile failed hfailed
      cases hlast with
      | matched answer received reading buffer reply hcode hcrc hread =>
          rw [self.verdictOn_matched file clientId plaintext failed.flatten hfile (hfirst hfailed) answer
            received reading buffer reply hcrc, hnext,
            self.attempts_matched file clientId hfile answer received reading buffer reply hcode hread]
          constructor
          · intro hplain attempt ha hother
            rcases List.mem_append.mp ha with ha | ha
            · exact (htries attempt ha).not_confirms hother.1
            · rw [List.mem_singleton.mp ha] at hother
              exact hother.2 ((toOption_eq_some _ _).mpr hplain)
          · intro hnone
            have hlast := hnone ⟨answer, some received⟩ (by simp)
            by_contra hplain
            exact hlast ⟨⟨hcode, received, rfl, hcrc⟩, fun he =>
              hplain ((toOption_eq_some _ _).mp he)⟩

-- CRC_CORRECT vouches for the bytes that were encrypted exactly when no attempt
-- finds another file, or no file, with the server's checksum.
theorem verdictOn_encrypted_iff (encrypted_aes_key privateKey : List UInt8) (trace : Trace)
    (outcome : Except Stop Bool)
    (hruns : (self.handleFileEncryptionAndSend crypto encrypted_aes_key privateKey clientId).Runs
      trace outcome) :
    (∀ contents ∈ fileRead trace, VerdictOn (CryptoHandler.encryptedPart contents) trace) ↔
      ∀ contents ∈ fileRead trace, ∀ attempt ∈ attempts trace,
        ¬attempt.ConfirmsOther (CryptoHandler.encryptedPart contents) := by
  have hsending := self.handleFileEncryptionAndSend_sending crypto _ _ clientId trace outcome hruns
  cases hsending with
  | noAesKey => simp [fileRead]
  | noFile aes_key => simp [fileRead]
  | wrongKey aes_key contents hlength =>
      simp [fileRead, attempts, Attempt.startsAt, verdictOn_of_notMem, codes, requests, messages]
  | noBlock aes_key contents hlength =>
      simp [fileRead, attempts, Attempt.startsAt, verdictOn_of_notMem, codes, requests, messages]
  | sending aes_key contents iv buffer payload failed trace outcome hlength hpayload hretries =>
      have hverdict := self.retries_verdictOn _ clientId (CryptoHandler.encryptedPart contents) rfl 3
        failed trace outcome hretries
      simpa [fileRead, attempts, Attempt.startsAt, VerdictOn, messages] using hverdict

-- The file is empty when it is read for the encryption, and cannot be opened for
-- the checksum. The server answers with the checksum 0.
theorem verdictOn_unreadable :
    let run := (Sample.client.handleFileEncryptionAndSend Sample.crypto [] [] Sample.clientId).exec
      World.handler
      (World.serving [Sample.frame 2103 [0, 0, 0, 0], Sample.frame 2104 []] fun _ op =>
        match op with
        | .ifstreamAte _ => .cannotOpen
        | op => Sample.machine.replies op)
    (Sample.client.handleFileEncryptionAndSend Sample.crypto [] [] Sample.clientId).Runs
        run.trace run.outcome ∧
      fileRead run.trace = some [] ∧ run.outcome = .ok true ∧
      ¬VerdictOn (CryptoHandler.encryptedPart []) run.trace := by
  intro run
  refine ⟨Prog.exec_runs _ _ _, by decide, by decide, fun hverdict => ?_⟩
  obtain ⟨answer, crc, hlast, hplain, hcrc⟩ := hverdict ((messages run.trace).take 2)
    (Sample.client.statusRequest Sample.clientId CRC_CORRECT ⟨List.replicate 5 0, by decide⟩)
    ((messages run.trace).drop 3) (by decide +kernel) rfl
  have hanswer : ((messages run.trace).take 2).getLast? =
      some (.response ⟨99, 2103, 4, [0, 0, 0, 0]⟩) := by decide
  rw [hanswer] at hlast
  cases hlast
  have hother : (crcOf (.contents (CryptoHandler.encryptedPart []))).toOption ≠
      trailingCRC [0, 0, 0, 0] := by decide
  apply hother
  rw [hplain, hcrc]
  rfl

-- The same run with a file that can be read, and its own checksum from the server.
theorem verdictOn_readable :
    let run := (Sample.client.handleFileEncryptionAndSend Sample.crypto [] [] Sample.clientId).exec
      World.handler (Sample.world [Sample.frame 2103 [255, 255, 255, 255], Sample.frame 2104 []])
    codes run.trace = [SEND_FILE, CRC_CORRECT] ∧
      ∀ contents ∈ fileRead run.trace,
        VerdictOn (CryptoHandler.encryptedPart contents) run.trace := by
  intro run
  refine ⟨by decide, ?_⟩
  have hiff := Sample.client.verdictOn_encrypted_iff Sample.crypto Sample.clientId [] [] run.trace
    run.outcome (Prog.exec_runs _ _ _)
  exact hiff.mpr (by decide)

end ProtocolHandler

end TransferClient
