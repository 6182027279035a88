import TransferClient.Checksum.Detection
import TransferClient.HandleClient.Rules
import TransferClient.HandleClient.Sessions
import TransferClient.ProtocolHandler.Service

namespace TransferClient

open Interaction Bytes Client ProtocolHandler ServerRequests ServerResponses

-- The client calls a checksum correct only behind the answer to a file that carries it, and
-- behind a reading of the file for which it computes the same.
def Honest (past : Trace) (event : Event Ans) : Prop :=
  ∀ request, event = sent request → request.code = CRC_CORRECT →
    ∃ (earlier later : Trace) (file : Request) (answer : Response) (path : List UInt8) (reading : Reading)
      (crc : UInt32), past = earlier ++ sent file :: got answer :: ⟨.ifstreamAte path, reading⟩ :: later ∧
        file.code = SEND_FILE ∧ answer.code = FILE_RECEIVED_CRC_OK ∧
        trailingCRC answer.payload = some crc ∧
        crcOf reading = .ok crc

namespace ProtocolHandler

theorem honest_of_quiet {trace : Trace}
    (hquiet : ∀ event ∈ trace, ∀ request, event = sent request → request.code ≠ CRC_CORRECT) :
    Anywhere Honest trace :=
  .of_forall fun event hevent _ request hsent hcode => absurd hcode (hquiet event hevent request hsent)

section Loop

variable {self : ProtocolHandler} {file : Request} {clientId : ClientId}
  (hfile : file.code = SEND_FILE)

include hfile

theorem Round.honest {round : Trace} {result : Except Stop (Option Bool)}
    (hround : Round self file clientId round result) : Anywhere Honest round := by
  have hsent : file.code ≠ CRC_CORRECT := by
    rw [hfile]
    decide
  have hreport : CRC_INCORRECT_RESEND ≠ CRC_CORRECT := by decide
  cases hround with
  | other answer hcode => exact honest_of_quiet (by simp [hsent])
  | short answer hcode hcrc => exact honest_of_quiet (by simp [hsent])
  | unread answer received reading stop hcode hcrc hread => exact honest_of_quiet (by simp [hsent])
  | mismatched answer received calculated reading buffer reply hcode hcrc hread hne =>
      exact honest_of_quiet (by simp [hsent, status, hreport])
  | matched answer received reading buffer reply hcode hcrc hread =>
      have hanswered : Anywhere Honest [sent file, got answer, ⟨.ifstreamAte self.filePath, reading⟩] :=
        honest_of_quiet (by simp [hsent])
      refine hanswered.append_of fun before past event future hsplit request hcorrect hcrcCode => ?_
      exact ⟨before, past, file, answer, self.filePath, reading,
        received, by simp, hfile, hcode, hcrc, hread⟩

theorem Retries.honest {maxRetries : Nat} {failed : List Trace} {trace : Trace}
    {outcome : Except Stop Bool}
    (hretries : Retries self file clientId maxRetries failed trace outcome) :
    Anywhere Honest trace := by
  have hrounds (hfailed : ∀ round ∈ failed, Round self file clientId round (.ok none)) :
      Anywhere Honest failed.flatten :=
    .flatten fun round hround => (hfailed round hround).honest hfile
  cases hretries with
  | exhausted buffer reply hfailed hlength =>
      have hdone : CRC_INCORRECT_DONE ≠ CRC_CORRECT := by decide
      exact (hrounds hfailed).append (honest_of_quiet (by simp [status, hdone]))
  | settled last status hfailed hlength hlast => exact (hrounds hfailed).append (hlast.honest hfile)
  | stopped last stop hfailed hlength hlast => exact (hrounds hfailed).append (hlast.honest hfile)

end Loop

theorem FileSending.honest {crypto : CryptoPP} (self : ProtocolHandler)
    (encrypted_aes_key privateKey : List UInt8) (clientId : ClientId) (trace : Trace)
    (outcome : Except Stop Bool)
    (hsending : FileSending crypto self encrypted_aes_key privateKey clientId trace outcome) :
    Anywhere Honest trace := by
  cases hsending with
  | noAesKey => exact honest_of_quiet (by simp)
  | noFile aes_key => exact honest_of_quiet (by simp)
  | wrongKey aes_key contents hlength => exact honest_of_quiet (by simp)
  | noBlock aes_key contents hlength => exact honest_of_quiet (by simp)
  | sending aes_key contents iv buffer payload failed loop outcome hlength hpayload hretries =>
      exact (honest_of_quiet (by simp)).append (hretries.honest rfl)

theorem Keying.honest {crypto : CryptoPP} (self : ProtocolHandler) (clientId : ClientId)
    (trace : Trace)
    (result : Except Stop (Response × List UInt8))
    (hkeying : Keying crypto self clientId trace result) :
    Anywhere Honest trace := by
  refine honest_of_quiet fun event hevent request hsent => ?_
  have hop := hkeying.ops event hevent
  rw [hsent] at hop
  have hkey : request.code = SEND_PUBLIC_KEY := hop
  rw [hkey]
  decide

theorem asked_honest (self : ProtocolHandler) (requestCode : UInt16) (buffer : ClientId)
    (answer : Response) (hcode : requestCode = REGISTRATION ∨ requestCode = RECONNECT) :
    Anywhere Honest (self.asked requestCode buffer answer) := by
  have hne : requestCode ≠ CRC_CORRECT := by
    rcases hcode with rfl | rfl <;> decide
  exact honest_of_quiet (by simp [asked, connectionRequest, hne])

theorem around_honest (past : Trace) (event : Event Ans) (hop : AroundOp event.op) :
    Honest past event := by
  rintro request rfl
  exact hop.elim

end ProtocolHandler

-- What the transfer has made of the file: it differs from it within 32 consecutive bits, or
-- in two bits of a file below 2 ^ 32 bits.
structure Damaged (contents received : List UInt8) : Prop where
  length : received.length = contents.length
  differs : received ≠ contents
  kind : (∃ start : Nat, ∀ k, (Crc.bits contents)[k]? ≠ (Crc.bits received)[k]? →
      start ≤ k ∧ k < start + 32) ∨
    8 * contents.length ≤ 2 ^ 32 - 1 ∧ ∃ i j : Nat, i < j ∧
      ∀ k, (Crc.bits contents)[k]? ≠ (Crc.bits received)[k]? ↔ k = i ∨ k = j

-- Such damage shows in the checksum.
theorem Damaged.cksum_ne {contents received : List UInt8} (hdamaged : Damaged contents received)
    (hsmall : contents.length < 2 ^ 31) : Checksum.cksum received ≠ Checksum.cksum contents := by
  obtain ⟨hlength, hdiffers, hkind⟩ := hdamaged
  intro hsame
  -- The length stands behind both contents, and is the same.
  obtain ⟨crc, crc', hcrc, hcrc', hne⟩ :=
    Checksum.memcrc_ne contents received hlength.symm hsmall (by
    intro suffix
    have hbits : (Crc.bits contents).length = (Crc.bits received).length := by
      rw [Checksum.length_bits, Checksum.length_bits, hlength]
    rcases hkind with ⟨start, hwindow⟩ | ⟨hshort, i, j, hij, hdiffer⟩
    · exact Crc.remainder_window (by decide) Checksum.posix (by decide) _ _ suffix hbits
        (fun h => hdiffers (Checksum.bits_injective hlength h.symm)) start hwindow
    · have hj : j < (Crc.bits contents).length := by
        by_contra hout
        refine (hdiffer j).mpr (.inr rfl) ?_
        rw [List.getElem?_eq_none (by omega), List.getElem?_eq_none (by omega)]
      have horder : (Crc.bits contents).length ≤ orderOf (AdjoinRoot.root (Crc.generator Checksum.posix)) := by
        rw [Checksum.orderOf_root, Checksum.length_bits]
        exact hshort
      exact Crc.remainder_two_bits (by decide) Checksum.posix
        (by decide) _ _ suffix hbits horder i j hij hj
        hdiffer)
  rw [Checksum.memcrc_eq contents hsmall, Option.some.injEq] at hcrc
  rw [Checksum.memcrc_eq received (by omega), Option.some.injEq] at hcrc'
  exact hne (by rw [← hcrc, ← hcrc', hsame])

-- A file that reaches the server damaged is never called correct: as long as the file itself
-- stays as it is and the server reports the checksum of what it has got, no run confirms the
-- transfer, and none succeeds.
theorem damage_unconfirmed (crypto : CryptoPP) (trace : Trace) (outcome : Except Stop Bool)
    (hruns : (handleClient crypto).Runs trace outcome) (contents : List UInt8)
    (hsmall : contents.length < 2 ^ 31)
    (hreadings : ∀ path reading, ⟨.ifstreamAte path, reading⟩ ∈ trace → reading = .contents contents)
    (hdamaged : AtEachAnswer (fun file answer _ => file.code = SEND_FILE →
      answer.code = FILE_RECEIVED_CRC_OK → ∃ received, Damaged contents received ∧
        trailingCRC answer.payload = some (UInt32.ofNat (Checksum.cksum received).toNat)) trace) :
    CRC_CORRECT ∉ codes trace ∧ outcome ≠ .ok true := by
  have hflow := handleClient_flow crypto trace outcome hruns
  have hunconfirmed : CRC_CORRECT ∉ codes trace := by
    intro hmem
    obtain ⟨request, hsent, hcorrect⟩ := (mem_codes _ _).mp hmem
    obtain ⟨past, future, rfl⟩ := List.append_of_mem hsent
    have hhonest :=
      (hflow.anywhere around_honest asked_honest Keying.honest FileSending.honest).atEach
    obtain ⟨earlier, later, file, answer, path, reading, crc, rfl, hfile, hcode, hcrc, hread⟩ :=
      hhonest past (sent request) future rfl request rfl hcorrect
    obtain ⟨received, hdamage, hreceived⟩ := hdamaged earlier file answer
      (⟨.ifstreamAte path, reading⟩ :: later ++ sent request :: future) (by simp) hfile hcode
    have hcontents := hreadings path reading (by simp)
    rw [hcontents, crcOf_cksum contents hsmall, Except.ok.injEq] at hread
    rw [hreceived, Option.some.injEq, ← hread] at hcrc
    have hsame := congrArg UInt32.toNat hcrc
    rw [UInt32.toNat_ofNat_of_lt' (Checksum.cksum received).isLt,
      UInt32.toNat_ofNat_of_lt' (Checksum.cksum contents).isLt] at hsame
    exact hdamage.cksum_ne hsmall (BitVec.eq_of_toNat_eq hsame)
  exact ⟨hunconfirmed, fun houtcome => hunconfirmed (hflow.succeeds.mp houtcome).mem_codes⟩

namespace Sample

theorem small_word (value : Nat) : (littleEndian 4 value).length < 2 ^ 32 := by
  rw [length_littleEndian]
  omega

-- The file is one byte, of which the server gets another one in every round.
def damaging : World :=
  let answer : ResponseFrame :=
    ⟨PROTOCOL_VERSION, 2103, littleEndian 4 (Checksum.cksum [1]).toNat, small_word _⟩
  World.serving ([approval 2105] ++ transferring.take 1 ++
    [answer, bare 2104, answer, bare 2104, answer, bare 2104, bare 2104]) fun _ => (known (some [0])).replies

-- What readCrc reads is this file.
def reads : Event Ans → Bool
  | ⟨.ifstreamAte _, .contents contents⟩ => contents == [0]
  | ⟨.ifstreamAte _, _⟩ => false
  | _ => true

end Sample

theorem damage_unconfirmed_byte :
    ∃ run, run = (handleClient Sample.crypto).exec World.handler Sample.damaging ∧
      SEND_FILE ∈ codes run.trace ∧ CRC_CORRECT ∉ codes run.trace ∧ run.outcome ≠ .ok true := by
  have hruns := Prog.exec_runs World.handler (handleClient Sample.crypto) Sample.damaging
  generalize hrun : (handleClient Sample.crypto).exec World.handler Sample.damaging = run at hruns
  have hsent : SEND_FILE ∈ codes run.trace := by
    rw [← hrun]
    decide +kernel
  have hreads : ∀ event ∈ run.trace, Sample.reads event = true := by
    rw [← hrun]
    decide +kernel
  have hanswers : ∀ exchange ∈ answered (messages run.trace), exchange.1.code = SEND_FILE →
      exchange.2.code = FILE_RECEIVED_CRC_OK →
        trailingCRC exchange.2.payload = some (UInt32.ofNat (Checksum.cksum [1]).toNat) := by
    rw [← hrun]
    decide +kernel
  have hdamaged : Damaged [0] [1] := by
    refine ⟨rfl, by decide, .inl ⟨0, ?_⟩⟩
    intro k hk
    by_contra hout
    rw [Checksum.getElem?_bits_of_ge [0] k (by simp; omega),
      Checksum.getElem?_bits_of_ge [1] k (by simp; omega)]
      at hk
    exact hk rfl
  refine ⟨run, rfl, hsent,
    damage_unconfirmed Sample.crypto run.trace run.outcome hruns [0] (by decide) ?_ ?_⟩
  · intro path reading hevent
    have hread := hreads _ hevent
    cases reading with
    | contents contents =>
        rw [Sample.reads, beq_iff_eq] at hread
        rw [hread]
    | _ => cases hread
  · intro past file answer future hsplit hfile hcode
    have hanswer := of_answered (P := fun file answer => file.code = SEND_FILE →
      answer.code = FILE_RECEIVED_CRC_OK →
        trailingCRC answer.payload = some (UInt32.ofNat (Checksum.cksum [1]).toNat)) hanswers
    exact ⟨[1], hdamaged, hanswer past file answer future hsplit hfile hcode⟩

end TransferClient
