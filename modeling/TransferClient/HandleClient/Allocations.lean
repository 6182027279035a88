import TransferClient.HandleClient.Fallback
import TransferClient.HandleClient.Rules
import TransferClient.ProtocolHandler.RequestStream

namespace TransferClient

open Interaction Bytes Client ProtocolHandler ServerRequests ServerResponses

-- The allocation that the payload of a request has been written into, and its size: the vector
-- for a name, else a buffer that the run has allocated before, with what it held then.
inductive Allocated (past : Trace) (request : Request) : Nat → Prop where
  | name (self : ProtocolHandler)
      (hcode : request.code = REGISTRATION ∨ request.code = RECONNECT)
      (hpayload : request.payload =
        write (List.replicate NAME_FIELD_SIZE 0) 0 (strncpy self.clientName (NAME_FIELD_SIZE - 1))) :
      Allocated past request NAME_FIELD_SIZE
  | publicKey (self : ProtocolHandler) (publicKey : List UInt8)
      (buffer : Buffer (NAME_FIELD_SIZE + publicKey.length))
      (hcode : request.code = SEND_PUBLIC_KEY)
      (hbuffer : ⟨.newArray (NAME_FIELD_SIZE + publicKey.length), buffer⟩ ∈ past)
      (hpayload : request.payload = self.pubkeyPayload publicKey buffer.val) :
      Allocated past request (NAME_FIELD_SIZE + publicKey.length)
  | file (fileName content : List UInt8) (buffer : Buffer (4 + 255 + content.length + 1))
      (hcode : request.code = SEND_FILE)
      (hbuffer : ⟨.newArray (4 + 255 + content.length + 1), buffer⟩ ∈ past)
      (hpayload : request.payload = fillPayloadBuffer fileName content buffer.val) :
      Allocated past request (4 + 255 + content.length + 1)
  | path (self : ProtocolHandler) (buffer : Buffer (self.filePath.length + 1))
      (hcode : request.code ∈ [CRC_CORRECT, CRC_INCORRECT_RESEND, CRC_INCORRECT_DONE])
      (hbuffer : ⟨.newArray (self.filePath.length + 1), buffer⟩ ∈ past)
      (hpayload : request.payload = write buffer.val 0 (strcpy self.filePath)) :
      Allocated past request (self.filePath.length + 1)

-- `write` makes a buffer longer that it does not fit into. A payload that has the size of its
-- allocation has been written inside it, and what is sent of it is read inside it.
def InAllocation (past : Trace) (event : Event Ans) : Prop :=
  ∀ request, event = sent request → ∃ size : Nat,
    Allocated past request size ∧ request.payload.length = size ∧ request.payloadSize.toNat ≤ size

theorem inAllocation_of_length {past : Trace} {request : Request} {size : Nat}
    (hallocated : Allocated past request size) (hlength : request.payload.length = size) :
    InAllocation past (sent request) := by
  rintro _ ⟨⟩
  exact ⟨size, hallocated, hlength, hlength ▸ request.inBounds⟩

theorem inAllocation_of_quiet {trace : Trace}
    (hquiet : ∀ event ∈ trace, ∀ request, event ≠ sent request) :
    Anywhere InAllocation trace :=
  .of_forall fun event hevent _ request hsent => absurd hsent (hquiet event hevent request)

-- `strcpy` writes one byte more than the string has at most.
theorem length_strcpy_le (string : List UInt8) : (strcpy string).length ≤ string.length + 1 := by
  rw [strcpy, List.length_append, List.length_singleton]
  have hcut := List.takeWhile_prefix (l := string) (p := (· != 0))
  have hle : (cString string).length ≤ string.length := hcut.length_le
  omega

-- A write inside a buffer of a known length keeps it.
theorem length_write_of {buffer : List UInt8} {length : Nat} (hbuffer : buffer.length = length)
    (offset : Nat) (bytes : List UInt8) (hfits : offset + bytes.length ≤ length) :
    (write buffer offset bytes).length = length := by
  rw [length_write _ _ _ (by omega), hbuffer]

theorem length_fillPayloadBuffer (fileName content buffer : List UInt8)
    (hbuffer : buffer.length = 4 + 255 + content.length + 1) :
    (fillPayloadBuffer fileName content buffer).length = 4 + 255 + content.length + 1 := by
  have hcontent := length_strcpy_le content
  have hzeros := length_write_of hbuffer 0 (List.replicate (4 + 255 + content.length) 0)
    (by rw [List.length_replicate]; omega)
  have hsize := length_write_of hzeros 0 (bigEndian 4 (UInt32.ofNat content.length).toNat)
    (by rw [length_bigEndian]; omega)
  have hname := length_write_of hsize 4 (strncpy fileName 255) (by rw [length_strncpy]; omega)
  exact length_write_of hname (4 + 255) (strcpy content) (by omega)

namespace ProtocolHandler

variable (self : ProtocolHandler)

theorem length_pubkeyPayload (publicKey buffer : List UInt8)
    (hbuffer : buffer.length = NAME_FIELD_SIZE + publicKey.length) :
    (self.pubkeyPayload publicKey buffer).length = NAME_FIELD_SIZE + publicKey.length := by
  have hfield : NAME_FIELD_SIZE = 255 := rfl
  have hzeros := length_write_of hbuffer 0 (List.replicate (NAME_FIELD_SIZE + publicKey.length) 0)
    (by rw [List.length_replicate]; omega)
  have hname := length_write_of hzeros 0 (strncpy self.clientName (NAME_FIELD_SIZE - 1))
    (by rw [length_strncpy]; omega)
  exact length_write_of hname NAME_FIELD_SIZE (strncpy publicKey publicKey.length)
    (by rw [length_strncpy])

theorem length_statusPayload (clientId : ClientId) (code : UInt16)
    (buffer : Buffer (self.filePath.length + 1)) :
    (self.statusRequest clientId code buffer).payload.length = self.filePath.length + 1 := by
  have hfits := length_strcpy_le self.filePath
  exact length_write_of buffer.property 0 (strcpy self.filePath) (by omega)

section Loop

variable {self} {file : Request} {clientId : ClientId}

-- In the loop the file is the only payload that has not been made there.
def InLoop (file : Request) (past : Trace) (event : Event Ans) : Prop :=
  event = sent file ∨ InAllocation past event

theorem inLoop_of_quiet {trace : Trace}
    (hquiet : ∀ event ∈ trace, ∀ request, event = sent request → request = file) :
    Anywhere (InLoop file) trace := by
  refine .of_forall fun event hevent past => ?_
  by_cases hsent : ∃ request, event = sent request
  · obtain ⟨request, rfl⟩ := hsent
    exact .inl (by rw [hquiet _ hevent request rfl])
  · exact .inr fun request h => absurd ⟨request, h⟩ hsent

theorem status_inLoop {code : UInt16} (buffer : Buffer (self.filePath.length + 1))
    (reply : Response) (hcode : code ∈ [CRC_CORRECT, CRC_INCORRECT_RESEND, CRC_INCORRECT_DONE]) :
    Anywhere (InLoop file) (self.status clientId code buffer reply) := by
  have hmade : Anywhere (InLoop file) [⟨.newArray (self.filePath.length + 1), buffer⟩] :=
    inLoop_of_quiet (by simp)
  have hreport : Anywhere (InLoop file) ([⟨.newArray (self.filePath.length + 1), buffer⟩] ++
      [sent (self.statusRequest clientId code buffer)]) := by
    refine hmade.append_of fun before => AtEach.singleton (.inr ?_)
    exact inAllocation_of_length (.path self buffer hcode (by simp) rfl)
      (self.length_statusPayload clientId code buffer)
  have hreply : Anywhere (InLoop file) [got reply] := inLoop_of_quiet (by simp)
  exact hreport.append hreply

theorem Round.inLoop {round : Trace} {result : Except Stop (Option Bool)}
    (hround : Round self file clientId round result) : Anywhere (InLoop file) round := by
  cases hround with
  | other answer hcode => exact inLoop_of_quiet (by simp)
  | short answer hcode hcrc => exact inLoop_of_quiet (by simp)
  | unread answer received reading stop hcode hcrc hread => exact inLoop_of_quiet (by simp)
  | mismatched answer received calculated reading buffer reply hcode hcrc hread hne =>
      exact (inLoop_of_quiet (by simp)).append (status_inLoop buffer reply (by simp))
  | matched answer received reading buffer reply hcode hcrc hread =>
      exact (inLoop_of_quiet (by simp)).append (status_inLoop buffer reply (by simp))

theorem Retries.inLoop {maxRetries : Nat} {failed : List Trace} {trace : Trace}
    {outcome : Except Stop Bool}
    (hretries : Retries self file clientId maxRetries failed trace outcome) :
    Anywhere (InLoop file) trace := by
  have hrounds (hfailed : ∀ round ∈ failed, Round self file clientId round (.ok none)) :
      Anywhere (InLoop file) failed.flatten :=
    .flatten fun round hround => (hfailed round hround).inLoop
  cases hretries with
  | exhausted buffer reply hfailed hlength =>
      exact (hrounds hfailed).append (status_inLoop buffer reply (by simp))
  | settled last status hfailed hlength hlast => exact (hrounds hfailed).append hlast.inLoop
  | stopped last stop hfailed hlength hlast => exact (hrounds hfailed).append hlast.inLoop

end Loop

variable {crypto : CryptoPP}

theorem FileSending.inAllocation (self : ProtocolHandler)
    (encrypted_aes_key privateKey : List UInt8)
    (clientId : ClientId) (trace : Trace) (outcome : Except Stop Bool)
    (hsending : FileSending crypto self encrypted_aes_key privateKey clientId trace outcome) :
    Anywhere InAllocation trace := by
  cases hsending with
  | noAesKey => exact inAllocation_of_quiet (by simp)
  | noFile aes_key => exact inAllocation_of_quiet (by simp)
  | wrongKey aes_key contents hlength => exact inAllocation_of_quiet (by simp)
  | noBlock aes_key contents hlength => exact inAllocation_of_quiet (by simp)
  | sending aes_key contents iv buffer payload failed loop outcome hlength hpayload hretries =>
      have hfile : payload.val.length = _ :=
        (congrArg List.length hpayload).trans (length_fillPayloadBuffer _ _ _ buffer.property)
      have hloop (before : Trace) (hbefore : (⟨.newArray _, buffer⟩ : Event Ans) ∈ before) :
          AtEach (fun past => InAllocation (before ++ past)) loop := by
        refine (hretries.inLoop before).mono fun past event hevent => ?_
        rcases hevent with rfl | hallocated
        · exact inAllocation_of_length
            (.file self.filePath _ buffer rfl (by simp [hbefore]) hpayload) hfile
        · exact hallocated
      exact (inAllocation_of_quiet (by simp)).append_of fun before => hloop _ (by simp)

theorem Keying.inAllocation (self : ProtocolHandler) (clientId : ClientId) (trace : Trace)
    (result : Except Stop (Response × List UInt8))
    (hkeying : Keying crypto self clientId trace result) :
    Anywhere InAllocation trace := by
  cases hkeying with
  | noKeys => exact inAllocation_of_quiet (by simp)
  | noKeyFile keys buffer => exact inAllocation_of_quiet (by simp [keysMade])
  | noMeInfo keys buffer => exact inAllocation_of_quiet (by simp [keysMade])
  | offered keys buffer answer =>
      have hkey := self.length_pubkeyPayload keys.publicKey buffer.val buffer.property
      have hmade : Anywhere InAllocation (keysMade keys buffer) :=
        inAllocation_of_quiet (by simp [keysMade])
      refine hmade.append_of fun before past event future hsplit => ?_
      by_cases hsent : event = sent (self.pubkeyRequest clientId keys.publicKey buffer)
      · subst hsent
        exact inAllocation_of_length
          (.publicKey self keys.publicKey buffer rfl (by simp [keysMade]) rfl) hkey
      · intro request hrequest
        have hmem : sent request ∈ past ++ event :: future := by simp [hrequest]
        rw [← hsplit] at hmem
        have hsame : request = self.pubkeyRequest clientId keys.publicKey buffer := by
          simpa using hmem
        exact absurd (hrequest.trans (by rw [hsame])) hsent

theorem asked_inAllocation (self : ProtocolHandler) (requestCode : UInt16) (buffer : ClientId)
    (answer : Response) (hcode : requestCode = REGISTRATION ∨ requestCode = RECONNECT) :
    Anywhere InAllocation (self.asked requestCode buffer answer) := by
  refine .of_forall fun event hevent past request hsent => ?_
  subst hsent
  have hrequest : request = self.connectionRequest requestCode := by simpa [asked] using hevent
  have hlength : request.payload.length = NAME_FIELD_SIZE := by
    rw [hrequest, self.connectionRequest_payload, length_nameField]
  exact inAllocation_of_length (.name self (by rw [hrequest]; exact hcode) (by rw [hrequest]; rfl))
    hlength request rfl

theorem around_inAllocation (past : Trace) (event : Event Ans) (hop : AroundOp event.op) :
    InAllocation past event := by
  rintro request rfl
  exact hop.elim

end ProtocolHandler

-- No copy into a payload leaves the allocation of the payload, in no run: the requests that
-- are sent have exactly the size of the allocation that they were written into, and nothing
-- behind it is sent.
theorem payloads_inAllocation (crypto : CryptoPP) (trace : Trace) (outcome : Except Stop Bool)
    (hruns : (handleClient crypto).Runs trace outcome) : AtEach InAllocation trace :=
  ((handleClient_flow crypto trace outcome hruns).anywhere around_inAllocation asked_inAllocation
    Keying.inAllocation FileSending.inAllocation).atEach

theorem payloads_inAllocation_known :
    AtEach InAllocation
      ((handleClient Sample.crypto).exec World.handler (Sample.approving (some []))).trace :=
  payloads_inAllocation Sample.crypto _ _ (Prog.exec_runs _ _ _)

end TransferClient
