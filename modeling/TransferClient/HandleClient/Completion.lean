import TransferClient.HandleClient.WriteAhead
import TransferClient.ProtocolHandler.FilePayload
import TransferClient.ProtocolHandler.RequestStream

namespace TransferClient

open Interaction Bytes Client ProtocolHandler ServerRequests ServerResponses

-- What a transfer is made of that has come through, once the server has let the client in.
structure Completion where
  keys : KeyPair
  offer : Request
  keyed : Response
  aes_key : List UInt8
  contents : List UInt8
  iv : Buffer 16
  file : Request
  received : Response
  reading : Reading
  verdict : Request
  confirmation : Response

namespace Completion

-- The sending of the file that was accepted, which need not be the first one.
def checking (completion : Completion) (path : List UInt8) : Trace :=
  [sent completion.file, got completion.received, ⟨.ifstreamAte path, completion.reading⟩,
    sent completion.verdict, got completion.confirmation]

def encrypting (completion : Completion) (path : List UInt8) : Trace :=
  [⟨.rsaDecrypt (completion.keyed.payload.drop 16) completion.keys.privateKey, some completion.aes_key⟩,
    ⟨.ifstream path, some completion.contents⟩, ⟨.generateBlock, some completion.iv⟩]

def encrypted_content (crypto : CryptoPP) (completion : Completion) : List UInt8 :=
  CryptoHandler.encryptedContent crypto completion.contents completion.aes_key completion.iv

-- The IV and the ciphertext of the whole file, as text.
def ciphertext (crypto : CryptoPP) (completion : Completion) : List UInt8 :=
  hex (completion.iv.val ++ crypto.cbcEncryption completion.aes_key completion.iv.val completion.contents)

def keying (completion : Completion) : Trace :=
  [⟨.generateKeyPair, some completion.keys⟩, sent completion.offer, got completion.keyed]

def events (completion : Completion) (path : List UInt8) : Trace :=
  completion.keying ++ (completion.encrypting path ++ completion.checking path)

-- What `readCrc` makes of a reading: the checksum of the contents, or 0 if there are none.
inductive Checks : Reading → UInt32 → Prop where
  | contents (contents : List UInt8) (crcValue : BitVec 64)
      (hcrc : Checksum.memcrc contents (BitVec.ofNat 64 contents.length) = some crcValue) :
      Checks (.contents contents) (UInt32.ofNat crcValue.toNat)
  | cannotOpen : Checks .cannotOpen 0
  | noSize : Checks .noSize 0
  | shortRead : Checks .shortRead 0

-- The bytes of the request that are sent are the size, the path and the text of the whole
-- file, when both sizes fit into 32 bits.
def Carries (crypto : CryptoPP) (completion : Completion) (path : List UInt8) : Prop :=
  completion.contents.length < 2 ^ 32 → 259 + (completion.ciphertext crypto).length < 2 ^ 32 →
    completion.file.payload.take completion.file.payloadSize.toNat =
      bigEndian 4 (completion.ciphertext crypto).length ++ strncpy path 255 ++ completion.ciphertext crypto

-- The parts stand in the run in this order, they fit together under the id that the client was
-- given, and the keys are stored if the disk takes them.
structure Completes (crypto : CryptoPP) (self : ProtocolHandler) (clientId : ClientId)
    (completion : Completion) (trace : Trace) : Prop where
  order : (completion.events self.filePath).Sublist trace
  offer : ∃ buffer, completion.offer = self.pubkeyRequest clientId completion.keys.publicKey buffer
  keyed : completion.keyed.code = RECEIVED_PUBLIC_KEY_SEND_AES ∧
    16 ≤ completion.keyed.payload.length
  aes_key : completion.aes_key.length = 16
  file : completion.file.code = SEND_FILE ∧ completion.file.clientId = clientId ∧
    ∃ buffer : Buffer (4 + 255 + (completion.encrypted_content crypto).length + 1),
      completion.file.payload =
        fillPayloadBuffer self.filePath (completion.encrypted_content crypto) buffer.val
  carried : completion.Carries crypto self.filePath
  received : completion.received.code = FILE_RECEIVED_CRC_OK
  checked : ∃ crc, trailingCRC completion.received.payload = some crc ∧
    Checks completion.reading crc
  verdict : ∃ buffer, completion.verdict = self.statusRequest clientId CRC_CORRECT buffer
  confirmed : completion.confirmation.code = CONFIRM_MSG
  stored : (∀ event ∈ trace, getsThrough event = true) →
    ∀ disk : Disk, (disk.after trace).Holds crypto self clientId completion.keys

theorem checks_of_crcOf (reading : Reading) (crc : UInt32) (hread : crcOf reading = .ok crc) :
    Checks reading crc := by
  cases reading with
  | cannotOpen =>
      cases hread
      exact .cannotOpen
  | noSize =>
      cases hread
      exact .noSize
  | noMemory => cases hread
  | shortRead =>
      cases hread
      exact .shortRead
  | contents contents =>
      cases hcrc : Checksum.memcrc contents (BitVec.ofNat 64 contents.length) with
      | none => simp [crcOf, hcrc] at hread
      | some crcValue =>
          simp only [crcOf, hcrc, Except.ok.injEq] at hread
          rw [← hread]
          exact .contents contents crcValue hcrc

-- A file whose length fits is encrypted as a whole, and its text has no null.
theorem carries_of_fileRequest (crypto : CryptoPP) (completion : Completion) (path : List UInt8)
    (clientId : ClientId)
    (buffer : Buffer (4 + 255 + (completion.encrypted_content crypto).length + 1))
    (payload : {payload : List UInt8 //
      4 + 255 + (completion.encrypted_content crypto).length ≤ payload.length})
    (hpayload : payload.val = fillPayloadBuffer path (completion.encrypted_content crypto) buffer.val)
    (hfile : completion.file = ProtocolHandler.fileRequest clientId _ payload) :
    completion.Carries crypto path := by
  intro hplain hsize
  have hcontent : completion.encrypted_content crypto = completion.ciphertext crypto := by
    rw [encrypted_content, ciphertext, CryptoHandler.encryptedContent,
      encryptedPart_of_small _ hplain]
  have hnull : 0 ∉ completion.encrypted_content crypto := by
    rw [hcontent]
    exact null_notMem_hex _
  rw [← hcontent] at hsize ⊢
  obtain ⟨hlength, htake⟩ := fileRequest_payload path _ clientId buffer payload hpayload hnull hsize
  rw [hfile, hlength, htake, word_of_lt _ (by omega)]

end Completion

namespace ProtocolHandler

variable {crypto : CryptoPP} {self : ProtocolHandler} {clientId : ClientId} {trace : Trace}

-- The loop returns true only from a round in which the checksums agree.
theorem Retries.checked {file : Request} {maxRetries : Nat} {failed : List Trace}
    (hretries : Retries self file clientId maxRetries failed trace (.ok true)) :
    ∃ received crc reading buffer confirmation,
      [sent file, got received, ⟨.ifstreamAte self.filePath, reading⟩,
        sent (self.statusRequest clientId CRC_CORRECT buffer), got confirmation].Sublist trace ∧
      received.code = FILE_RECEIVED_CRC_OK ∧ trailingCRC received.payload = some crc ∧
      crcOf reading = .ok crc ∧ confirmation.code = CONFIRM_MSG := by
  cases hretries with
  | settled last status hfailed hlength hlast =>
      generalize hresult : (.ok (some true) : Except Stop (Option Bool)) = result at hlast
      cases hlast with
      | other => cases hresult
      | short => cases hresult
      | unread => cases hresult
      | mismatched => cases hresult
      | matched received crc reading buffer reply hcode hcrc hread =>
          have hreply : reply.code = CONFIRM_MSG := by simpa using hresult.symm
          refine ⟨received, crc, reading, buffer, reply, ?_, hcode, hcrc, hread, hreply⟩
          refine List.Sublist.trans ?_ (List.sublist_append_right _ _)
          simp [status]

-- The events behind the keys leave both files as they are written.
theorem holds_after_answered (crypto : CryptoPP) (self : ProtocolHandler) (clientId : ClientId)
    (keys : KeyPair)
    (keyCount infoCount : Nat) (disk : Disk)
    (buffer : Buffer (NAME_FIELD_SIZE + keys.publicKey.length)) (answer : Response)
    (hwrites : ∀ event ∈ keysWritten crypto self clientId keys keyCount infoCount,
      getsThrough event = true) :
    (disk.after (keysWritten crypto self clientId keys keyCount infoCount ++
      [sent (self.pubkeyRequest clientId keys.publicKey buffer), got answer])).Holds
        crypto self clientId keys := by
  rw [Disk.after_append, Disk.after_silent _ [sent _, got _] (by simp)]
  exact holds_after_keysWritten crypto self clientId keys keyCount infoCount disk hwrites

theorem Approved.completes (happroved : Approved crypto self clientId trace (.ok true)) :
    ∃ completion : Completion, completion.Completes crypto self clientId trace := by
  cases happroved with
  | keyed first answer privateKey rest outcome hkeying hcode hlength hsending =>
      have hkept (disk : Disk) : disk.after rest = disk := by
        refine Disk.after_silent disk rest fun event hevent path content => ?_
        have hop := hsending.ops event hevent
        exact ⟨fun h => by rw [h] at hop; exact hop, fun h => by rw [h] at hop; exact hop⟩
      cases hkeying with
      | offered keys buffer answer keyCount infoCount =>
          cases hsending with
          | sending aes_key contents iv made payload failed loop outcome hkey hpayload hretries =>
              obtain ⟨received, crc, reading, report, confirmation, hloop, hreceived, hcrc, hread,
                hconfirmed⟩ :=
                hretries.checked
              let completion : Completion :=
                { keys, offer := self.pubkeyRequest clientId keys.publicKey buffer, keyed := answer, aes_key,
                  contents, iv, file := ProtocolHandler.fileRequest clientId _ payload, received, reading,
                  verdict := self.statusRequest clientId CRC_CORRECT report, confirmation }
              have hcarried := Completion.carries_of_fileRequest crypto completion self.filePath
                clientId made payload
                hpayload rfl
              have hchecks := Completion.checks_of_crcOf reading crc hread
              refine ⟨completion, ?_, ⟨buffer, rfl⟩, ⟨hcode, hlength⟩, hkey,
                ⟨rfl, rfl, made, hpayload⟩, hcarried, hreceived, ⟨crc, hcrc, hchecks⟩,
                ⟨report, rfl⟩, hconfirmed, fun hwrites disk => ?_⟩
              · refine List.Sublist.append ?_ (List.Sublist.append ?_ hloop)
                · exact (List.Sublist.refl [_]).append
                    (List.sublist_append_right [_, _, _, _, _] [_, _])
                · simp [Completion.encrypting, completion]
              · rw [Disk.after_append, hkept, Disk.after_append]
                refine holds_after_answered crypto self clientId keys keyCount infoCount _ buffer answer ?_
                intro event hevent
                exact hwrites event (List.mem_append_left _
                  (List.mem_append_right _ (List.mem_append_left _ hevent)))

end ProtocolHandler

-- Behind an answer that lets the client in, the transfer of this file has come through.
def Completed (crypto : CryptoPP) (path : List UInt8) (trace : Trace) : Prop :=
  ∃ (self : ProtocolHandler) (opening : Request) (approval : Response) (clientId : ClientId)
    (past rest : Trace) (completion : Completion), self.filePath = path ∧
      trace = past ++ sent opening :: got approval :: rest ∧ Approves (opening, approval) ∧
      opening.payload = nameField self.clientName ∧ GivenId approval.payload clientId ∧
      completion.Completes crypto self clientId rest

theorem Completed.prepend {crypto : CryptoPP} {path : List UInt8} {trace : Trace}
    (hcompleted : Completed crypto path trace)
    (first : Trace) : Completed crypto path (first ++ trace) := by
  obtain ⟨self, opening, approval, clientId, past, rest, completion, hpath, rfl, hcompletes⟩ :=
    hcompleted
  exact ⟨self, opening, approval, clientId, first ++ past, rest, completion,
    hpath, by simp, hcompletes⟩

section Flows

variable {crypto : CryptoPP} {self : ProtocolHandler} {trace : Trace}

theorem completed_of_approved {requestCode : UInt16} {buffer : ClientId} {answer : Response}
    (happroves : Approves (self.connectionRequest requestCode, answer))
    (happroved : Approved crypto self (storeClientId buffer answer.payload) trace (.ok true)) :
    Completed crypto self.filePath (self.asked requestCode buffer answer ++ trace) := by
  obtain ⟨completion, hcompletes⟩ := happroved.completes
  exact ⟨self, self.connectionRequest requestCode, answer, _, [⟨.newArray 16, buffer⟩], trace,
    completion, rfl, by simp [asked], happroves, self.connectionRequest_payload requestCode,
    storeClientId_given buffer _, hcompletes⟩

theorem ProtocolHandler.Registration.completed
    (hregistration : Registration crypto self trace (.ok true)) :
    Completed crypto self.filePath trace := by
  cases hregistration with
  | approved buffer answer rest outcome hcode happroved =>
      exact completed_of_approved (.inl ⟨rfl, hcode⟩) happroved

theorem ProtocolHandler.Reconnection.completed
    (hreconnection : Reconnection crypto self trace (.ok true)) :
    Completed crypto self.filePath trace := by
  cases hreconnection with
  | rejected buffer answer rest outcome hcode hregistration =>
      exact hregistration.completed.prepend _
  | approved buffer answer rest outcome hcode happroved =>
      exact completed_of_approved (.inr ⟨rfl, hcode⟩) happroved

theorem completed_of_registers
    (hruns : (self.connecting (self.handleRegistration crypto)).Runs trace (.ok true)) :
    Completed crypto self.filePath trace := by
  rw [runs_connecting] at hruns
  rcases hruns with ⟨_, hfalse⟩ | ⟨_, hfalse⟩ | ⟨rest, rfl, hflow⟩
  · cases hfalse
  · cases hfalse
  · exact (self.handleRegistration_registration crypto rest _ hflow).completed.prepend _

theorem completed_of_reconnects
    (hruns : (self.connecting (self.handleReconnection crypto)).Runs trace (.ok true)) :
    Completed crypto self.filePath trace := by
  rw [runs_connecting] at hruns
  rcases hruns with ⟨_, hfalse⟩ | ⟨_, hfalse⟩ | ⟨rest, rfl, hflow⟩
  · cases hfalse
  · cases hfalse
  · exact (self.handleReconnection_reconnection crypto rest _ hflow).completed.prepend _

end Flows

-- What it means that the client says true, whoever the server is: it was let in under a name, its
-- key was taken, and the file that transfer.info names was sent, encrypted under the AES key
-- that the server had chosen, until the server's checksum was what `readCrc` gave, and the server has
-- confirmed this; everything under the id that the server gave, which is stored with the key.
theorem handleClient_completes (crypto : CryptoPP) (trace : Trace)
    (hruns : (handleClient crypto).Runs trace (.ok true)) :
    ∃ contents info, trace.head? = some ⟨.ifstream TRANSFER_INFO_PATH, some contents⟩ ∧
      FileHandler.transferInfoOf contents = .ok info ∧ Completed crypto info.filePath trace := by
  have hconfigured := handleClient_configured crypto trace _ hruns
  generalize houtcome' : (.ok true : Except Stop Bool) = outcome at hconfigured
  cases hconfigured with
  | unopened stop => cases houtcome'
  | rejected contents exception hinfo => cases houtcome'
  | unknown contents info rest outcome hinfo hfallback =>
      subst houtcome'
      exact ⟨contents, info, rfl, hinfo, (completed_of_registers hfallback).prepend _⟩
  | known contents lines info self rest outcome hinfo hself hknown houtcome =>
      subst houtcome'
      have hpath : self.filePath = info.filePath := by
        rw [hself]
        rfl
      refine ⟨contents, info, rfl, hinfo, ?_⟩
      rw [← hpath]
      exact (completed_of_reconnects hknown).prepend _
  | failed contents lines info self first rest what outcome hinfo hself hknown hfallback =>
      subst houtcome'
      refine ⟨contents, info, rfl, hinfo, ?_⟩
      rw [List.append_assoc]
      exact ((completed_of_registers hfallback).prepend first).prepend _

theorem handleClient_completes_known :
    ∃ run contents info, run = (handleClient Sample.crypto).exec World.handler (Sample.approving (some [])) ∧
      run.trace.head? = some ⟨.ifstream TRANSFER_INFO_PATH, some contents⟩ ∧
      FileHandler.transferInfoOf contents = .ok info ∧
      Completed Sample.crypto info.filePath run.trace := by
  have hruns :=
    Prog.exec_runs World.handler (handleClient Sample.crypto) (Sample.approving (some []))
  have houtcome : ((handleClient Sample.crypto).exec World.handler (Sample.approving (some []))).outcome =
      .ok true := by
    decide +kernel
  rw [houtcome] at hruns
  obtain ⟨contents, info, hhead, hinfo, hcompleted⟩ := handleClient_completes Sample.crypto _ hruns
  exact ⟨_, contents, info, rfl, hhead, hinfo, hcompleted⟩

end TransferClient
