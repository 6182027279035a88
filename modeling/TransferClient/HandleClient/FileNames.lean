import TransferClient.HandleClient.Flow
import TransferClient.ProtocolHandler.FileSizes
import TransferClient.ProtocolHandler.Verdict

namespace TransferClient

open Interaction Bytes Client ServerRequests ServerResponses

-- The name that a receiver finds in the payload of SEND_FILE, and in the one of a report
-- on the file.
def Request.fileName (request : Request) : List UInt8 :=
  cString (((request.payload.take request.payloadSize.toNat).drop 4).take 255)

def Request.reportedName (request : Request) : List UInt8 :=
  cString (request.payload.take request.payloadSize.toNat)

-- The two names of a run are the same.
def NamesAgree (trace : Trace) : Prop :=
  ∀ file ∈ requests trace, file.code = SEND_FILE →
    ∀ report ∈ requests trace, StatusCode report.code → file.fileName = report.reportedName

def Reported (trace : Trace) : Prop :=
  SEND_FILE ∈ codes trace ∧ ∃ code ∈ codes trace, StatusCode code

-- The file that a run has read as a whole, last of all.
def lastRead (trace : Trace) : Option (List UInt8) :=
  fileRead trace.reverse

-- The bytes of the path that there is room for in the request for a file of this length,
-- and in a report: both sizes are taken modulo 2 ^ 32.
def fieldRoom (length : Nat) : Nat :=
  min ((259 + encryptedSize (length % 2 ^ 32)) % 2 ^ 32 - 4) 255

def reportRoom (path : List UInt8) : Nat :=
  (path.length + 1) % 2 ^ 32

-- As much of the path goes into one as into the other.
def NameKept (path : List UInt8) (length : Nat) : Prop :=
  min (fieldRoom length) (cString path).length = min (reportRoom path) (cString path).length

instance (path : List UInt8) (length : Nat) : Decidable (NameKept path length) :=
  inferInstanceAs (Decidable (_ = _))

-- Without sizes beyond 4 GiB, this is the width of the name field.
theorem nameKept_iff (path : List UInt8) (length : Nat) (hpath : path.length + 1 < 2 ^ 32)
    (hfits : 259 + encryptedSize length < 2 ^ 32) :
    NameKept path length ↔ (cString path).length ≤ 255 := by
  have hlength : length < 2 ^ 32 := by
    unfold encryptedSize at hfits
    omega
  have hroom : 255 ≤ 259 + encryptedSize length - 4 := by omega
  have hstring : (cString path).length ≤ path.length := (List.takeWhile_prefix _).length_le
  rw [NameKept, fieldRoom, reportRoom, Nat.mod_eq_of_lt hlength, Nat.mod_eq_of_lt hfits,
    Nat.mod_eq_of_lt hpath]
  omega

theorem fileName_of_payload (request : Request) (path size rest : List UInt8)
    (hsize : size.length = 4) (hpayload : request.payload = size ++ strncpy path 255 ++ rest) :
    request.fileName = (cString path).take (min (request.payloadSize.toNat - 4) 255) := by
  have hfield : (request.payload.drop 4).take 255 = strncpy path 255 := by
    rw [hpayload, List.append_assoc, List.drop_left' hsize, List.take_left' (length_strncpy _ _)]
  rw [Request.fileName, List.drop_take, List.take_take, Nat.min_comm, ← List.take_take, hfield,
    cString_take, cString_strncpy, List.take_take]

theorem reportedName_of_payload (request : Request) (path rest : List UInt8)
    (hpayload : request.payload = strcpy path ++ rest) :
    request.reportedName = (cString path).take request.payloadSize.toNat := by
  rw [Request.reportedName, cString_take, hpayload, cString_strcpy_append]

namespace ProtocolHandler

variable {crypto : CryptoPP} {self : ProtocolHandler} {clientId : ClientId}

theorem statusRequest_name (code : UInt16) (buffer : Buffer (self.filePath.length + 1)) :
    (self.statusRequest clientId code buffer).reportedName =
      (cString self.filePath).take (reportRoom self.filePath) := by
  have hpayload : (self.statusRequest clientId code buffer).payload =
      strcpy self.filePath ++ buffer.val.drop (0 + (strcpy self.filePath).length) := by
    show write buffer.val 0 (strcpy self.filePath) = _
    rw [write, List.take_zero, List.nil_append]
  have hsize : (self.statusRequest clientId code buffer).payloadSize.toNat =
      reportRoom self.filePath :=
    UInt32.toNat_ofNat'
  rw [reportedName_of_payload _ _ _ hpayload, hsize]

theorem fileRequest_name
    (hcbcLength : ∀ key iv plain, key.length = 16 → iv.length = 16 →
      (crypto.cbcEncryption key iv plain).length = 16 * (plain.length / 16 + 1))
    (path p aes_key : List UInt8) (hkey : aes_key.length = 16) (iv : Buffer 16)
    (buffer : Buffer (4 + 255 + (CryptoHandler.encryptedContent crypto p aes_key iv).length + 1))
    (payload : {payload : List UInt8 //
      4 + 255 + (CryptoHandler.encryptedContent crypto p aes_key iv).length ≤ payload.length})
    (hpayload : payload.val = fillPayloadBuffer path (CryptoHandler.encryptedContent crypto p aes_key iv)
      buffer.val) :
    (ProtocolHandler.fileRequest clientId _ payload).fileName = (cString path).take (fieldRoom p.length) := by
  have hpart : (CryptoHandler.encryptedPart p).length = p.length % 2 ^ 32 := by
    have hword : (UInt32.ofNat p.length).toNat = p.length % 2 ^ 32 := UInt32.toNat_ofNat'
    rw [CryptoHandler.encryptedPart, hword, List.length_take_of_le (Nat.mod_le _ _)]
  have hlength : (CryptoHandler.encryptedContent crypto p aes_key iv).length =
      encryptedSize (p.length % 2 ^ 32) := by
    rw [CryptoHandler.encryptedContent, length_hex, List.length_append, iv.property,
      hcbcLength aes_key iv.val _ hkey iv.property, hpart]
    rfl
  have hsize : (ProtocolHandler.fileRequest clientId _ payload).payloadSize.toNat =
      (259 + encryptedSize (p.length % 2 ^ 32)) % 2 ^ 32 := by
    rw [← hlength]
    exact UInt32.toNat_ofNat'
  have hnull : 0 ∉ CryptoHandler.encryptedContent crypto p aes_key iv := null_notMem_hex _
  have hfields := hpayload.trans (fillPayloadBuffer_eq path _ buffer hnull)
  rw [fileName_of_payload _ path _ _ (length_bigEndian _ _) hfields, hsize]
  rfl

-- The requests of a transfer: the file and the reports on it.
def Transfers : Op → Prop
  | .sendRequest request => request.code = SEND_FILE ∨ StatusCode request.code
  | _ => False

-- A run has at most one transfer, and that is its last part.
inductive Transferring (crypto : CryptoPP) (self : ProtocolHandler) :
    Trace → Except Stop Bool → Prop where
  | quiet (trace : Trace) (outcome : Except Stop Bool) (hquiet : ∀ event ∈ trace, ¬Transfers event.op) :
      Transferring crypto self trace outcome
  | sending (before rest : Trace) (outcome : Except Stop Bool) (encrypted_aes_key privateKey : List UInt8)
      (clientId : ClientId) (hquiet : ∀ event ∈ before, ¬Transfers event.op)
      (hsending : FileSending crypto self encrypted_aes_key privateKey clientId rest outcome) :
      Transferring crypto self (before ++ rest) outcome

theorem Transferring.append_left {first rest : Trace} {outcome : Except Stop Bool}
    (htransferring : Transferring crypto self rest outcome)
    (hfirst : ∀ event ∈ first, ¬Transfers event.op) :
    Transferring crypto self (first ++ rest) outcome := by
  cases htransferring with
  | quiet _ _ hquiet => exact .quiet _ _ (List.forall_mem_append.mpr ⟨hfirst, hquiet⟩)
  | sending before last _ encrypted_aes_key privateKey clientId hquiet hsending =>
      rw [← List.append_assoc]
      exact .sending _ last _ encrypted_aes_key privateKey clientId
        (List.forall_mem_append.mpr ⟨hfirst, hquiet⟩) hsending

theorem Keying.quiet {trace : Trace} {result : Except Stop (Response × List UInt8)}
    (hkeying : Keying crypto self clientId trace result) :
    ∀ event ∈ trace, ¬Transfers event.op := by
  intro event he
  have hop := hkeying.ops event he
  obtain ⟨op, answer⟩ := event
  cases op with
  | sendRequest request =>
      have hcode : request.code = SEND_PUBLIC_KEY := hop
      rw [Transfers, hcode]
      decide
  | _ => exact fun h => h

theorem Approved.transferring {trace : Trace} {outcome : Except Stop Bool}
    (happroved : Approved crypto self clientId trace outcome) :
    Transferring crypto self trace outcome := by
  cases happroved with
  | unkeyed trace stop hkeying => exact .quiet _ _ hkeying.quiet
  | refused trace answer privateKey hkeying hcode => exact .quiet _ _ hkeying.quiet
  | short trace answer privateKey hkeying hcode hlength => exact .quiet _ _ hkeying.quiet
  | keyed trace answer privateKey rest outcome hkeying hcode hlength hsending =>
      exact .sending trace rest outcome _ privateKey clientId hkeying.quiet hsending

theorem asked_quiet (self : ProtocolHandler) (requestCode : UInt16)
    (hcode : ¬(requestCode = SEND_FILE ∨ StatusCode requestCode))
    (buffer : ClientId) (answer : Response) :
    ∀ event ∈ self.asked requestCode buffer answer, ¬Transfers event.op := by
  have hrequest : ¬Transfers (.sendRequest (self.connectionRequest requestCode)) := hcode
  simp only [asked, List.forall_mem_cons]
  exact ⟨fun h => h, hrequest, fun h => h, by simp⟩

theorem Registration.transferring {trace : Trace} {outcome : Except Stop Bool}
    (hregistration : Registration crypto self trace outcome) :
    Transferring crypto self trace outcome := by
  have hasked := self.asked_quiet REGISTRATION (by decide)
  cases hregistration with
  | refused buffer answer hcode => exact .quiet _ _ (hasked buffer answer)
  | approved buffer answer rest outcome hcode happroved =>
      exact happroved.transferring.append_left (hasked buffer answer)

theorem Reconnection.transferring {trace : Trace} {outcome : Except Stop Bool}
    (hreconnection : Reconnection crypto self trace outcome) :
    Transferring crypto self trace outcome := by
  have hasked := self.asked_quiet RECONNECT (by decide)
  cases hreconnection with
  | rejected buffer answer rest outcome hcode hregistration =>
      exact hregistration.transferring.append_left (hasked buffer answer)
  | refused buffer answer hreject happrove => exact .quiet _ _ (hasked buffer answer)
  | approved buffer answer rest outcome hcode happroved =>
      exact happroved.transferring.append_left (hasked buffer answer)

-- A file that does not open is the one runtime error of a transfer, and it comes before
-- anything is sent.
theorem Transferring.quiet_of_runtimeError {trace : Trace} {what : List UInt8}
    (htransferring : Transferring crypto self trace (.error (.thrown (.runtimeError what)))) :
    ∀ event ∈ trace, ¬Transfers event.op := by
  generalize houtcome : (.error (.thrown (.runtimeError what)) : Except Stop Bool) = outcome at htransferring
  cases htransferring with
  | quiet _ _ hquiet => exact hquiet
  | sending before rest _ encrypted_aes_key privateKey clientId hquiet hsending =>
      refine List.forall_mem_append.mpr ⟨hquiet, ?_⟩
      cases hsending with
      | noAesKey => cases houtcome
      | noFile aes_key => simp [Transfers]
      | wrongKey aes_key contents hlength => cases houtcome
      | noBlock aes_key contents hlength => cases houtcome
      | sending aes_key contents iv buffer payload failed trace outcome hlength hpayload hretries =>
          cases hretries with
          | exhausted buffer reply hfailed hcount => cases houtcome
          | settled last status hfailed hcount hlast => cases houtcome
          | stopped last stop hfailed hcount hlast =>
              cases houtcome
              cases hlast with
              | unread answer received reading stop hcode hcrc hread =>
                  rcases crcOf_error hread with h | h <;> cases h

theorem Transferring.of_connecting {flow : Client Bool}
    {trace : Trace} {outcome : Except Stop Bool} (hruns : (self.connecting flow).Runs trace outcome)
    (hflow : ∀ rest outcome, flow.Runs rest outcome → Transferring crypto self rest outcome) :
    Transferring crypto self trace outcome := by
  rw [runs_connecting] at hruns
  rcases hruns with ⟨rfl, rfl⟩ | ⟨rfl, rfl⟩ | ⟨rest, rfl, hrest⟩
  · exact .quiet _ _ (by simp [Transfers])
  · exact .quiet _ _ (by simp [Transfers])
  · exact (hflow rest outcome hrest).append_left (by simp [Transfers])

end ProtocolHandler

open ProtocolHandler

-- The transfer of a run of the client is that of the file in transfer.info.
theorem handleClient_transferring (crypto : CryptoPP) (trace : Trace) (outcome : Except Stop Bool)
    (hruns : (handleClient crypto).Runs trace outcome) (contents : List UInt8) (info : TransferInfo)
    (hconfiguration : trace.head? = some ⟨.ifstream TRANSFER_INFO_PATH, some contents⟩)
    (hinfo : FileHandler.transferInfoOf contents = .ok info) :
    ∃ self : ProtocolHandler, self.filePath = info.filePath ∧
      Transferring crypto self trace outcome := by
  have hregister (self : ProtocolHandler) (rest : Trace) (outcome : Except Stop Bool)
      (hruns : (self.connecting (self.handleRegistration crypto)).Runs rest outcome) :
      Transferring crypto self rest outcome :=
    .of_connecting hruns fun rest outcome hflow =>
      (self.handleRegistration_registration crypto rest outcome hflow).transferring
  have hreconnect (self : ProtocolHandler) (rest : Trace) (outcome : Except Stop Bool)
      (hruns : (self.connecting (self.handleReconnection crypto)).Runs rest outcome) :
      Transferring crypto self rest outcome :=
    .of_connecting hruns fun rest outcome hflow =>
      (self.handleReconnection_reconnection crypto rest outcome hflow).transferring
  rcases handleClient_accepted hruns hconfiguration hinfo with ⟨rest, rfl, hfallback⟩ |
    ⟨lines, name, rest, rfl, hknown⟩ | ⟨lines, name, first, rest, what, rfl, hknown, hfallback⟩
  · exact ⟨_, rfl, (hregister _ rest outcome hfallback).append_left (by simp [Transfers])⟩
  · exact ⟨_, rfl, (hreconnect _ rest outcome hknown).append_left (by simp [Transfers])⟩
  · have hquiet := (hreconnect _ first _ hknown).quiet_of_runtimeError
    refine ⟨_, rfl, (hregister _ rest outcome hfallback).append_left ?_⟩
    exact List.forall_mem_append.mpr ⟨by simp [Transfers], hquiet⟩

theorem lastRead_append (first rest : Trace) :
    lastRead (first ++ rest) = (lastRead rest).or (lastRead first) := by
  rw [lastRead, List.reverse_append, fileRead, List.findSome?_append]
  rfl

theorem lastRead_of_silent {trace : Trace}
    (hsilent : ∀ event ∈ trace, ∀ path, event.op ≠ .ifstream path) :
    lastRead trace = none := by
  rw [lastRead, fileRead, List.findSome?_eq_none_iff]
  intro event he
  have hop := hsilent event (List.mem_reverse.mp he)
  obtain ⟨op, answer⟩ := event
  cases op with
  | ifstream path => exact absurd rfl (hop path)
  | _ => rfl

namespace ProtocolHandler

variable {crypto : CryptoPP} {self : ProtocolHandler} {clientId : ClientId}

theorem Retries.reportedName {file : Request} (hfile : file.code = SEND_FILE) {maxRetries : Nat}
    {failed : List Trace} {trace : Trace} {outcome : Except Stop Bool}
    (hretries : Retries self file clientId maxRetries failed trace outcome) (report : Request)
    (hsent : sent report ∈ trace) (hcode : StatusCode report.code) :
    report.reportedName = (cString self.filePath).take (reportRoom self.filePath) := by
  rcases hretries.ops _ hsent with rfl | ⟨code, buffer, hstatus, rfl⟩
  · exact absurd hfile hcode.ne.2.2.2
  · exact statusRequest_name code buffer

-- Both names are parts of the path, as long as there is room.
theorem Transferring.names
    (hcbcLength : ∀ key iv plain, key.length = 16 → iv.length = 16 →
      (crypto.cbcEncryption key iv plain).length = 16 * (plain.length / 16 + 1))
    {trace : Trace} {outcome : Except Stop Bool}
    (htransferring : Transferring crypto self trace outcome)
    (file : Request) (hfile : sent file ∈ trace) (hfileCode : file.code = SEND_FILE) :
    ∃ p, lastRead trace = some p ∧
      file.fileName = (cString self.filePath).take (fieldRoom p.length) ∧
      ∀ report, sent report ∈ trace → StatusCode report.code →
        report.reportedName = (cString self.filePath).take (reportRoom self.filePath) := by
  cases htransferring with
  | quiet _ _ hquiet => exact absurd (.inl hfileCode) (hquiet _ hfile)
  | sending before rest _ encrypted_aes_key privateKey clientId hquiet hsending =>
      have hrest (request : Request) (hsent : sent request ∈ before ++ rest)
          (hcode : request.code = SEND_FILE ∨ StatusCode request.code) : sent request ∈ rest := by
        rcases List.mem_append.mp hsent with hbefore | hrest
        · exact absurd hcode (hquiet _ hbefore)
        · exact hrest
      have hfileRest := hrest file hfile (.inl hfileCode)
      cases hsending with
      | noAesKey => simp at hfileRest
      | noFile aes_key => simp at hfileRest
      | wrongKey aes_key contents hlength => simp at hfileRest
      | noBlock aes_key contents hlength => simp at hfileRest
      | sending aes_key contents iv buffer payload failed loop outcome hlength hpayload hretries =>
          refine ⟨contents, ?_, ?_, ?_⟩
          · rw [lastRead_append, lastRead_append, lastRead_of_silent hretries.op_ne_ifstream]
            rfl
          · rw [hretries.file_only file (by simpa using hfileRest) hfileCode]
            exact fileRequest_name hcbcLength self.filePath contents aes_key hlength iv buffer
              payload hpayload
          · intro report hsent hcode
            have hloop := hrest report hsent (.inr hcode)
            exact hretries.reportedName rfl report (by simpa using hloop) hcode

end ProtocolHandler

-- A receiver sees one name in a run exactly when as much of the path goes into the field
-- as into the reports.
theorem namesAgree_iff (crypto : CryptoPP)
    (hcbcLength : ∀ key iv plain, key.length = 16 → iv.length = 16 →
      (crypto.cbcEncryption key iv plain).length = 16 * (plain.length / 16 + 1))
    (trace : Trace) (outcome : Except Stop Bool) (hruns : (handleClient crypto).Runs trace outcome)
    (contents : List UInt8) (info : TransferInfo)
    (hconfiguration : trace.head? = some ⟨.ifstream TRANSFER_INFO_PATH, some contents⟩)
    (hinfo : FileHandler.transferInfoOf contents = .ok info) :
    NamesAgree trace ↔
      (Reported trace → ∀ p, lastRead trace = some p → NameKept info.filePath p.length) := by
  obtain ⟨self, hpath, htransferring⟩ :=
    handleClient_transferring crypto trace outcome hruns contents info hconfiguration hinfo
  rw [← hpath]
  constructor
  · rintro hagree ⟨hfile, code, hreport, hstatus⟩ p hread
    obtain ⟨file, hsent, hfileCode⟩ := (mem_codes _ _).mp hfile
    obtain ⟨report, hsent', rfl⟩ := (mem_codes _ _).mp hreport
    obtain ⟨p', hread', hname, hreports⟩ := htransferring.names hcbcLength file hsent hfileCode
    have heq := hagree file ((mem_requests _ _).mpr hsent) hfileCode report ((mem_requests _ _).mpr hsent')
      hstatus
    rw [hread, Option.some.injEq] at hread'
    rw [hname, hreports report hsent' hstatus, ← hread', List.take_eq_take_iff] at heq
    exact heq
  · intro hkept file hfile hfileCode report hreport hstatus
    have hsent := (mem_requests _ _).mp hfile
    have hsent' := (mem_requests _ _).mp hreport
    obtain ⟨p, hread, hname, hreports⟩ := htransferring.names hcbcLength file hsent hfileCode
    have hreported : Reported trace :=
      ⟨(mem_codes _ _).mpr ⟨file, hsent, hfileCode⟩, report.code, (mem_codes _ _).mpr ⟨report, hsent', rfl⟩,
        hstatus⟩
    rw [hname, hreports report hsent' hstatus, List.take_eq_take_iff]
    exact hkept hreported p hread

namespace Sample

-- The machine of a known client, with this path in transfer.info.
def transferringPath (path : List UInt8) : Machine :=
  { machine with
    files := fun asked =>
      if asked = TRANSFER_INFO_PATH then
        some (text "127.0.0.1:8080" ++ [10] ++ text "name" ++ [10] ++ path)
      else if asked = ME_INFO_PATH then some (text "name")
      else some [] }

def naming (path : List UInt8) : World :=
  World.serving (approval 2105 :: transferring) fun _ => (transferringPath path).replies

-- The run begins with that file.
theorem naming_configuration (path : List UInt8) :
    ((handleClient crypto).exec World.handler (naming path)).trace.head? =
      some ⟨.ifstream TRANSFER_INFO_PATH,
        some (text "127.0.0.1:8080" ++ [10] ++ text "name" ++ [10] ++ path)⟩ := by
  have hhead : ((handleClient crypto).exec World.handler (naming path)).trace.head? =
      some ⟨.ifstream TRANSFER_INFO_PATH, (transferringPath path).files TRANSFER_INFO_PATH⟩ := rfl
  have hfile : (transferringPath path).files TRANSFER_INFO_PATH =
      some (text "127.0.0.1:8080" ++ [10] ++ text "name" ++ [10] ++ path) := by
    simp only [transferringPath, if_true]
  rw [hhead, hfile]

end Sample

theorem namesAgree_short_path :
    NamesAgree ((handleClient Sample.crypto).exec World.handler (Sample.naming (text "file"))).trace := by
  have hread : lastRead ((handleClient Sample.crypto).exec World.handler
      (Sample.naming (text "file"))).trace = some [] := by decide +kernel
  refine (namesAgree_iff Sample.crypto (fun _ _ plain _ _ => Sample.length_cipher plain) _ _
    (Prog.exec_runs _ _ _) (text "127.0.0.1:8080" ++ [10] ++ text "name" ++ [10] ++ text "file")
    ⟨text "127.0.0.1", 8080, text "name", text "file"⟩ (Sample.naming_configuration _) (by decide +kernel)).mpr ?_
  intro _ p hp
  rw [hread, Option.some.injEq] at hp
  rw [← hp]
  decide

-- A path of 256 bytes that a file system takes, one byte more than the field holds: the
-- file "file" in the directory "d", behind 125 times "./".
def Sample.longPath : List UInt8 :=
  text "d/" ++ (List.replicate 125 (text "./")).flatten ++ text "file"

theorem names_of_long_path :
    let run := (handleClient Sample.crypto).exec World.handler (Sample.naming Sample.longPath)
    (handleClient Sample.crypto).Runs run.trace run.outcome ∧ run.outcome = .ok true ∧
      run.trace.head? = some ⟨.ifstream TRANSFER_INFO_PATH,
        some (text "127.0.0.1:8080" ++ [10] ++ text "name" ++ [10] ++ Sample.longPath)⟩ ∧
      FileHandler.transferInfoOf
          (text "127.0.0.1:8080" ++ [10] ++ text "name" ++ [10] ++ Sample.longPath) =
        .ok ⟨text "127.0.0.1", 8080, text "name", Sample.longPath⟩ ∧
      ¬NamesAgree run.trace := by
  intro run
  refine ⟨Prog.exec_runs _ _ _, by decide +kernel, Sample.naming_configuration _, by decide +kernel, ?_⟩
  intro hagree
  have hfile : (requests run.trace)[2]?.map (fun request => (request.code, request.fileName)) =
      some (SEND_FILE, Sample.longPath.take 255) := by decide +kernel
  have hreport : (requests run.trace)[3]?.map (fun request => (request.code, request.reportedName)) =
      some (CRC_CORRECT, Sample.longPath) := by decide +kernel
  obtain ⟨file, hfile, hfileName⟩ := Option.map_eq_some_iff.mp hfile
  obtain ⟨report, hreport, hreportName⟩ := Option.map_eq_some_iff.mp hreport
  rw [Prod.mk.injEq] at hfileName hreportName
  have hstatus : StatusCode report.code := .inl hreportName.1
  have heq := hagree file (List.mem_of_getElem? hfile) hfileName.1 report
    (List.mem_of_getElem? hreport) hstatus
  rw [hfileName.2, hreportName.2] at heq
  exact absurd (congrArg List.length heq) (by decide +kernel)

end TransferClient
