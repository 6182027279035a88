import TransferClient.ProtocolHandler.RequestStream
import TransferClient.ProtocolHandler.Retry
import TransferClient.Server

namespace TransferClient

open Interaction Bytes Client ServerRequests ServerResponses

-- The last four bytes, whatever stands in front of them.
theorem trailingCRC_append (front : List UInt8) (value : Nat) :
    trailingCRC (front ++ littleEndian 4 value) = some (UInt32.ofNat (value % 256 ^ 4)) := by
  have hlength : (front ++ littleEndian 4 value).length = front.length + 4 := by
    rw [List.length_append, length_littleEndian]
  have hdrop : (front ++ littleEndian 4 value).drop (front.length + 4 - 4) =
      littleEndian 4 value := by
    rw [Nat.add_sub_cancel, List.drop_left]
  rw [trailingCRC, hlength, if_pos (Nat.le_add_left _ _), hdrop, fromLittleEndian_littleEndian]

-- The checksum of the standard is the one that the client computes.
theorem crcOf_cksum (contents : List UInt8) (hsmall : contents.length < 2 ^ 31) :
    crcOf (.contents contents) = .ok (UInt32.ofNat (Checksum.cksum contents).toNat) := by
  simp only [crcOf, Checksum.memcrc_eq contents hsmall]
  rw [BitVec.toNat_setWidth, Nat.mod_eq_of_lt]
  have hlt := (Checksum.cksum contents).isLt
  omega

theorem trailingCRC_cksum (front contents : List UInt8) :
    trailingCRC (front ++ littleEndian 4 (Checksum.cksum contents).toNat) =
      some (UInt32.ofNat (Checksum.cksum contents).toNat) := by
  rw [trailingCRC_append, Nat.mod_eq_of_lt]
  have hlt := (Checksum.cksum contents).isLt
  omega

namespace ProtocolHandler

variable {server : Server} {crypto : CryptoPP} {self : ProtocolHandler} {contents : List UInt8}

section Loop

variable {file : Request} {clientId : ClientId} {name : List UInt8}

-- A file that has arrived as it is confirmed in the round that sends it.
theorem Round.served (hfile : file.code = SEND_FILE)
    (hstored : server.stored file = some (name, contents))
    (hsmall : contents.length < 2 ^ 31) {round : Trace} {result : Except Stop (Option Bool)}
    (hround : Round self file clientId round result)
    (hcooperates : Cooperates server self.filePath contents round) :
    result = .ok (some true) ∧ codes round = [SEND_FILE, CRC_CORRECT] := by
  obtain ⟨hworks, _, hserves⟩ := hcooperates
  have hanswer (answer : Response) (future : Trace) (hsplit : round = sent file :: got answer :: future) :
      answer.code = FILE_RECEIVED_CRC_OK ∧
        trailingCRC answer.payload = some (UInt32.ofNat (Checksum.cksum contents).toNat) := by
    obtain ⟨hcode, front, hpayload⟩ := (hserves [] file answer future hsplit).file hfile _ hstored
    exact ⟨hcode, hpayload ▸ trailingCRC_cksum front contents⟩
  have hreading (reading : Reading) (hevent : ⟨.ifstreamAte self.filePath, reading⟩ ∈ round) :
      crcOf reading = .ok (UInt32.ofNat (Checksum.cksum contents).toNat) := by
    have hcontents : reading = .contents contents := hworks _ hevent rfl
    rw [hcontents, crcOf_cksum contents hsmall]
  cases hround with
  | other answer hcode => exact absurd (hanswer answer [] rfl).1 hcode
  | short answer hcode hcrc =>
      rw [(hanswer answer [] rfl).2] at hcrc
      cases hcrc
  | unread answer received reading stop hcode hcrc hread =>
      rw [hreading reading (by simp)] at hread
      cases hread
  | mismatched answer received calculated reading buffer reply hcode hcrc hread hne =>
      rw [(hanswer answer _ rfl).2, Option.some.injEq] at hcrc
      rw [hreading reading (by simp), Except.ok.injEq] at hread
      exact absurd (hcrc.symm.trans hread) hne
  | matched answer received reading buffer reply hcode hcrc hread =>
      have hreply := (hserves [sent file, got answer, ⟨.ifstreamAte self.filePath, reading⟩,
        ⟨.newArray (self.filePath.length + 1), buffer⟩] _ reply [] rfl).verdict rfl
      refine ⟨by simp [hreply], ?_⟩
      rw [codes_append, codes_status]
      simp [codes, requests, messages, hfile]

-- The loop ends in its first round.
theorem Retries.served (hfile : file.code = SEND_FILE)
    (hstored : server.stored file = some (name, contents)) (hsmall : contents.length < 2 ^ 31)
    {maxRetries : Nat} (hmax : 0 < maxRetries) {failed : List Trace} {trace : Trace}
    {outcome : Except Stop Bool}
    (hretries : Retries self file clientId maxRetries failed trace outcome)
    (hcooperates : Cooperates server self.filePath contents trace) :
    outcome = .ok true ∧ codes trace = [SEND_FILE, CRC_CORRECT] := by
  -- No round fails: the first one would have to.
  have hnone (hfailed : ∀ round ∈ failed, Round self file clientId round (.ok none)) (last : Trace)
      (hparts : Cooperates server self.filePath contents (failed.flatten ++ last)) : failed = [] := by
    cases failed with
    | nil => rfl
    | cons round rest =>
        rw [List.flatten_cons, List.append_assoc] at hparts
        obtain ⟨hresult, _⟩ :=
          (hfailed round (by simp)).served hfile hstored hsmall hparts.of_append_left
        cases hresult
  cases hretries with
  | exhausted buffer reply hfailed hlength =>
      rw [hnone hfailed _ hcooperates, List.length_nil] at hlength
      omega
  | settled last status hfailed hlength hlast =>
      have hnil := hnone hfailed _ hcooperates
      rw [hnil, List.flatten_nil, List.nil_append] at hcooperates ⊢
      obtain ⟨hresult, hcodes⟩ := hlast.served hfile hstored hsmall hcooperates
      cases hresult
      exact ⟨rfl, hcodes⟩
  | stopped last stop hfailed hlength hlast =>
      rw [hnone hfailed _ hcooperates, List.flatten_nil, List.nil_append] at hcooperates
      obtain ⟨hresult, _⟩ := hlast.served hfile hstored hsmall hcooperates
      cases hresult

end Loop

-- What the server makes of the request with the file.
theorem stored_fileRequest (self : ProtocolHandler) (hmatches : server.Matches crypto)
    (hbound : 259 + 2 * (16 + 16 * (contents.length / 16 + 1)) < 2 ^ 32) (clientId : ClientId)
    (iv : Buffer 16) (buffer : Buffer
      (4 + 255 + (CryptoHandler.encryptedContent crypto contents server.aesKey iv).length + 1))
    (payload : {payload : List UInt8 //
      4 + 255 + (CryptoHandler.encryptedContent crypto contents server.aesKey iv).length ≤ payload.length})
    (hpayload : payload.val = fillPayloadBuffer self.filePath
      (CryptoHandler.encryptedContent crypto contents server.aesKey iv) buffer.val) :
    server.stored (fileRequest clientId _ payload) = some ((cString self.filePath).take 255, contents) := by
  obtain ⟨hkey, hpadded, hinverse⟩ := hmatches
  obtain ⟨hcontent, hlength, hnull⟩ := encryptedContent_of_small crypto server.aesKey contents iv (by omega)
    (hpadded _ _ _ hkey iv.property)
  obtain ⟨hsize, htake⟩ := fileRequest_payload self.filePath _ clientId buffer payload hpayload hnull
    (by omega)
  have hreceive := receiveFile_payload self.filePath _ iv.val _ hcontent iv.property (by omega)
  rw [Server.stored, hsize, htake, hreceive]
  simp only [Option.bind_eq_bind, Option.bind_some, Option.pure_def,
    hinverse _ _ _ hkey iv.property]

-- The transfer, from the private key on.
theorem FileSending.served (hmatches : server.Matches crypto)
    (hbound : 259 + 2 * (16 + 16 * (contents.length / 16 + 1)) < 2 ^ 32)
    {encrypted_aes_key privateKey : List UInt8} {clientId : ClientId} {trace : Trace}
    {outcome : Except Stop Bool}
    (hsending : FileSending crypto self encrypted_aes_key privateKey clientId trace outcome)
    (hdecrypts : ∀ plain, ⟨.rsaDecrypt encrypted_aes_key privateKey, plain⟩ ∈ trace →
      plain = some server.aesKey)
    (hcooperates : Cooperates server self.filePath contents trace) :
    outcome = .ok true ∧ codes trace = [SEND_FILE, CRC_CORRECT] ∧
      ∀ request, sent request ∈ trace → request.code = SEND_FILE →
        server.stored request = some ((cString self.filePath).take 255, contents) := by
  have hfile (file : Option (List UInt8)) (hevent : ⟨.ifstream self.filePath, file⟩ ∈ trace) :
      file = some contents := hcooperates.works _ hevent rfl
  cases hsending with
  | noAesKey => cases hdecrypts none (by simp)
  | noFile aes_key => cases hfile none (by simp)
  | wrongKey aes_key plaintext hlength =>
      cases hdecrypts (some aes_key) (by simp)
      exact absurd hmatches.keyed hlength
  | noBlock aes_key plaintext hlength =>
      have hblock := hcooperates.works ⟨.generateBlock, none⟩ (by simp)
      cases hblock
  | sending aes_key plaintext iv buffer payload failed loop outcome hlength hpayload hretries =>
      cases hdecrypts (some aes_key) (by simp)
      cases hfile (some plaintext) (by simp)
      have hstored := self.stored_fileRequest hmatches hbound clientId iv buffer payload hpayload
      obtain ⟨houtcome, hcodes⟩ := hretries.served rfl hstored (by omega) (by omega)
        hcooperates.of_append_right
      refine ⟨houtcome, ?_, ?_⟩
      · rw [codes_append, hcodes]
        rfl
      · intro request hsent hcode
        rw [hretries.file_only request (by simpa using hsent) hcode, hstored]

-- The exchange of the keys brings the server's key, encrypted under the public key of the
-- pair that was made.
theorem Keying.served {clientId : ClientId} {trace : Trace}
    {result : Except Stop (Response × List UInt8)}
    (hkeying : Keying crypto self clientId trace result)
    (hcooperates : Cooperates server self.filePath contents trace) :
    ∃ (keys : KeyPair) (answer : Response), result = .ok (answer, keys.privateKey) ∧
      ⟨.generateKeyPair, some keys⟩ ∈ trace ∧ codes trace = [SEND_PUBLIC_KEY] ∧
      answer.code = RECEIVED_PUBLIC_KEY_SEND_AES ∧ 16 ≤ answer.payload.length ∧
      server.rsaEncrypts keys.publicKey (answer.payload.drop 16) := by
  have hopened (path : List UInt8) (opened : Bool) (hevent : ⟨.ofstream path, opened⟩ ∈ trace) :
      opened = true := hcooperates.works ⟨.ofstream path, opened⟩ hevent
  cases hkeying with
  | noKeys =>
      obtain ⟨pair, hpair, _⟩ := hcooperates.works ⟨.generateKeyPair, none⟩ (by simp)
      cases hpair
  | noKeyFile keys buffer => cases hopened PRIVATE_KEY_PATH false (by simp)
  | noMeInfo keys buffer => cases hopened ME_INFO_PATH false (by simp)
  | offered keys buffer answer keyCount infoCount =>
      obtain ⟨pair, hpair, hnull, hsmall⟩ :=
        hcooperates.works ⟨.generateKeyPair, some keys⟩ (by simp [keysMade])
      cases hpair
      obtain ⟨hcode, hlength, hkey⟩ := (hcooperates.serves (keysMade keys buffer ++
        [⟨.ofstream PRIVATE_KEY_PATH, true⟩, ⟨.put PRIVATE_KEY_PATH keys.privateKey, keyCount⟩,
          ⟨.ofstream ME_INFO_PATH, true⟩, ⟨.put ME_INFO_PATH
            (FileHandler.meInfo crypto self.clientName clientId keys.privateKey), infoCount⟩])
        (self.pubkeyRequest clientId keys.publicKey buffer) answer [] (by simp)).publicKey rfl
      have hexact := self.pubkeyRequest_exact clientId keys.publicKey buffer hnull hsmall
      have hoffered : Server.offeredKey (self.pubkeyRequest clientId keys.publicKey buffer) =
          keys.publicKey := by
        rw [Server.offeredKey, ← hexact, List.take_length,
          self.pubkeyRequest_payload clientId _ _ hnull]
        exact List.drop_left' (length_nameField _)
      rw [hoffered] at hkey
      refine ⟨keys, answer, rfl, by simp [keysMade], ?_, hcode, hlength, hkey⟩
      simp [codes, requests, messages, keysMade, pubkeyRequest]

-- The requests of a transfer that comes about, with the file that the server then has.
structure Transferred (server : Server) (path contents : List UInt8) (opening : List UInt16)
    (trace : Trace) (outcome : Except Stop Bool) : Prop where
  outcome : outcome = .ok true
  codes : codes trace = opening ++ [SEND_PUBLIC_KEY, SEND_FILE, CRC_CORRECT]
  stored : ∀ request, sent request ∈ trace → request.code = SEND_FILE →
    server.stored request = some ((cString path).take 255, contents)

-- Events in front that send only opening requests.
theorem Transferred.append_left {path : List UInt8} {opening : List UInt16} {trace : Trace}
    {outcome : Except Stop Bool}
    (htransferred : Transferred server path contents opening trace outcome)
    (first : Trace) (hfile : SEND_FILE ∉ TransferClient.codes first) :
    Transferred server path contents (TransferClient.codes first ++ opening) (first ++ trace) outcome := by
  refine ⟨htransferred.outcome, ?_, ?_⟩
  · rw [codes_append, htransferred.codes, List.append_assoc]
  · intro request hsent hcode
    rcases List.mem_append.mp hsent with hsent | hsent
    · exact absurd ((mem_codes _ _).mpr ⟨request, hsent, hcode⟩) hfile
    · exact htransferred.stored request hsent hcode

section Flows

variable (hmatches : server.Matches crypto)
  (hbound : 259 + 2 * (16 + 16 * (contents.length / 16 + 1)) < 2 ^ 32) {trace : Trace}
  {outcome : Except Stop Bool} (hcooperates : Cooperates server self.filePath contents trace)

include hmatches hbound hcooperates

theorem Approved.served {clientId : ClientId}
    (happroved : Approved crypto self clientId trace outcome) :
    Transferred server self.filePath contents [] trace outcome := by
  cases happroved with
  | unkeyed trace stop hkeying =>
      obtain ⟨keys, answer, hresult, _⟩ := hkeying.served hcooperates
      cases hresult
  | refused trace answer privateKey hkeying hcode =>
      obtain ⟨keys, reply, hresult, _, _, hreply, _⟩ := hkeying.served hcooperates
      cases hresult
      exact absurd hreply hcode
  | short trace answer privateKey hkeying hcode hlength =>
      obtain ⟨keys, reply, hresult, _, _, _, hlong, _⟩ := hkeying.served hcooperates
      cases hresult
      omega
  | keyed first answer privateKey rest outcome hkeying hcode hlength hsending =>
      obtain ⟨keys, reply, hresult, hmade, hcodes, _, _, hkey⟩ :=
        hkeying.served hcooperates.of_append_left
      cases hresult
      obtain ⟨houtcome, hloop, hstored⟩ := hsending.served hmatches hbound
        (fun plain hplain => hcooperates.decrypts keys _ plain (List.mem_append_left _ hmade) hkey
          (List.mem_append_right _ hplain))
        hcooperates.of_append_right
      refine ⟨houtcome, by rw [codes_append, hcodes, hloop]; rfl, ?_⟩
      intro request hsent hcode
      rcases List.mem_append.mp hsent with hsent | hsent
      · have hmem := (mem_codes _ _).mpr ⟨request, hsent, hcode⟩
        rw [hcodes, List.mem_singleton] at hmem
        exact absurd hmem (by decide)
      · exact hstored request hsent hcode

theorem Registration.served (hregistration : Registration crypto self trace outcome) :
    Transferred server self.filePath contents [REGISTRATION] trace outcome := by
  have hanswer (buffer : ClientId) (answer : Response) (rest : Trace)
      (hsplit : trace = self.asked REGISTRATION buffer answer ++ rest) : answer.code = REGISTRATION_SUCCESS :=
    (hcooperates.serves [⟨.newArray 16, buffer⟩] _ answer rest hsplit).registration rfl
  cases hregistration with
  | refused buffer answer hcode => exact absurd (hanswer buffer answer [] (by simp)) hcode
  | approved buffer answer rest outcome hcode happroved =>
      have hrest := happroved.served hmatches hbound hcooperates.of_append_right
      have hwhole :=
        hrest.append_left (self.asked REGISTRATION buffer answer) (by rw [codes_asked]; decide)
      rwa [codes_asked] at hwhole

theorem Reconnection.served (hreconnection : Reconnection crypto self trace outcome) :
    Transferred server self.filePath contents [RECONNECT] trace outcome ∨
      Transferred server self.filePath contents [RECONNECT, REGISTRATION] trace outcome := by
  have hanswer (buffer : ClientId) (answer : Response) (rest : Trace)
      (hsplit : trace = self.asked RECONNECT buffer answer ++ rest) :
      answer.code = APPROVE_RECONNECT_SEND_AES ∨ answer.code = RECONNECT_REJECTED :=
    (hcooperates.serves [⟨.newArray 16, buffer⟩] _ answer rest hsplit).reconnect rfl
  have hprepend {opening : List UInt16} {rest : Trace} (buffer : ClientId) (answer : Response)
      (hrest : Transferred server self.filePath contents opening rest outcome) :
      Transferred server self.filePath contents ([RECONNECT] ++ opening)
        (self.asked RECONNECT buffer answer ++ rest) outcome := by
    have hwhole :=
      hrest.append_left (self.asked RECONNECT buffer answer) (by rw [codes_asked]; decide)
    rwa [codes_asked] at hwhole
  cases hreconnection with
  | rejected buffer answer rest outcome hcode hregistration =>
      exact .inr (hprepend buffer answer (hregistration.served hmatches hbound hcooperates.of_append_right))
  | refused buffer answer hreject happrove =>
      exact ((hanswer buffer answer [] (by simp)).elim happrove hreject).elim
  | approved buffer answer rest outcome hcode happroved =>
      exact .inl (hprepend buffer answer (happroved.served hmatches hbound hcooperates.of_append_right))

end Flows

end ProtocolHandler

end TransferClient
