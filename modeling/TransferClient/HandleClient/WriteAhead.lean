import TransferClient.HandleClient.Fallback
import TransferClient.HandleClient.Rules
import TransferClient.ProtocolHandler.KeyStore

namespace TransferClient

open Interaction Bytes Client ProtocolHandler ServerRequests ServerResponses

-- The events that store a pair of keys, with how much of it gets into each file.
def keysWritten (crypto : CryptoPP) (self : ProtocolHandler) (clientId : ClientId) (keys : KeyPair)
    (keyCount infoCount : Nat) : Trace :=
  [⟨.ofstream PRIVATE_KEY_PATH, true⟩, ⟨.put PRIVATE_KEY_PATH keys.privateKey, keyCount⟩,
    ⟨.ofstream ME_INFO_PATH, true⟩,
    ⟨.put ME_INFO_PATH (FileHandler.meInfo crypto self.clientName clientId keys.privateKey), infoCount⟩]

-- A file is written only for keys that have been made and not yet offered, and they are
-- offered as soon as both files are written.
structure WrittenAhead (crypto : CryptoPP) (past : Trace) (event : Event Ans) : Prop where
  offered : ∀ request, event = sent request → request.code = SEND_PUBLIC_KEY →
    ∃ (earlier : Trace) (self : ProtocolHandler) (keys : KeyPair)
      (buffer : Buffer (NAME_FIELD_SIZE + keys.publicKey.length)) (keyCount infoCount : Nat),
      request = self.pubkeyRequest request.clientId keys.publicKey buffer ∧
        past = earlier ++ keysMade keys buffer ++
          keysWritten crypto self request.clientId keys keyCount infoCount
  written : ∀ path content, event.op = .ofstream path ∨ event.op = .put path content →
    ∃ (earlier later : Trace) (keys : KeyPair), past = earlier ++ ⟨.generateKeyPair, some keys⟩ :: later ∧
      ∀ request, sent request ∉ later

variable {crypto : CryptoPP}

-- Events that write nothing and offer no key.
theorem writtenAhead_of_quiet {trace : Trace}
    (hquiet : ∀ event ∈ trace, (∀ request, event = sent request → request.code ≠ SEND_PUBLIC_KEY) ∧
      ∀ path content, event.op ≠ .ofstream path ∧ event.op ≠ .put path content) :
    Anywhere (WrittenAhead crypto) trace := by
  refine .of_forall fun event hevent past => ?_
  obtain ⟨hoffers, hwrites⟩ := hquiet event hevent
  refine ⟨fun request hsent hcode => absurd hcode (hoffers request hsent), ?_⟩
  rintro path content (hop | hop)
  · exact absurd hop (hwrites path []).1
  · exact absurd hop (hwrites path content).2

namespace ProtocolHandler

-- Writing behind the keys, as far as it gets.
theorem written_writtenAhead (keys : KeyPair)
    (buffer : Buffer (NAME_FIELD_SIZE + keys.publicKey.length))
    (writes : Trace) (hwrites : ∀ event ∈ writes, ∀ request, event ≠ sent request) :
    Anywhere (WrittenAhead crypto) (keysMade keys buffer ++ writes) := by
  have hmade : Anywhere (WrittenAhead crypto) (keysMade keys buffer) :=
    writtenAhead_of_quiet (by simp [keysMade])
  refine hmade.append_of fun before past event future hsplit => ⟨?_, ?_⟩
  · intro request hsent
    exact absurd hsent (hwrites event (by simp [hsplit]) request)
  · intro path content _
    refine ⟨before, ⟨.newArray (NAME_FIELD_SIZE + keys.publicKey.length), buffer⟩ :: past, keys, ?_,
      ?_⟩
    · simp [keysMade]
    · intro request hmem
      rcases List.mem_cons.mp hmem with hsame | hmem
      · cases hsame
      · exact hwrites _ (by simp [hsplit, hmem]) request rfl

theorem Keying.writtenAhead (self : ProtocolHandler) (clientId : ClientId) (trace : Trace)
    (result : Except Stop (Response × List UInt8))
    (hkeying : Keying crypto self clientId trace result) :
    Anywhere (WrittenAhead crypto) trace := by
  cases hkeying with
  | noKeys => exact writtenAhead_of_quiet (by simp)
  | noKeyFile keys buffer => exact written_writtenAhead keys buffer _ (by simp)
  | noMeInfo keys buffer => exact written_writtenAhead keys buffer _ (by simp)
  | offered keys buffer answer keyCount infoCount =>
      have hwritten : Anywhere (WrittenAhead crypto)
          (keysMade keys buffer ++ keysWritten crypto self clientId keys keyCount infoCount) :=
        written_writtenAhead keys buffer _ (by simp [keysWritten])
      have hoffered : Anywhere (WrittenAhead crypto)
          ((keysMade keys buffer ++ keysWritten crypto self clientId keys keyCount infoCount) ++
            [sent (self.pubkeyRequest clientId keys.publicKey buffer)]) := by
        refine hwritten.append_of fun before => AtEach.singleton ⟨?_, ?_⟩
        · rintro request ⟨⟩ _
          exact ⟨before, self, keys, buffer, keyCount, infoCount, rfl, by simp [pubkeyRequest]⟩
        · rintro path content (hop | hop) <;> cases hop
      have hanswer : Anywhere (WrittenAhead crypto) [got answer] := writtenAhead_of_quiet (by simp)
      have hkeyed := hoffered.append hanswer
      rwa [List.append_assoc, List.append_assoc] at hkeyed

theorem FileSending.writtenAhead (self : ProtocolHandler)
    (encrypted_aes_key privateKey : List UInt8)
    (clientId : ClientId) (trace : Trace) (outcome : Except Stop Bool)
    (hsending : FileSending crypto self encrypted_aes_key privateKey clientId trace outcome) :
    Anywhere (WrittenAhead crypto) trace := by
  refine writtenAhead_of_quiet fun event hevent => ?_
  have hop := hsending.ops event hevent
  refine ⟨?_, fun path content => ⟨fun hwrites => ?_, fun hwrites => ?_⟩⟩
  · rintro request rfl hcode
    have hsent : request.code = SEND_FILE ∨ StatusCode request.code := hop
    rcases hsent with hfile | hstatus
    · rw [hfile] at hcode
      exact absurd hcode (by decide)
    · exact absurd hcode hstatus.ne.2.2.1
  · rw [hwrites] at hop
    exact hop
  · rw [hwrites] at hop
    exact hop

theorem asked_writtenAhead (self : ProtocolHandler) (requestCode : UInt16) (buffer : ClientId)
    (answer : Response) (hcode : requestCode = REGISTRATION ∨ requestCode = RECONNECT) :
    Anywhere (WrittenAhead crypto) (self.asked requestCode buffer answer) := by
  have hne : requestCode ≠ SEND_PUBLIC_KEY := by
    rcases hcode with rfl | rfl <;> decide
  exact writtenAhead_of_quiet (by simp [asked, connectionRequest, hne])

theorem around_writtenAhead (past : Trace) (event : Event Ans) (hop : AroundOp event.op) :
    WrittenAhead crypto past event := by
  refine ⟨?_, ?_⟩
  · rintro request rfl
    exact hop.elim
  · rintro path content (hwrites | hwrites) <;> rw [hwrites] at hop <;> exact hop.elim

end ProtocolHandler

-- Both files hold the key of this pair.
def Disk.Holds (crypto : CryptoPP) (self : ProtocolHandler) (clientId : ClientId) (keys : KeyPair)
    (disk : Disk) : Prop :=
  disk PRIVATE_KEY_PATH = some keys.privateKey ∧
    disk ME_INFO_PATH = some (FileHandler.meInfo crypto self.clientName clientId keys.privateKey)

theorem holds_after_keysWritten (crypto : CryptoPP) (self : ProtocolHandler) (clientId : ClientId)
    (keys : KeyPair) (keyCount infoCount : Nat) (disk : Disk)
    (hwrites : ∀ event ∈ keysWritten crypto self clientId keys keyCount infoCount,
      getsThrough event = true) :
    (disk.after (keysWritten crypto self clientId keys keyCount infoCount)).Holds
      crypto self clientId keys := by
  have hpaths := paths_ne
  have hkey : keys.privateKey.length ≤ keyCount :=
    of_decide_eq_true (hwrites ⟨.put PRIVATE_KEY_PATH keys.privateKey, keyCount⟩ (by simp [keysWritten]))
  have hinfo : (FileHandler.meInfo crypto self.clientName clientId keys.privateKey).length ≤ infoCount :=
    of_decide_eq_true (hwrites ⟨.put ME_INFO_PATH _, infoCount⟩ (by simp [keysWritten]))
  constructor
  · simp [Disk.after, Disk.event, Disk.set, keysWritten, hpaths, List.take_of_length_le hkey]
  · simp [Disk.after, Disk.event, Disk.set, keysWritten, List.take_of_length_le hinfo]

-- Wherever a run is cut off: from the moment at which a public key goes out, both files hold
-- its private key, until the run makes another pair, if the disk has taken what was put into
-- them. Then no server can get a public key whose private key is not yet stored.
theorem keys_written_ahead (crypto : CryptoPP) (trace : Trace) (outcome : Except Stop Bool)
    (hruns : (handleClient crypto).Runs trace outcome) (past later future : Trace)
    (request : Request)
    (hsplit : trace = past ++ sent request :: (later ++ future))
    (hcode : request.code = SEND_PUBLIC_KEY)
    (hlater : ∀ keys, ⟨.generateKeyPair, some keys⟩ ∉ later) :
    ∃ (self : ProtocolHandler) (keys : KeyPair) (buffer : Buffer (NAME_FIELD_SIZE + keys.publicKey.length)),
      ⟨.generateKeyPair, some keys⟩ ∈ past ∧
        request = self.pubkeyRequest request.clientId keys.publicKey buffer ∧
        ((∀ event ∈ past, getsThrough event = true) → ∀ disk : Disk,
          (disk.after (past ++ sent request :: later)).Holds crypto self request.clientId keys) := by
  have hahead := ((handleClient_flow crypto trace outcome hruns).anywhere around_writtenAhead asked_writtenAhead
    Keying.writtenAhead FileSending.writtenAhead).atEach
  obtain ⟨earlier, self, keys, buffer, keyCount, infoCount, hrequest, hpast⟩ :=
    (hahead past (sent request) _ hsplit).offered request rfl hcode
  refine ⟨self, keys, buffer, by simp [hpast, keysMade], hrequest, ?_⟩
  -- What is written behind the request would be written for a newer pair.
  have hsilent : ∀ event ∈ later, ∀ path content,
      event.op ≠ .ofstream path ∧ event.op ≠ .put path content := by
    intro event hevent path content
    obtain ⟨before, after, hmiddle⟩ := List.append_of_mem hevent
    have hwhole : trace = (past ++ sent request :: before) ++ event :: (after ++ future) := by
      rw [hsplit, hmiddle]
      simp
    have hno (hop : event.op = .ofstream path ∨ event.op = .put path content) : False := by
      obtain ⟨first, rest, made, hfirst, hrest⟩ :=
        (hahead _ event _ hwhole).written path content hop
      rcases List.append_eq_append_iff.mp (show past ++ sent request :: before = _ from hfirst) with
        ⟨middle, _, hsent⟩ | ⟨middle, _, hsent⟩
      · cases middle with
        | nil => cases hsent
        | cons head middle =>
            cases hsent
            exact hlater made (by simp [hmiddle])
      · cases middle with
        | nil => cases hsent
        | cons head middle =>
            cases hsent
            exact hrest request (by simp)
    exact ⟨fun hop => hno (.inl hop), fun hop => hno (.inr hop)⟩
  have hkept (disk : Disk) : disk.after (sent request :: later) = disk :=
    Disk.after_silent disk _ (List.forall_mem_cons.mpr ⟨by simp, hsilent⟩)
  intro hwrites disk
  rw [Disk.after_append, hkept, hpast, Disk.after_append]
  apply holds_after_keysWritten
  intro event hevent
  exact hwrites event (by simp [hpast, hevent])

theorem keys_written_ahead_known :
    ∃ (past future : Trace) (request : Request) (self : ProtocolHandler) (keys : KeyPair)
      (buffer : Buffer (NAME_FIELD_SIZE + keys.publicKey.length)),
      ((handleClient Sample.crypto).exec World.handler (Sample.approving (some []))).trace =
          past ++ sent request :: ([] ++ future) ∧
        ⟨.generateKeyPair, some keys⟩ ∈ past ∧
        request = self.pubkeyRequest request.clientId keys.publicKey buffer ∧
        ∀ disk : Disk, (disk.after (past ++ sent request :: [])).Holds
          Sample.crypto self request.clientId keys := by
  have hcodes : SEND_PUBLIC_KEY ∈
      codes ((handleClient Sample.crypto).exec World.handler (Sample.approving (some []))).trace := by
    decide +kernel
  have hwrites : ∀ event ∈ ((handleClient Sample.crypto).exec World.handler
      (Sample.approving (some []))).trace, getsThrough event = true := by
    decide +kernel
  obtain ⟨request, hsent, hcode⟩ := (mem_codes _ _).mp hcodes
  obtain ⟨past, future, hsplit⟩ := List.append_of_mem hsent
  obtain ⟨self, keys, buffer, hmade, hrequest, hholds⟩ := keys_written_ahead Sample.crypto _ _
    (Prog.exec_runs _ _ _) past [] future request hsplit hcode (by simp)
  have hpast : ∀ event ∈ past, getsThrough event = true :=
    fun event hevent => hwrites event (by simp [hsplit, hevent])
  exact ⟨past, future, request, self, keys, buffer, hsplit, hmade, hrequest, hholds hpast⟩

end TransferClient
