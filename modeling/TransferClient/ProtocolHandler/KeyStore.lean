import Mathlib.Data.List.Induction
import TransferClient.ProtocolHandler.Flow
import TransferClient.World

namespace TransferClient

open Interaction Bytes Client ServerRequests ServerResponses

-- The files by their paths.
abbrev Disk := List UInt8 → Option (List UInt8)

namespace Disk

def set (disk : Disk) (path content : List UInt8) : Disk :=
  fun other => if other = path then some content else disk other

-- An output stream that opens has emptied the file. What is put goes to its end, as far
-- as it gets there.
def event (disk : Disk) (event : Event Ans) : Disk :=
  match event with
  | ⟨.ofstream path, opened⟩ => if opened then disk.set path [] else disk
  | ⟨.put path content, count⟩ => disk.set path ((disk path).getD [] ++ content.take count)
  | _ => disk

def after (disk : Disk) (trace : Trace) : Disk :=
  trace.foldl event disk

end Disk

-- What is put into a file gets there to its last byte.
def getsThrough : Event Ans → Bool
  | ⟨.put _ content, count⟩ => decide (content.length ≤ count)
  | _ => true

-- Every output stream of the run opens, and takes what is put into it.
def writesSucceed (trace : Trace) : Bool :=
  trace.all fun event =>
    match event with
    | ⟨.ofstream _, opened⟩ => opened
    | event => getsThrough event

-- A public key on its way: the pair that was generated, the request and its answer.
structure Offer where
  keys : KeyPair
  request : Request
  answer : Response

def generatedKeys (trace : Trace) : Option KeyPair :=
  trace.findSome? fun event =>
    match event with
    | ⟨.generateKeyPair, keys⟩ => keys
    | _ => none

-- The public key that a run has sent to the server.
def offered (trace : Trace) : Option Offer := do
  let keys ← generatedKeys trace
  let (request, answer) ← exchangeOf SEND_PUBLIC_KEY (messages trace)
  return { keys, request, answer }

def Offer.Acknowledged (offer : Offer) : Prop :=
  offer.answer.code = RECEIVED_PUBLIC_KEY_SEND_AES

instance (offer : Offer) : Decidable offer.Acknowledged :=
  inferInstanceAs (Decidable (_ = _))

-- Both files hold the private key of this pair.
def KeysStored (crypto : CryptoPP) (disk : Disk) (keys : KeyPair) : Prop :=
  disk PRIVATE_KEY_PATH = some keys.privateKey ∧
    ∃ contents, disk ME_INFO_PATH = some contents ∧
      (FileHandler.meInfoOf contents).base64Key =
        (crypto.base64Encoder keys.privateKey).filter (· != 10)

-- A run of one of the two flows. The name of the client is a line of a file.
structure ClientRun (crypto : CryptoPP) where
  client : ProtocolHandler
  trace : Trace
  outcome : Except Stop Bool
  name : 10 ∉ client.clientName
  runs : (client.handleRegistration crypto).Runs trace outcome ∨
    (client.handleReconnection crypto).Runs trace outcome

namespace ClientRun

variable {crypto : CryptoPP}

-- A run of a flow in one world.
def ofRegistration (client : ProtocolHandler) (name : 10 ∉ client.clientName) (world : World) :
    ClientRun crypto :=
  ⟨client, _, _, name, .inl (Prog.exec_runs World.handler (client.handleRegistration crypto) world)⟩

def ofReconnection (client : ProtocolHandler) (name : 10 ∉ client.clientName) (world : World) :
    ClientRun crypto :=
  ⟨client, _, _, name, .inr (Prog.exec_runs World.handler (client.handleReconnection crypto) world)⟩

-- The public keys that were sent in a sequence of runs.
def offers (runs : List (ClientRun crypto)) : List Offer :=
  runs.filterMap fun run => offered run.trace

def acknowledged (runs : List (ClientRun crypto)) : List Offer :=
  (offers runs).filter fun offer => offer.Acknowledged

-- The files after a sequence of runs.
def diskAfter (disk : Disk) (runs : List (ClientRun crypto)) : Disk :=
  runs.foldl (fun disk run => disk.after run.trace) disk

end ClientRun

namespace Disk

theorem after_append (disk : Disk) (first second : Trace) :
    disk.after (first ++ second) = (disk.after first).after second :=
  List.foldl_append

-- A run that opens no output stream and puts nothing leaves the files alone.
theorem after_silent (disk : Disk) (trace : Trace)
    (hsilent : ∀ event ∈ trace, ∀ path content, event.op ≠ .ofstream path ∧ event.op ≠ .put path content) :
    disk.after trace = disk := by
  induction trace generalizing disk with
  | nil => rfl
  | cons event rest ih =>
      have hevent : disk.event event = disk := by
        have hno := hsilent event (by simp)
        obtain ⟨op, answer⟩ := event
        cases op with
        | ofstream path => exact absurd rfl (hno path []).1
        | put path content => exact absurd rfl (hno path content).2
        | _ => rfl
      show (disk.event event).after rest = disk
      rw [hevent]
      exact ih disk fun other ho => hsilent other (by simp [ho])

end Disk

theorem writesSucceed_of_append {first second : Trace} (hwrites : writesSucceed (first ++ second)) :
    writesSucceed second := by
  rw [writesSucceed, List.all_append, Bool.and_eq_true] at hwrites
  exact hwrites.2

theorem paths_ne : PRIVATE_KEY_PATH ≠ ME_INFO_PATH := by
  decide

namespace ProtocolHandler

variable (crypto : CryptoPP) (self : ProtocolHandler)

-- What a run does to the files: it sends no key and leaves them, or it sends the
-- public key of the pair that they hold from then on.
inductive Effect (trace : Trace) : Prop where
  | kept (hoffered : offered trace = none) (hcodes : SEND_PUBLIC_KEY ∉ codes trace)
      (hdisk : ∀ disk : Disk, disk.after trace = disk)
  | replaced (offer : Offer) (hoffered : offered trace = some offer)
      (hrequest : ∃ clientId buffer,
        offer.request = self.pubkeyRequest clientId offer.keys.publicKey buffer)
      (hdisk : ∀ disk : Disk, KeysStored crypto (disk.after trace) offer.keys)

theorem offered_effect (clientId : ClientId) (keys : KeyPair)
    (buffer : Buffer (NAME_FIELD_SIZE + keys.publicKey.length)) (answer : Response)
    (keyCount infoCount : Nat) (rest : Trace) (hname : 10 ∉ self.clientName)
    (hkey : keys.privateKey.length ≤ keyCount)
    (hinfo : (FileHandler.meInfo crypto self.clientName clientId keys.privateKey).length ≤ infoCount)
    (hrest : ∀ event ∈ rest, TransferOp event.op) :
    Effect crypto self
      (keysMade keys buffer ++
        [⟨.ofstream PRIVATE_KEY_PATH, true⟩, ⟨.put PRIVATE_KEY_PATH keys.privateKey, keyCount⟩,
          ⟨.ofstream ME_INFO_PATH, true⟩,
          ⟨.put ME_INFO_PATH (FileHandler.meInfo crypto self.clientName clientId keys.privateKey), infoCount⟩,
          sent (self.pubkeyRequest clientId keys.publicKey buffer), got answer] ++ rest) := by
  apply Effect.replaced ⟨keys, self.pubkeyRequest clientId keys.publicKey buffer, answer⟩
  · simp [offered, generatedKeys, keysMade, exchangeOf, messages, pubkeyRequest]
  · exact ⟨clientId, buffer, rfl⟩
  · intro disk
    rw [Disk.after_append, Disk.after_silent _ rest]
    · refine ⟨?_, FileHandler.meInfo crypto self.clientName clientId keys.privateKey, ?_, ?_⟩
      · simp [Disk.after, Disk.event, Disk.set, keysMade, paths_ne, List.take_of_length_le hkey]
      · simp [Disk.after, Disk.event, Disk.set, keysMade, List.take_of_length_le hinfo]
      · rw [FileHandler.meInfoOf_meInfo crypto _ _ _ hname]
    · intro event he path content
      have hop := hrest event he
      constructor
      · intro h
        rw [h] at hop
        exact hop
      · intro h
        rw [h] at hop
        exact hop

theorem approved_effect (clientId : ClientId) (trace : Trace) (outcome : Except Stop Bool)
    (happroved : Approved crypto self clientId trace outcome) (hname : 10 ∉ self.clientName)
    (hwrites : writesSucceed trace) : Effect crypto self trace := by
  have hoffer (answer : Response) (privateKey : List UInt8) (first rest : Trace)
      (hkeying : Keying crypto self clientId first (.ok (answer, privateKey)))
      (hwrites : writesSucceed (first ++ rest)) (hrest : ∀ event ∈ rest, TransferOp event.op) :
      Effect crypto self (first ++ rest) := by
    cases hkeying with
    | offered keys buffer answer keyCount infoCount =>
        have hcounts := List.all_eq_true.mp hwrites
        have hkey := hcounts ⟨.put PRIVATE_KEY_PATH keys.privateKey, keyCount⟩ (by simp)
        have hinfo := hcounts ⟨.put ME_INFO_PATH
          (FileHandler.meInfo crypto self.clientName clientId keys.privateKey), infoCount⟩ (by simp)
        exact self.offered_effect crypto clientId keys buffer answer keyCount infoCount rest hname
          (of_decide_eq_true hkey) (of_decide_eq_true hinfo) hrest
  cases happroved with
  | unkeyed trace stop hkeying =>
      cases hkeying with
      | noKeys =>
          exact .kept rfl (by simp [codes, requests, messages]) fun disk => rfl
      | noKeyFile keys buffer => simp [writesSucceed, keysMade] at hwrites
      | noMeInfo keys buffer => simp [writesSucceed, keysMade] at hwrites
  | refused trace answer privateKey hkeying hcode =>
      have heffect := hoffer answer privateKey trace [] hkeying (by rwa [List.append_nil]) (by simp)
      rwa [List.append_nil] at heffect
  | short trace answer privateKey hkeying hcode hlength =>
      have heffect := hoffer answer privateKey trace [] hkeying (by rwa [List.append_nil]) (by simp)
      rwa [List.append_nil] at heffect
  | keyed trace answer privateKey rest outcome hkeying hcode hlength hsending =>
      exact hoffer answer privateKey trace rest hkeying hwrites hsending.ops

-- The exchange that opens a flow touches neither the files nor the keys.
theorem asked_effect (requestCode : UInt16) (hcode : requestCode ≠ SEND_PUBLIC_KEY)
    (buffer : ClientId) (answer : Response) (rest : Trace) (hrest : Effect crypto self rest) :
    Effect crypto self (self.asked requestCode buffer answer ++ rest) := by
  have hoffered : offered (self.asked requestCode buffer answer ++ rest) = offered rest := by
    simp [offered, generatedKeys, asked, exchangeOf, messages, connectionRequest, hcode]
  have hdisk (disk : Disk) : disk.after (self.asked requestCode buffer answer ++ rest) =
      disk.after rest := rfl
  cases hrest with
  | kept ho hc hd =>
      refine .kept (hoffered.trans ho) ?_ hd
      rw [codes_append, List.mem_append]
      intro hmem
      refine hmem.elim (fun hmem => ?_) hc
      simp only [codes, requests, messages, asked, List.filterMap_cons, Message.of,
        List.filterMap_nil, List.map_cons, List.map_nil, List.mem_singleton] at hmem
      exact hcode hmem.symm
  | replaced offer ho hr hd => exact .replaced offer (hoffered.trans ho) hr hd

theorem refused_effect (requestCode : UInt16) (hcode : requestCode ≠ SEND_PUBLIC_KEY)
    (buffer : ClientId) (answer : Response) :
    Effect crypto self (self.asked requestCode buffer answer) := by
  have hnone : Effect crypto self [] :=
    .kept rfl (by simp [codes, requests, messages]) fun disk => rfl
  have heffect := self.asked_effect crypto requestCode hcode buffer answer [] hnone
  rwa [List.append_nil] at heffect

theorem registration_effect (trace : Trace) (outcome : Except Stop Bool)
    (hregistration : Registration crypto self trace outcome) (hname : 10 ∉ self.clientName)
    (hwrites : writesSucceed trace) : Effect crypto self trace := by
  cases hregistration with
  | refused buffer answer hcode => exact self.refused_effect crypto _ (by decide) buffer answer
  | approved buffer answer rest outcome hcode happroved =>
      have hrest := writesSucceed_of_append hwrites
      exact self.asked_effect crypto _ (by decide) buffer answer rest
        (self.approved_effect crypto _ rest outcome happroved hname hrest)

theorem reconnection_effect (trace : Trace) (outcome : Except Stop Bool)
    (hreconnection : Reconnection crypto self trace outcome) (hname : 10 ∉ self.clientName)
    (hwrites : writesSucceed trace) : Effect crypto self trace := by
  cases hreconnection with
  | rejected buffer answer rest outcome hcode hregistration =>
      have hrest := writesSucceed_of_append hwrites
      exact self.asked_effect crypto _ (by decide) buffer answer rest
        (self.registration_effect crypto rest outcome hregistration hname hrest)
  | refused buffer answer hreject happrove =>
      exact self.refused_effect crypto _ (by decide) buffer answer
  | approved buffer answer rest outcome hcode happroved =>
      have hrest := writesSucceed_of_append hwrites
      exact self.asked_effect crypto _ (by decide) buffer answer rest
        (self.approved_effect crypto _ rest outcome happroved hname hrest)

end ProtocolHandler

namespace ClientRun

variable {crypto : CryptoPP}

theorem effect (run : ClientRun crypto) (hwrites : writesSucceed run.trace) :
    ProtocolHandler.Effect crypto run.client run.trace := by
  rcases run.runs with hruns | hruns
  · have hflow := run.client.handleRegistration_registration crypto _ _ hruns
    exact run.client.registration_effect crypto _ _ hflow run.name hwrites
  · have hflow := run.client.handleReconnection_reconnection crypto _ _ hruns
    exact run.client.reconnection_effect crypto _ _ hflow run.name hwrites

theorem keysStored_last (disk : Disk) (runs : List (ClientRun crypto))
    (hwrites : ∀ run ∈ runs, writesSucceed run.trace) (offer : Offer)
    (hlast : (offers runs).getLast? = some offer) :
    KeysStored crypto (diskAfter disk runs) offer.keys := by
  induction runs using List.reverseRecOn with
  | nil => cases hlast
  | append_singleton runs run ih =>
      have hafter : diskAfter disk (runs ++ [run]) = (diskAfter disk runs).after run.trace := by
        simp [diskAfter]
      rw [hafter]
      have hoffers : offers (runs ++ [run]) = offers runs ++ (offered run.trace).toList := by
        cases ho : offered run.trace <;> simp [offers, ho]
      rw [hoffers] at hlast
      cases run.effect (hwrites run (by simp)) with
      | kept ho hc hd =>
          rw [ho, Option.toList_none, List.append_nil] at hlast
          rw [hd]
          exact ih (fun other hr => hwrites other (by simp [hr])) hlast
      | replaced latest ho hr hd =>
          rw [ho, Option.toList_some, List.getLast?_concat] at hlast
          cases hlast
          exact hd _

theorem mem_codes_of_offered (trace : Trace) (offer : Offer)
    (hoffered : offered trace = some offer) :
    SEND_PUBLIC_KEY ∈ codes trace := by
  simp only [offered, Option.bind_eq_bind, Option.bind_eq_some_iff] at hoffered
  obtain ⟨keys, _, exchange, hexchange, _⟩ := hoffered
  exact mem_codes_of_exchangeOf hexchange

-- The files hold the private key of the pair whose public key was sent last. A
-- run that sends none leaves the files alone.
theorem keys_of_last_offer (disk : Disk) (runs : List (ClientRun crypto))
    (hwrites : ∀ run ∈ runs, writesSucceed run.trace) :
    (∀ offer, (offers runs).getLast? = some offer →
      KeysStored crypto (diskAfter disk runs) offer.keys) ∧
    (∀ run ∈ runs, ∀ offer, offered run.trace = some offer → ∃ clientId buffer,
      offer.request = run.client.pubkeyRequest clientId offer.keys.publicKey buffer) ∧
    (∀ run ∈ runs, SEND_PUBLIC_KEY ∈ codes run.trace → ∃ offer, offered run.trace = some offer) ∧
    ∀ run ∈ runs, SEND_PUBLIC_KEY ∉ codes run.trace →
      offered run.trace = none ∧ ∀ before : Disk, before.after run.trace = before := by
  refine ⟨fun offer hlast => keysStored_last disk runs hwrites offer hlast, ?_, ?_, ?_⟩
  · intro run hr offer hoffered
    cases run.effect (hwrites run hr) with
    | kept ho hc hd =>
        rw [ho] at hoffered
        cases hoffered
    | replaced latest ho hrequest hd =>
        rw [ho] at hoffered
        cases hoffered
        exact hrequest
  · intro run hr hcodes
    cases run.effect (hwrites run hr) with
    | kept ho hc hd => exact absurd hcodes hc
    | replaced latest ho hrequest hd => exact ⟨latest, ho⟩
  · intro run hr hcodes
    cases run.effect (hwrites run hr) with
    | kept ho hc hd => exact ⟨ho, hd⟩
    | replaced latest ho hrequest hd => exact absurd (mem_codes_of_offered _ _ ho) hcodes

end ClientRun

namespace Sample

-- A registration that the server acknowledges, and a reconnection with another
-- pair of keys that it does not.
def registered : ClientRun crypto :=
  ClientRun.ofRegistration client (by decide)
    (world (approval 2100 :: transferring))

def unacknowledged : ClientRun crypto :=
  ClientRun.ofReconnection client (by decide)
    (World.serving [approval 2105, bare 2101]
      fun _ => { machine with keys := ⟨Bytes.text "public2", Bytes.text "other"⟩ }.replies)

end Sample

namespace ClientRun

theorem keys_of_last_offer_registered :
    KeysStored Sample.crypto (diskAfter (fun _ => none) [Sample.registered]) Sample.machine.keys := by
  have hoffers : (offers [Sample.registered]).getLast?.map Offer.keys =
      some Sample.machine.keys := by
    decide
  obtain ⟨offer, hlast, hoffer⟩ := Option.map_eq_some_iff.mp hoffers
  have hstored := (keys_of_last_offer (fun _ => none) [Sample.registered] (by decide)).1 offer hlast
  rwa [hoffer] at hstored

-- The server knows the first public key, and the files hold the second private
-- key, which was written before the server was asked.
theorem acknowledged_key_replaced :
    let runs := [Sample.registered, Sample.unacknowledged]
    (∀ run ∈ runs, writesSucceed run.trace) ∧
      (∃ offer, (acknowledged runs).getLast? = some offer ∧
        ¬KeysStored Sample.crypto (diskAfter (fun _ => none) runs) offer.keys) ∧
      (∀ offer ∈ offered Sample.unacknowledged.trace, ¬offer.Acknowledged) ∧
      (diskAfter (fun _ => none) [Sample.registered]).after Sample.unacknowledged.trace ≠
        diskAfter (fun _ => none) [Sample.registered] := by
  intro runs
  have hbefore : diskAfter (fun _ => none) [Sample.registered] PRIVATE_KEY_PATH =
      some (text "private") := by decide +kernel
  have hafter : diskAfter (fun _ => none) runs PRIVATE_KEY_PATH = some (text "other") := by
    decide +kernel
  have hkeys : (acknowledged runs).getLast?.map Offer.keys = some Sample.machine.keys := by
    decide +kernel
  obtain ⟨offer, hlast, hoffer⟩ := Option.map_eq_some_iff.mp hkeys
  refine ⟨by decide +kernel, ⟨offer, hlast, ?_⟩, by decide +kernel, ?_⟩
  · rintro ⟨hkey, _⟩
    rw [hafter, hoffer] at hkey
    exact absurd hkey (by decide +kernel)
  · have hsplit : diskAfter (fun _ => none) runs =
        (diskAfter (fun _ => none) [Sample.registered]).after Sample.unacknowledged.trace := by
      simp [runs, diskAfter]
    intro hsame
    rw [hsplit, hsame, hbefore] at hafter
    exact absurd hafter (by decide)

end ClientRun

end TransferClient
