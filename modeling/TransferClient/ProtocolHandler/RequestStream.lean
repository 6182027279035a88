import TransferClient.ProtocolHandler.Flow
import TransferClient.ProtocolHandler.Payloads
import TransferClient.Socket.Requests
import TransferClient.World

namespace TransferClient

open Interaction Bytes Client ServerRequests

-- A name field as the protocol describes it: 255 bytes with a NUL at the end, in which
-- a reader finds the name, cut at its first NUL and at 254 bytes.
structure NameField (name field : List UInt8) : Prop where
  length : field.length = NAME_FIELD_SIZE
  terminated : field.getLast? = some 0
  readBack : cString field = (cString name).take (NAME_FIELD_SIZE - 1)

-- What `strncpy` leaves in a field of zeros that is one byte longer than its count.
def nameField (name : List UInt8) : List UInt8 :=
  strncpy name (NAME_FIELD_SIZE - 1) ++ [0]

@[simp] theorem length_nameField (name : List UInt8) :
    (nameField name).length = NAME_FIELD_SIZE := by
  rw [nameField, List.length_append, length_strncpy]
  rfl

theorem cString_append_null (string : List UInt8) : cString (string ++ [0]) = cString string := by
  induction string with
  | nil => rfl
  | cons c rest ih =>
      by_cases hc : c = 0
      · simp [cString, hc]
      · have hrest : (rest ++ [0]).takeWhile (· != 0) = rest.takeWhile (· != 0) := ih
        simp only [cString, List.cons_append, List.takeWhile_cons, hrest]

theorem nameField_isField (name : List UInt8) : NameField name (nameField name) where
  length := length_nameField name
  terminated := List.getLast?_concat
  readBack := by rw [nameField, cString_append_null, cString_strncpy]

-- Writing the name into zeros of at least the size of the field.
theorem write_name (name : List UInt8) (rest : Nat) :
    write (List.replicate (NAME_FIELD_SIZE + rest) 0) 0 (strncpy name (NAME_FIELD_SIZE - 1)) =
      nameField name ++ List.replicate rest 0 := by
  have hsplit : List.replicate (NAME_FIELD_SIZE + rest) (0 : UInt8) =
      [] ++ List.replicate (NAME_FIELD_SIZE - 1) 0 ++ ([0] ++ List.replicate rest 0) := by
    rw [← List.replicate_append_replicate,
      show NAME_FIELD_SIZE = (NAME_FIELD_SIZE - 1) + 1 from rfl, List.replicate_add]
    simp
  rw [hsplit, write_middle [] _ _ _ 0 rfl (by rw [List.length_replicate, length_strncpy]),
    List.nil_append, nameField, List.append_assoc]

theorem strncpy_of_notMem (string : List UInt8) (hnull : 0 ∉ string) :
    strncpy string string.length = string := by
  rw [strncpy, cString_of_notMem string hnull, List.take_length, Nat.sub_self, List.replicate_zero,
    List.append_nil]

namespace ProtocolHandler

variable (self : ProtocolHandler)

theorem connectionRequest_payload (requestCode : UInt16) :
    (self.connectionRequest requestCode).payload = nameField self.clientName := by
  have hwrite := write_name self.clientName 0
  rwa [Nat.add_zero, List.replicate_zero, List.append_nil] at hwrite

theorem pubkeyRequest_payload (clientId : ClientId) (publicKey : List UInt8)
    (buffer : Buffer (NAME_FIELD_SIZE + publicKey.length)) (hnull : 0 ∉ publicKey) :
    (self.pubkeyRequest clientId publicKey buffer).payload = nameField self.clientName ++ publicKey := by
  have hzero : write buffer.val 0 (List.replicate (NAME_FIELD_SIZE + publicKey.length) 0) =
      List.replicate (NAME_FIELD_SIZE + publicKey.length) 0 := by
    apply write_all
    rw [buffer.property, List.length_replicate]
  have hkey := write_middle (nameField self.clientName) (List.replicate publicKey.length 0) []
    publicKey NAME_FIELD_SIZE (length_nameField _) List.length_replicate
  rw [List.append_nil, List.append_nil] at hkey
  simp only [pubkeyRequest, pubkeyPayload]
  rw [hzero, write_name, strncpy_of_notMem publicKey hnull, hkey]

theorem connectionRequest_exact (requestCode : UInt16) :
    (self.connectionRequest requestCode).Exact := by
  rw [Request.Exact, connectionRequest_payload, length_nameField]
  rfl

theorem pubkeyRequest_exact (clientId : ClientId) (publicKey : List UInt8)
    (buffer : Buffer (NAME_FIELD_SIZE + publicKey.length)) (hnull : 0 ∉ publicKey)
    (hsmall : NAME_FIELD_SIZE + publicKey.length < 2 ^ 32) :
    (self.pubkeyRequest clientId publicKey buffer).Exact := by
  have hword := word_of_lt (NAME_FIELD_SIZE + publicKey.length) hsmall
  rw [Request.Exact, pubkeyRequest_payload _ _ _ _ hnull, List.length_append, length_nameField]
  exact hword.symm

-- The request of a key exchange that makes this pair.
theorem Keying.request {crypto : CryptoPP} {clientId : ClientId} {trace : Trace}
    {outcome : Except Stop (Response × List UInt8)}
    (hkeying : Keying crypto self clientId trace outcome) (keys : KeyPair)
    (hkeys : (⟨.generateKeyPair, some keys⟩ : Event Ans) ∈ trace) (request : Request)
    (hsent : sent request ∈ trace) :
    ∃ buffer, request = self.pubkeyRequest clientId keys.publicKey buffer := by
  cases hkeying with
  | noKeys => simp at hsent
  | noKeyFile made buffer => simp [keysMade] at hsent
  | noMeInfo made buffer => simp [keysMade] at hsent
  | offered made buffer answer =>
      have hmade : keys = made := by simpa [keysMade] using hkeys
      subst hmade
      exact ⟨buffer, by simpa [keysMade] using hsent⟩

-- A sequence of requests is read back from the stream that it is sent as, and no other
-- sequence has that stream. The requests of a connection and of a key exchange are of
-- this kind, and a receiver finds the name and the whole public key in them.
theorem requestStream_roundTrip (crypto : CryptoPP) :
    (∀ (memory : Nat → Nat → UInt8) (socket : Socket) (requests : List Request),
      (∀ request ∈ requests, request.Exact) →
      Socket.SendsWhole socket.sendings socket.sent requests →
      (Socket.sendRequests memory requests socket).queued = socket.queued ++ frames requests ∧
        receiveStream (frames requests) = some (requests.map Request.received) ∧
        ∀ others : List Request, (∀ request ∈ others, request.Exact) →
          frames others = frames requests →
            others.map Request.received = requests.map Request.received) ∧
    (∀ clientId requestCode trace outcome,
      (self.handleConnectionRequest clientId requestCode).Runs trace outcome →
        ∀ request, sent request ∈ trace →
          request.Exact ∧ NameField self.clientName request.payload) ∧
    ∀ clientId trace outcome, (self.handleRSARegistration crypto clientId).Runs trace outcome →
      ∀ keys : KeyPair, ⟨.generateKeyPair, some keys⟩ ∈ trace → 0 ∉ keys.publicKey →
        NAME_FIELD_SIZE + keys.publicKey.length < 2 ^ 32 → ∀ request, sent request ∈ trace →
          request.Exact ∧ NameField self.clientName (request.payload.take NAME_FIELD_SIZE) ∧
            request.payload.drop NAME_FIELD_SIZE = keys.publicKey := by
  refine ⟨?_, ?_, ?_⟩
  · intro memory socket requests hexact hwhole
    have hqueued := Socket.sendRequests_queued memory requests socket hwhole
    have hreceive := receiveStream_frames requests hexact
    refine ⟨hqueued, hreceive, ?_⟩
    intro others hothers hsame
    have hreceive' := receiveStream_frames others hothers
    rw [hsame, hreceive, Option.some.injEq] at hreceive'
    exact hreceive'.symm
  · intro clientId requestCode trace outcome hruns request hsent
    obtain ⟨answer, rfl, _⟩ := self.runs_handleConnectionRequest clientId requestCode _ _ hruns
    have hrequest : request = self.connectionRequest requestCode := by simpa using hsent
    rw [hrequest, connectionRequest_payload]
    exact ⟨self.connectionRequest_exact requestCode, nameField_isField self.clientName⟩
  · intro clientId trace outcome hruns keys hkeys hnull hsmall request hsent
    have hkeying := self.handleRSARegistration_keying crypto clientId trace outcome hruns
    obtain ⟨buffer, rfl⟩ := hkeying.request self keys hkeys request hsent
    have hexact := self.pubkeyRequest_exact clientId keys.publicKey buffer hnull hsmall
    rw [pubkeyRequest_payload _ _ _ _ hnull, List.take_left' (length_nameField _),
      List.drop_left' (length_nameField _)]
    exact ⟨hexact, nameField_isField self.clientName, rfl⟩

-- A key exchange that gets through to its answer sends the request.
theorem handleRSARegistration_offers (crypto : CryptoPP) (clientId : ClientId) (keys : KeyPair)
    (buffer : Buffer (NAME_FIELD_SIZE + keys.publicKey.length)) (answer : Response) :
    ∃ trace outcome, (self.handleRSARegistration crypto clientId).Runs trace outcome ∧
      ⟨.generateKeyPair, some keys⟩ ∈ trace ∧
      sent (self.pubkeyRequest clientId keys.publicKey buffer) ∈ trace := by
  refine ⟨keysMade keys buffer ++ [⟨.ofstream PRIVATE_KEY_PATH, true⟩,
    ⟨.put PRIVATE_KEY_PATH keys.privateKey, 0⟩, ⟨.ofstream ME_INFO_PATH, true⟩,
    ⟨.put ME_INFO_PATH (FileHandler.meInfo crypto self.clientName clientId keys.privateKey), 0⟩,
    sent (self.pubkeyRequest clientId keys.publicKey buffer), got answer],
    .ok (answer, keys.privateKey), ?_, by simp [keysMade], by simp [keysMade]⟩
  exact ⟨some keys, _, rfl, buffer, _, rfl, true, _, rfl, 0, _, rfl, true, _, rfl, 0, _, rfl, (), _,
    rfl, answer, _, rfl, rfl, rfl⟩

-- A registration and the key exchange behind it: their two requests in one stream, over a
-- transport that takes a frame with one call.
theorem requestStream_roundTrip_registration :
    let connection := Sample.client.connectionRequest REGISTRATION
    let offer := Sample.client.pubkeyRequest Sample.clientId (text "public")
      ⟨List.replicate 261 0, List.length_replicate⟩
    let socket := Socket.chunked [] (fun _ => 2 ^ 32) fun _ => .moves (2 ^ 64)
    (Socket.sendRequests (fun _ _ => 255) [connection, offer] socket).queued = frames [connection, offer] ∧
      receiveStream (frames [connection, offer]) = some [connection.received, offer.received] ∧
      NameField (text "name") connection.payload ∧
      NameField (text "name") (offer.payload.take NAME_FIELD_SIZE) ∧
      offer.payload.drop NAME_FIELD_SIZE = text "public" := by
  intro connection offer socket
  obtain ⟨hstream, hconnections, hoffers⟩ := requestStream_roundTrip Sample.client Sample.crypto
  have hconnects : (Sample.client.handleConnectionRequest Sample.clientId REGISTRATION).Runs
      [sent connection, got ⟨0, 0, 0, []⟩] (.ok (storeClientId Sample.clientId [], ⟨0, 0, 0, []⟩)) :=
    ⟨(), _, rfl, ⟨0, 0, 0, []⟩, _, rfl, rfl, rfl⟩
  obtain ⟨trace, outcome, hruns, hmade, hsent⟩ := Sample.client.handleRSARegistration_offers
    Sample.crypto Sample.clientId Sample.machine.keys
    ⟨List.replicate 261 0, List.length_replicate⟩ ⟨0, 0, 0, []⟩
  obtain ⟨hexact, hname⟩ := hconnections _ _ _ _ hconnects connection (by simp)
  obtain ⟨hexact', hname', hkey⟩ := hoffers _ _ _ hruns Sample.machine.keys hmade (by decide) (by decide)
    offer hsent
  have hboth : ∀ request ∈ [connection, offer], request.Exact := by
    simp [hexact, hexact']
  obtain ⟨hqueued, hreceive, _⟩ := hstream (fun _ _ => 255) socket [connection, offer] hboth
    ⟨by decide +kernel, by decide +kernel, trivial⟩
  exact ⟨hqueued, hreceive, hname, hname', hkey⟩

-- The size of a public key of 4 GiB does not fit into its request.
theorem request_of_huge_key :
    ∃ keys : KeyPair, keys.publicKey = List.replicate (2 ^ 32) 65 ∧ 0 ∉ keys.publicKey ∧
      ∃ trace outcome request,
        (Sample.client.handleRSARegistration Sample.crypto Sample.clientId).Runs trace outcome ∧
        ⟨.generateKeyPair, some keys⟩ ∈ trace ∧ sent request ∈ trace ∧ ¬request.Exact := by
  obtain ⟨keys, hkey⟩ : ∃ keys : KeyPair, keys.publicKey = List.replicate (2 ^ 32) 65 :=
    ⟨⟨_, []⟩, rfl⟩
  have hlength : keys.publicKey.length = 2 ^ 32 := by rw [hkey, List.length_replicate]
  have hnull : 0 ∉ keys.publicKey := by
    intro hmem
    rw [hkey] at hmem
    exact absurd (List.eq_of_mem_replicate hmem) (by decide)
  have hbuffer : (List.replicate (NAME_FIELD_SIZE + keys.publicKey.length) (0 : UInt8)).length =
      NAME_FIELD_SIZE + keys.publicKey.length := List.length_replicate
  obtain ⟨trace, outcome, hruns, hmade, hsent⟩ := Sample.client.handleRSARegistration_offers
    Sample.crypto Sample.clientId keys ⟨_, hbuffer⟩ ⟨0, 0, 0, []⟩
  refine ⟨keys, hkey, hnull, trace, outcome, _, hruns, hmade, hsent, ?_⟩
  intro hexact
  rw [Request.Exact, pubkeyRequest_payload _ _ _ _ hnull, List.length_append] at hexact
  have hsize := (Sample.client.pubkeyRequest Sample.clientId keys.publicKey
    ⟨_, hbuffer⟩).payloadSize.toNat_lt
  omega

end ProtocolHandler

end TransferClient
