import TransferClient.Socket.Memory

namespace TransferClient

open Bytes

-- One call of `send` with this result of the transport moves a whole buffer of this length.
def Transfer.whole (length : Nat) : Transfer → Bool
  | .fails => false
  | .moves count => length ≤ max 1 count

-- The fields that a receiver takes out of a request.
structure ReceivedRequest where
  clientId : List UInt8
  version : UInt8
  code : UInt16
  payload : List UInt8
deriving DecidableEq

def Request.received (request : Request) : ReceivedRequest :=
  ⟨request.clientId.val, request.version, request.code, request.payload⟩

-- The memory of the payload ends where `payloadSize` says.
def Request.Exact (request : Request) : Prop :=
  request.payload.length = request.payloadSize.toNat

-- The first request of a stream, and the stream behind it: a header of 24 bytes, then
-- as many bytes of payload as it announces.
def receiveRequest (stream : List UInt8) : Option (ReceivedRequest × List UInt8) :=
  let header := stream.take 24
  let body := stream.drop 24
  let payloadSize := fromLittleEndian (header.drop 20)
  if header.length = 24 ∧ payloadSize ≤ body.length then
    some
      (⟨header.take 16, (header.drop 16).headD 0,
        UInt16.ofNat (fromLittleEndian ((header.drop 18).take 2)), body.take payloadSize⟩,
        body.drop payloadSize)
  else
    none

-- Request after request, until no byte is left. Each takes at least one byte, so the
-- length of the stream is fuel enough.
def receiveRequests : Nat → List UInt8 → Option (List ReceivedRequest)
  | 0, stream => if stream = [] then some [] else none
  | fuel + 1, stream =>
      if stream = [] then some []
      else do
        let (request, rest) ← receiveRequest stream
        let others ← receiveRequests fuel rest
        return request :: others

def receiveStream (stream : List UInt8) : Option (List ReceivedRequest) :=
  receiveRequests stream.length stream

-- The frames of these requests, one behind the other.
def frames (requests : List Request) : List UInt8 :=
  requests.flatMap Request.frame

@[simp] theorem frames_append (first second : List Request) :
    frames (first ++ second) = frames first ++ frames second :=
  List.flatMap_append

theorem Request.length_frame (request : Request) :
    request.frame.length = 24 + request.payloadSize.toNat := by
  rw [Request.frame, List.length_append, Socket.length_frame_header,
    List.length_take_of_le request.inBounds]

-- The header gives back its fields, whatever the padding holds.
theorem header_fields (request : Request) :
    request.header.take 16 = request.clientId.val ∧
      (request.header.drop 16).headD 0 = request.version ∧
      UInt16.ofNat (fromLittleEndian ((request.header.drop 18).take 2)) = request.code ∧
      fromLittleEndian (request.header.drop 20) = request.payloadSize.toNat := by
  have hid := request.clientId.property
  have hcode : (littleEndian 2 request.code.toNat).length = 2 := length_littleEndian _ _
  have hdrop : request.header.drop 16 = [request.version, request.padding] ++
      littleEndian 2 request.code.toNat ++ littleEndian 4 request.payloadSize.toNat := by
    simp only [Request.header, List.append_assoc]
    exact List.drop_left' hid
  have hnumbers : request.header.drop 18 =
      littleEndian 2 request.code.toNat ++ littleEndian 4 request.payloadSize.toNat := by
    rw [show 18 = 16 + 2 from rfl, ← List.drop_drop, hdrop]
    rfl
  have hsize : request.header.drop 20 = littleEndian 4 request.payloadSize.toNat := by
    rw [show 20 = 18 + 2 from rfl, ← List.drop_drop, hnumbers]
    exact List.drop_left' hcode
  refine ⟨?_, ?_, ?_, ?_⟩
  · simp only [Request.header, List.append_assoc]
    exact List.take_left' hid
  · rw [hdrop]
    rfl
  · have hvalue := request.code.toNat_lt
    rw [hnumbers, List.take_left' hcode, fromLittleEndian_littleEndian,
      Nat.mod_eq_of_lt (by omega), UInt16.ofNat_toNat]
  · have hvalue := request.payloadSize.toNat_lt
    rw [hsize, fromLittleEndian_littleEndian, Nat.mod_eq_of_lt (by omega)]

theorem receiveRequest_frame (request : Request) (rest : List UInt8) (hexact : request.Exact) :
    receiveRequest (request.frame ++ rest) = some (request.received, rest) := by
  have hheader : request.header.length = 24 := Socket.length_frame_header request
  have hframe : request.frame ++ rest = request.header ++ (request.payload ++ rest) := by
    rw [Request.frame, ← hexact, List.take_length, List.append_assoc]
  have htake : (request.frame ++ rest).take 24 = request.header := by
    rw [hframe]
    exact List.take_left' hheader
  have hdrop : (request.frame ++ rest).drop 24 = request.payload ++ rest := by
    rw [hframe]
    exact List.drop_left' hheader
  obtain ⟨hid, hversion, hcode, hsize⟩ := header_fields request
  rw [← hexact] at hsize
  have hfits : request.payload.length ≤ (request.payload ++ rest).length := by simp
  simp only [receiveRequest, htake, hdrop, hid, hversion, hcode, hsize, hheader, hfits, and_self,
    if_true, List.take_left, List.drop_left, Request.received]

theorem receiveRequests_frames (requests : List Request) (fuel : Nat)
    (hfuel : requests.length ≤ fuel) (hexact : ∀ request ∈ requests, request.Exact) :
    receiveRequests fuel (frames requests) = some (requests.map Request.received) := by
  induction requests generalizing fuel with
  | nil => cases fuel <;> rfl
  | cons request rest ih =>
      have hlength := request.length_frame
      have hne : frames (request :: rest) ≠ [] := by
        intro h
        rw [frames, List.flatMap_cons, List.append_eq_nil_iff] at h
        rw [h.1, List.length_nil] at hlength
        omega
      cases fuel with
      | zero => simp at hfuel
      | succ fuel =>
          have hrest :=
            ih fuel (by simpa using hfuel) fun other hother => hexact other (by simp [hother])
          have hfirst := receiveRequest_frame request (frames rest) (hexact request (by simp))
          rw [receiveRequests, if_neg hne]
          change (do
            let (request, rest) ← receiveRequest (request.frame ++ frames rest)
            let others ← receiveRequests fuel rest
            return request :: others) = _
          rw [hfirst]
          simp only [Option.bind_eq_bind, Option.bind_some, hrest, Option.pure_def, List.map_cons]

theorem length_le_frames (requests : List Request) :
    requests.length ≤ (frames requests).length := by
  induction requests with
  | nil => exact Nat.zero_le _
  | cons request rest ih =>
      have hlength := request.length_frame
      simp only [frames, List.flatMap_cons, List.length_cons, List.length_append] at ih ⊢
      omega

-- A stream of whole frames is read as the requests that it was made of.
theorem receiveStream_frames (requests : List Request)
    (hexact : ∀ request ∈ requests, request.Exact) :
    receiveStream (frames requests) = some (requests.map Request.received) :=
  receiveRequests_frames requests _ (length_le_frames requests) hexact

namespace Socket

-- Successive calls of `sendRequest`.
def sendRequests (memory : Nat → Nat → UInt8) : List Request → Socket → Socket
  | [], socket => socket
  | request :: rest, socket =>
      sendRequests memory rest (socket.sendRequest (memory rest.length) request)

-- From the k-th `send` on, the transport takes each of these frames whole.
def SendsWhole (sendings : Nat → Transfer) : Nat → List Request → Prop
  | _, [] => True
  | k, request :: rest =>
      (sendings k).whole request.frame.length = true ∧ SendsWhole sendings (k + 1) rest

theorem send_whole (buffer : List UInt8) (socket : Socket)
    (hwhole : (socket.sendings socket.sent).whole buffer.length = true) :
    (socket.send buffer).2 =
      { socket with sent := socket.sent + 1, queued := socket.queued ++ buffer } := by
  cases htransfer : socket.sendings socket.sent with
  | fails => simp [htransfer, Transfer.whole] at hwhole
  | moves count =>
      have hmoved : moved count buffer.length = buffer.length := by
        simp only [htransfer, Transfer.whole, decide_eq_true_eq] at hwhole
        simp only [moved]
        omega
      simp only [send, htransfer, hmoved, List.take_length]

theorem sendRequests_queued (memory : Nat → Nat → UInt8) (requests : List Request) (socket : Socket)
    (hwhole : SendsWhole socket.sendings socket.sent requests) :
    (sendRequests memory requests socket).queued = socket.queued ++ frames requests := by
  induction requests generalizing socket with
  | nil => simp [sendRequests, frames]
  | cons request rest ih =>
      obtain ⟨hfirst, hrest⟩ := hwhole
      have hsend : socket.sendRequest (memory rest.length) request =
          { socket with sent := socket.sent + 1, queued := socket.queued ++ request.frame } := by
        rw [sendRequest_frame, send_whole _ _ hfirst]
      rw [sendRequests, hsend, ih _ hrest]
      simp [frames]

end Socket

end TransferClient
