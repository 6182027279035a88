import TransferClient.Socket
import TransferClient.Bytes.Theorems

namespace TransferClient

open Bytes

-- A response as the server puts it on the wire.
structure ResponseFrame where
  version : UInt8
  code : UInt16
  payload : List UInt8
  small : payload.length < 2 ^ 32

namespace ResponseFrame

def header (frame : ResponseFrame) : List UInt8 :=
  frame.version :: bigEndian 2 frame.code.toNat ++ bigEndian 4 frame.payload.length

def encode (frame : ResponseFrame) : List UInt8 :=
  frame.header ++ frame.payload

def stream (frames : List ResponseFrame) : List UInt8 :=
  frames.flatMap encode

def toResponse (frame : ResponseFrame) : Response :=
  { version := UInt8.ofNat (frame.version.toNat + 48)
    code := frame.code
    payloadSize := UInt32.ofNat frame.payload.length
    payload := frame.payload }

-- What a reader of whole frames sees: each frame, and the stream behind it.
def wholeReads : List ResponseFrame → List (UInt16 × Nat × List UInt8 × List UInt8)
  | [] => []
  | frame :: rest =>
      (frame.code, frame.payload.length, frame.payload, stream rest) :: wholeReads rest

end ResponseFrame

namespace Socket

open ResponseFrame

-- A transport that never fails: `chunk k` is the most that the k-th `recv` gives.
def chunked (incoming : List UInt8) (chunk : Nat → Nat) (sendings : Nat → Transfer) : Socket :=
  { incoming, receipts := fun k => .moves (chunk k), sendings }

-- Successive calls of `getResponse`: what each returns and the stream it leaves.
def getResponses (memory : Nat → Nat → UInt8) :
    Nat → Socket → List (UInt16 × Nat × List UInt8 × List UInt8)
  | 0, _ => []
  | count + 1, socket =>
      let (response, socket) := getResponse (memory count) socket
      (response.code, response.payloadSize.toNat, response.payload, socket.incoming) ::
        getResponses memory count socket

-- The two reads of each frame, from the k-th `recv` on, get all they ask for.
def Uncut (chunk : Nat → Nat) : Nat → List ResponseFrame → Prop
  | _, [] => True
  | k, frame :: rest =>
      7 ≤ chunk k ∧ frame.payload.length ≤ max 1 (chunk (k + 1)) ∧ Uncut chunk (k + 2) rest

theorem recv_moves (length count : Nat) (socket : Socket)
    (hc : socket.receipts socket.received = .moves count) :
    socket.recv length =
      (some (socket.incoming.take (moved count (min length socket.incoming.length))),
        { socket with
          received := socket.received + 1
          incoming := socket.incoming.drop (moved count (min length socket.incoming.length)) }) := by
  simp only [recv, hc]

-- A `recv` that is offered enough takes exactly the part that was asked for.
theorem recv_whole (part rest : List UInt8) (count : Nat) (socket : Socket)
    (hin : socket.incoming = part ++ rest)
    (hc : socket.receipts socket.received = .moves count) (hw : part.length ≤ max 1 count) :
    socket.recv part.length =
      (some part, { socket with received := socket.received + 1, incoming := rest }) := by
  have hm : moved count (min part.length socket.incoming.length) = part.length := by
    simp only [moved, hin, List.length_append]
    omega
  rw [recv_moves _ _ _ hc, hm, hin, List.take_left, List.drop_left]

-- Any other `recv` gives fewer bytes and leaves the rest of the part in the stream.
theorem recv_short (part rest : List UInt8) (count : Nat) (socket : Socket)
    (hin : socket.incoming = part ++ rest)
    (hc : socket.receipts socket.received = .moves count) (hw : max 1 count < part.length) :
    ∃ bytes next, socket.recv part.length = (some bytes, next) ∧ bytes.length < part.length ∧
      rest.length < next.incoming.length := by
  have hm : moved count (min part.length socket.incoming.length) < part.length := by
    simp only [moved]
    omega
  refine ⟨_, _, recv_moves _ _ _ hc, ?_, ?_⟩
  · simp only [List.length_take]
    omega
  · simp only [hin, List.length_drop, List.length_append] at hm ⊢
    omega

@[simp] theorem length_header (frame : ResponseFrame) : frame.header.length = 7 := by
  simp [ResponseFrame.header]

-- The header gives back the code and the payload size of its frame.
theorem deserialize_header (frame : ResponseFrame) :
    { deserialize frame.header with payload := frame.payload } = frame.toResponse := by
  have hcode := fromBigEndian_bigEndian 2 frame.code.toNat
  have hsize := fromBigEndian_bigEndian 4 frame.payload.length
  rw [Nat.mod_eq_of_lt (by simpa using frame.code.toNat_lt)] at hcode
  rw [Nat.mod_eq_of_lt (by simpa using frame.small)] at hsize
  simp [deserialize, ResponseFrame.header, ResponseFrame.toResponse, hcode, hsize]

theorem payloadSize_header (frame : ResponseFrame) :
    (deserialize frame.header).payloadSize.toNat = frame.payload.length := by
  have h := congrArg Response.payloadSize (deserialize_header frame)
  rw [show (deserialize frame.header).payloadSize = frame.toResponse.payloadSize from h]
  simpa [ResponseFrame.toResponse] using frame.small

theorem getResponse_uncut (memory : Nat → UInt8) (frame : ResponseFrame) (rest : List UInt8)
    (first second : Nat) (socket : Socket) (hin : socket.incoming = frame.encode ++ rest)
    (h₁ : socket.receipts socket.received = .moves first) (hfirst : 7 ≤ first)
    (h₂ : socket.receipts (socket.received + 1) = .moves second)
    (hsecond : frame.payload.length ≤ max 1 second) :
    getResponse memory socket =
      (frame.toResponse, { socket with received := socket.received + 2, incoming := rest }) := by
  have hheader := recv_whole frame.header (frame.payload ++ rest) first socket
    (by simp [hin, ResponseFrame.encode]) h₁ (by simp; omega)
  rw [length_header] at hheader
  have hpayload := recv_whole frame.payload rest second
    { socket with received := socket.received + 1, incoming := frame.payload ++ rest } rfl h₂ hsecond
  simp [getResponse, safeReceive, hheader, payloadSize_header, hpayload, ← deserialize_header]

-- A cut frame is not read to its end.
theorem getResponse_cut (memory : Nat → UInt8) (frame : ResponseFrame) (rest : List UInt8)
    (first second : Nat) (socket : Socket) (hin : socket.incoming = frame.encode ++ rest)
    (h₁ : socket.receipts socket.received = .moves first)
    (h₂ : socket.receipts (socket.received + 1) = .moves second)
    (hcut : ¬(7 ≤ first ∧ frame.payload.length ≤ max 1 second)) :
    rest.length < (getResponse memory socket).2.incoming.length := by
  by_cases hfirst : 7 ≤ first
  · have hheader := recv_whole frame.header (frame.payload ++ rest) first socket
      (by simp [hin, ResponseFrame.encode]) h₁ (by simp; omega)
    rw [length_header] at hheader
    obtain ⟨bytes, next, hr, hb, hn⟩ := recv_short frame.payload rest second
      { socket with received := socket.received + 1, incoming := frame.payload ++ rest } rfl h₂
      (by omega)
    have hne : bytes.length ≠ frame.payload.length := by omega
    simpa [getResponse, safeReceive, hheader, payloadSize_header, hr, hne] using hn
  · obtain ⟨bytes, next, hr, hb, hn⟩ := recv_short frame.header (frame.payload ++ rest) first socket
      (by simp [hin, ResponseFrame.encode]) h₁ (by simp; omega)
    rw [length_header] at hr hb
    have hne : bytes.length ≠ 7 := by omega
    simp only [List.length_append] at hn
    simp [getResponse, safeReceive, hr, hne]
    omega

-- Successive calls read the frames of the stream exactly when no read is cut.
theorem getResponses_iff_uncut (memory : Nat → Nat → UInt8) (frames : List ResponseFrame)
    (chunk : Nat → Nat) (socket : Socket) (hin : socket.incoming = stream frames)
    (hr : ∀ k, socket.receipts k = .moves (chunk k)) :
    getResponses memory frames.length socket = wholeReads frames ↔
      Uncut chunk socket.received frames := by
  induction frames generalizing socket with
  | nil => simp [getResponses, wholeReads, Uncut]
  | cons frame rest ih =>
      have hstream : socket.incoming = frame.encode ++ stream rest := by simpa [stream] using hin
      simp only [List.length_cons, getResponses, wholeReads, Uncut, List.cons.injEq]
      by_cases hcut : 7 ≤ chunk socket.received ∧
          frame.payload.length ≤ max 1 (chunk (socket.received + 1))
      · rw [getResponse_uncut (memory rest.length) frame (stream rest) _ _ socket hstream (hr _)
          hcut.1 (hr _) hcut.2]
        have hnext :=
          ih { socket with received := socket.received + 2, incoming := stream rest } rfl hr
        simp only [hnext, hcut, true_and, and_iff_right_iff_imp]
        intro _
        simpa [ResponseFrame.toResponse] using frame.small
      · have hleft := getResponse_cut (memory rest.length) frame (stream rest) _ _ socket hstream
          (hr _) (hr _) hcut
        constructor
        · rintro ⟨he, _⟩
          simp only [Prod.mk.injEq] at he
          rw [he.2.2.2] at hleft
          exact absurd hleft (Nat.lt_irrefl _)
        · rintro ⟨h7, hp, _⟩
          exact absurd ⟨h7, hp⟩ hcut

-- The result of reading a stream of frames does not depend on how it is cut
-- into chunks if and only if no header and no payload is cut.
theorem getResponses_chunked_iff (memory : Nat → Nat → UInt8) (frames : List ResponseFrame)
    (chunk : Nat → Nat) (sendings : Nat → Transfer) :
    getResponses memory frames.length (chunked (stream frames) chunk sendings) = wholeReads frames ↔
      Uncut chunk 0 frames :=
  getResponses_iff_uncut memory frames chunk _ rfl fun _ => rfl

-- One response without payload, of which the first `recv` gives three bytes.
theorem getResponses_header_in_two_chunks :
    let frame : ResponseFrame := ⟨3, 2104, [], by decide⟩
    getResponses (fun _ _ => 0) 1 (chunked (stream [frame]) (fun _ => 3) (fun _ => .moves 64)) ≠
      wholeReads [frame] := by
  decide

end Socket

end TransferClient
