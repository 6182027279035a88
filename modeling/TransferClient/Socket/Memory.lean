import TransferClient.Socket
import TransferClient.Bytes.Theorems

namespace TransferClient

open Bytes

namespace Socket

-- The next header comes whole.
def headerArrives (socket : Socket) : Bool :=
  ((socket.safeReceive 7).1.getD []).length == 7

-- The next response comes whole: its header, and then as many bytes as that announces.
def arrives (socket : Socket) : Bool :=
  let (header_buffer, next) := socket.safeReceive 7
  let size := (deserialize (header_buffer.getD [])).payloadSize.toNat
  socket.headerArrives && ((next.safeReceive size).1.getD []).length == size

-- The code that `getResponse` leaves in its result: the announced one, or what the
-- memory of the `Response` held when the header is cut.
def codeLeft (memory : Nat → UInt8) (socket : Socket) : UInt16 :=
  if socket.headerArrives then (deserialize ((socket.safeReceive 7).1.getD [])).code
  else (uninitialised memory).code

-- The payload bytes that `getResponse` leaves in its result: all that the header announces,
-- or none.
def delivered (socket : Socket) : Nat :=
  if socket.arrives then (deserialize ((socket.safeReceive 7).1.getD [])).payloadSize.toNat else 0

theorem headerArrives_iff (socket : Socket) :
    socket.headerArrives = true ↔ (socket.safeReceive 7).1.map List.length = some 7 := by
  cases h : (socket.safeReceive 7).1 <;> simp [headerArrives, h]

theorem getResponse_code (memory : Nat → UInt8) (socket : Socket) :
    (socket.getResponse memory).1.code = socket.codeLeft memory := by
  have hiff := socket.headerArrives_iff
  simp only [getResponse, codeLeft]
  by_cases hheader : (socket.safeReceive 7).1.map List.length = some 7
  · simp only [hheader, hiff.mpr hheader, ne_eq, not_true_eq_false, if_false, if_true]
    split <;> rfl
  · have hcut := mt hiff.mp hheader
    simp only [hheader, hcut, ne_eq, not_false_eq_true, if_true, Bool.false_eq_true, if_false]

-- A response that is cut has no payload.
theorem getResponse_payload (memory : Nat → UInt8) (socket : Socket)
    (hcut : socket.arrives = false) : (socket.getResponse memory).1.payload = [] := by
  simp only [getResponse]
  split
  · rfl
  · rename_i hheader
    split
    · rfl
    · rename_i hpayload
      simp only [ne_eq, not_not] at hheader hpayload
      have harrives := socket.headerArrives_iff.mpr hheader
      cases hbuffer : ((socket.safeReceive 7).2.safeReceive
          (deserialize ((socket.safeReceive 7).1.getD [])).payloadSize.toNat).1 with
      | none => simp [hbuffer] at hpayload
      | some bytes =>
          simp only [hbuffer, Option.map_some, Option.some.injEq] at hpayload
          simp [arrives, harrives, hbuffer, hpayload] at hcut

theorem length_getResponse_payload (memory : Nat → UInt8) (socket : Socket) :
    (socket.getResponse memory).1.payload.length = socket.delivered := by
  by_cases harrives : socket.arrives = true
  · have hwhole := harrives
    simp only [arrives, Bool.and_eq_true, beq_iff_eq] at hwhole
    obtain ⟨hheader, hpayload⟩ := hwhole
    have hiff := socket.headerArrives_iff.mp hheader
    simp only [getResponse, hiff, ne_eq, not_true_eq_false, if_false, delivered, harrives, if_true]
    split
    · rename_i hcut
      cases hbuffer : ((socket.safeReceive 7).2.safeReceive
          (deserialize ((socket.safeReceive 7).1.getD [])).payloadSize.toNat).1 with
      | none =>
          rw [hbuffer] at hpayload
          exact hpayload
      | some bytes =>
          rw [hbuffer] at hcut hpayload
          exact absurd (congrArg some hpayload) hcut
    · exact hpayload
  · rw [Bool.not_eq_true] at harrives
    rw [getResponse_payload memory socket harrives, delivered, harrives, List.length_nil]
    rfl

-- A whole header overwrites all that the memory of the `Response` held.
theorem getResponse_memory (memory memory' : Nat → UInt8) (socket : Socket) :
    (socket.getResponse memory).2 = (socket.getResponse memory').2 ∧
      (socket.headerArrives = true →
        (socket.getResponse memory).1 = (socket.getResponse memory').1) := by
  simp only [getResponse]
  by_cases hheader : (socket.safeReceive 7).1.map List.length = some 7
  · simp only [hheader, ne_eq, not_true_eq_false, if_false]
    exact ⟨trivial, fun _ => trivial⟩
  · simp only [hheader, ne_eq, not_false_eq_true, if_true]
    exact ⟨trivial, fun h => absurd (socket.headerArrives_iff.mp h) hheader⟩

theorem length_frame_header (request : Request) : request.header.length = 24 := by
  simp [Request.header, request.clientId.property]

-- The send buffer is written as a whole before it is sent.
theorem sendRequest_frame (memory : Nat → UInt8) (request : Request) (socket : Socket) :
    socket.sendRequest memory request = (socket.send request.frame).2 := by
  have hpayload : (request.payload.take request.payloadSize.toNat).length =
      request.payloadSize.toNat := List.length_take_of_le request.inBounds
  have hsplit : (List.range (24 + request.payloadSize.toNat)).map memory =
      [] ++ (List.range 24).map memory ++
        (List.range request.payloadSize.toNat).map fun k => memory (24 + k) := by
    rw [List.range_add, List.map_append, List.map_map]
    rfl
  have hheader := write_middle [] ((List.range 24).map memory)
    ((List.range request.payloadSize.toNat).map fun k => memory (24 + k)) request.header 0 rfl
    (by rw [length_frame_header, List.length_map, List.length_range])
  have hrest := write_middle request.header
    ((List.range request.payloadSize.toNat).map fun k => memory (24 + k)) []
    (request.payload.take request.payloadSize.toNat) 24 (length_frame_header request)
    (by rw [hpayload, List.length_map, List.length_range])
  simp only [List.append_nil, List.nil_append] at hheader hrest hsplit
  simp only [sendRequest]
  rw [hsplit, hheader, hrest, Request.frame]

end Socket

end TransferClient
