import TransferClient.ProtocolHandler

namespace TransferClient

open Bytes

-- Every byte of the payload buffer is written, whatever it held before.
theorem fillPayloadBuffer_eq (fileName content : List UInt8)
    (buffer : Buffer (4 + 255 + content.length + 1)) (hnull : 0 ∉ content) :
    fillPayloadBuffer fileName content buffer.val =
      bigEndian 4 (UInt32.ofNat content.length).toNat ++ strncpy fileName 255 ++ (content ++ [0]) := by
  have hbuffer := buffer.property
  have hzero : write buffer.val 0 (List.replicate (4 + 255 + content.length) 0) =
      List.replicate 4 0 ++ List.replicate 255 0 ++
        (List.replicate content.length 0 ++ buffer.val.drop (4 + 255 + content.length)) := by
    rw [write, List.take_zero, List.nil_append, List.length_replicate, Nat.zero_add,
      ← List.replicate_append_replicate, ← List.replicate_append_replicate]
    simp only [List.append_assoc]
  have hsize : write (List.replicate 4 0 ++ List.replicate 255 0 ++
        (List.replicate content.length 0 ++ buffer.val.drop (4 + 255 + content.length))) 0
        (bigEndian 4 (UInt32.ofNat content.length).toNat) =
      bigEndian 4 (UInt32.ofNat content.length).toNat ++ List.replicate 255 0 ++
        (List.replicate content.length 0 ++ buffer.val.drop (4 + 255 + content.length)) := by
    have h := write_middle [] (List.replicate 4 0) (List.replicate 255 0 ++
      (List.replicate content.length 0 ++ buffer.val.drop (4 + 255 + content.length)))
      (bigEndian 4 (UInt32.ofNat content.length).toNat) 0 rfl (by simp)
    simpa only [List.nil_append, List.append_assoc] using h
  have hname := write_middle (bigEndian 4 (UInt32.ofNat content.length).toNat)
    (List.replicate 255 0)
    (List.replicate content.length 0 ++ buffer.val.drop (4 + 255 + content.length))
    (strncpy fileName 255) 4 (length_bigEndian _ _)
    (by rw [List.length_replicate, length_strncpy])
  have hcontent := write_middle
    (bigEndian 4 (UInt32.ofNat content.length).toNat ++ strncpy fileName 255)
    (List.replicate content.length 0 ++ buffer.val.drop (4 + 255 + content.length)) []
    (content ++ [0]) (4 + 255) (by rw [List.length_append, length_bigEndian, length_strncpy]) (by
      simp only [List.length_append, List.length_replicate, List.length_drop, List.length_singleton]
      omega)
  rw [List.append_nil, List.append_nil] at hcontent
  simp only [fillPayloadBuffer]
  rw [hzero, hsize, hname, strcpy, cString_of_notMem content hnull, hcontent]

-- The buffer of `createFilePayloadBuffer` leaves no trace in the payload.
theorem createFilePayloadBuffer_memory (fileName content : List UInt8) (hnull : 0 ∉ content)
    (buffer buffer' : Buffer (4 + 255 + content.length + 1)) :
    fillPayloadBuffer fileName content buffer.val = fillPayloadBuffer fileName content buffer'.val := by
  rw [fillPayloadBuffer_eq _ _ buffer hnull, fillPayloadBuffer_eq _ _ buffer' hnull]

-- A payload of 16 bytes overwrites the whole client id.
theorem storeClientId_val (clientId : ClientId) (payload : List UInt8)
    (hlength : 16 ≤ payload.length) :
    (storeClientId clientId payload).val = payload.take 16 := by
  apply write_all
  rw [clientId.property, List.length_take]
  omega

-- The id that the server gives in this payload. Behind a shorter one the rest is open.
def GivenId (payload : List UInt8) (clientId : ClientId) : Prop :=
  payload.take 16 <+: clientId.val

theorem storeClientId_given (clientId : ClientId) (payload : List UInt8) :
    GivenId payload (storeClientId clientId payload) := by
  show payload.take 16 <+: write clientId.val 0 (payload.take 16)
  rw [write, List.take_zero, List.nil_append]
  exact List.prefix_append _ _

namespace ProtocolHandler

variable (self : ProtocolHandler)

theorem statusRequest_memory (clientId : ClientId) (code : UInt16) (hpath : 0 ∉ self.filePath)
    (buffer buffer' : Buffer (self.filePath.length + 1)) :
    self.statusRequest clientId code buffer = self.statusRequest clientId code buffer' := by
  have hpayload (memory : Buffer (self.filePath.length + 1)) :
      write memory.val 0 (strcpy self.filePath) = self.filePath ++ [0] := by
    rw [strcpy, cString_of_notMem _ hpath]
    apply write_all
    rw [memory.property, List.length_append, List.length_singleton]
  simp only [statusRequest, hpayload]

theorem pubkeyRequest_memory (clientId : ClientId) (publicKey : List UInt8)
    (buffer buffer' : Buffer (NAME_FIELD_SIZE + publicKey.length)) :
    self.pubkeyRequest clientId publicKey buffer = self.pubkeyRequest clientId publicKey buffer' := by
  have hzero (memory : Buffer (NAME_FIELD_SIZE + publicKey.length)) :
      write memory.val 0 (List.replicate (NAME_FIELD_SIZE + publicKey.length) 0) =
        List.replicate (NAME_FIELD_SIZE + publicKey.length) 0 := by
    apply write_all
    rw [memory.property, List.length_replicate]
  simp only [pubkeyRequest, pubkeyPayload, hzero]

end ProtocolHandler

end TransferClient
