import TransferClient.Base64
import TransferClient.ProtocolHandler.KeyStore

namespace TransferClient

open Interaction Bytes Client

-- The lines of me.info, as far as they say who the client is: its name, its id in
-- lowercase hex digits and its private key in Base64.
structure Identifies (info : MeInfo) (name : List UInt8) (clientId : ClientId)
    (privateKey : List UInt8) :
    Prop where
  name : info.name = name
  digits : info.uuid.length = 32 ∧
    ∀ c ∈ info.uuid, (48 ≤ c.toNat ∧ c.toNat ≤ 57) ∨ (97 ≤ c.toNat ∧ c.toNat ≤ 102)
  uuid : unhex info.uuid = some clientId.val
  key : Base64.decode info.base64Key = some privateKey

namespace FileHandler

variable {crypto : CryptoPP}
  (hencoder : ∀ key, (crypto.base64Encoder key).filter (· != 10) = Base64.encode key)

include hencoder in
theorem meInfo_identifies (name : List UInt8) (clientId : ClientId) (privateKey : List UInt8)
    (hname : 10 ∉ name) :
    Identifies (meInfoOf (meInfo crypto name clientId privateKey)) name clientId privateKey := by
  rw [meInfoOf_meInfo crypto name clientId privateKey hname]
  have hlength : (hex clientId.val).length = 32 := by rw [length_hex, clientId.property]
  refine ⟨rfl, ⟨hlength, mem_hex clientId.val⟩, unhex_hex clientId.val, ?_⟩
  show Base64.decode ((crypto.base64Encoder privateKey).filter (· != 10)) = _
  rw [hencoder, Base64.decode_encode]

-- After `saveMeInfo` has succeeded the file holds what was to be saved.
theorem saveMeInfo_stored (name : List UInt8) (clientId : ClientId) (privateKey : List UInt8)
    (trace : Trace) (hruns : (saveMeInfo crypto name clientId privateKey).Runs trace (.ok ()))
    (hwrites : ∀ event ∈ trace, getsThrough event = true) (disk : Disk) :
    disk.after trace ME_INFO_PATH = some (meInfo crypto name clientId privateKey) := by
  rw [saveMeInfo_eq, runs_writeToFile] at hruns
  rcases hruns with ⟨count, rfl, _⟩ | ⟨_, he⟩
  · have hcount :=
      hwrites ⟨.put ME_INFO_PATH (meInfo crypto name clientId privateKey), count⟩ (by simp)
    simp [Disk.after, Disk.event, Disk.set, List.take_of_length_le (of_decide_eq_true hcount)]
  · cases he

end FileHandler

theorem Identifies.unique {info : MeInfo} {name name' : List UInt8} {clientId clientId' : ClientId}
    {key key' : List UInt8} (hfirst : Identifies info name clientId key)
    (hsecond : Identifies info name' clientId' key') :
    name = name' ∧ clientId = clientId' ∧ key = key' := by
  have huuid := hfirst.uuid.symm.trans hsecond.uuid
  have hkey := hfirst.key.symm.trans hsecond.key
  exact ⟨hfirst.name.symm.trans hsecond.name, Subtype.ext (Option.some.inj huuid),
    Option.some.inj hkey⟩

namespace Sample

-- A library whose Base64 texts end with a line feed.
def base64 : CryptoPP :=
  { crypto with base64Encoder := fun key => Base64.encode key ++ [10] }

theorem base64_encoder (key : List UInt8) :
    (base64.base64Encoder key).filter (· != 10) = Base64.encode key := by
  have hline : (Base64.encode key).filter (· != 10) = Base64.encode key := by
    rw [List.filter_eq_self]
    exact bne_of_notMem (Base64.lineFeed_notMem_encode key)
  rw [show base64.base64Encoder key = Base64.encode key ++ [10] from rfl, List.filter_append, hline]
  simp

end Sample

end TransferClient
