import TransferClient.Bytes

namespace TransferClient

open Bytes

def PROTOCOL_VERSION : UInt8 := 51
def NAME_FIELD_SIZE : Nat := 255

namespace ServerRequests

def REGISTRATION : UInt16 := 1025
def SEND_PUBLIC_KEY : UInt16 := 1026
def RECONNECT : UInt16 := 1027
def SEND_FILE : UInt16 := 1028
def CRC_CORRECT : UInt16 := 1029
def CRC_INCORRECT_RESEND : UInt16 := 1030
def CRC_INCORRECT_DONE : UInt16 := 1031

end ServerRequests

namespace ServerResponses

def REGISTRATION_SUCCESS : UInt16 := 2100
def RECEIVED_PUBLIC_KEY_SEND_AES : UInt16 := 2102
def FILE_RECEIVED_CRC_OK : UInt16 := 2103
def CONFIRM_MSG : UInt16 := 2104
def APPROVE_RECONNECT_SEND_AES : UInt16 := 2105
def RECONNECT_REJECTED : UInt16 := 2106

end ServerResponses

abbrev ClientId := Buffer 16

-- `padding` is the byte that the compiler puts between `version` and `code`.
-- `payload` is the memory that the payload pointer reaches.
structure Request where
  clientId : ClientId
  version : UInt8
  padding : UInt8 := 0
  code : UInt16
  payloadSize : UInt32
  payload : List UInt8
  inBounds : payloadSize.toNat ≤ payload.length
deriving DecidableEq

structure Response where
  version : UInt8
  code : UInt16
  payloadSize : UInt32
  payload : List UInt8
deriving DecidableEq

namespace Request

-- The part of the object in front of the payload pointer, as it lies in memory.
def header (request : Request) : List UInt8 :=
  request.clientId.val ++ [request.version, request.padding] ++
    littleEndian 2 request.code.toNat ++ littleEndian 4 request.payloadSize.toNat

-- What one `send` hands to the transport.
def frame (request : Request) : List UInt8 :=
  request.header ++ request.payload.take request.payloadSize.toNat

end Request

end TransferClient
