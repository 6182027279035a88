import TransferClient.System

namespace TransferClient

open Bytes

-- A pair of keys of the library, as `Save` writes each of them.
structure RSAPrivateWrapper where
  derKey : List UInt8
  derPrivateKey : List UInt8

namespace RSAPrivateWrapper

variable (crypto : CryptoPP) (rsaPrivate : RSAPrivateWrapper)

def getPublicKey : List UInt8 :=
  let pemKey := crypto.base64Encoder rsaPrivate.derKey
  text "-----BEGIN PUBLIC KEY-----\n" ++ pemKey ++ text "\n-----END PUBLIC KEY-----\n"

def getPrivateKey : List UInt8 :=
  rsaPrivate.derPrivateKey

-- What `generate_rsa_key_pair` returns for these keys.
def keyPair : KeyPair :=
  ⟨rsaPrivate.getPublicKey crypto, rsaPrivate.getPrivateKey⟩

end RSAPrivateWrapper

end TransferClient
