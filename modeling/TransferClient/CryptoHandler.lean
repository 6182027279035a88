import TransferClient.System

namespace TransferClient.CryptoHandler

open Interaction Bytes Client

def generate_rsa_key_pair : Client KeyPair := do
  ofOption .cryptoPP (← generateKeyPair)

-- `AESWrapper::encrypt`, whose length is a 32-bit `unsigned int`.
def encrypt (crypto : CryptoPP) (key plain : List UInt8) (length : UInt32) :
    Client (List UInt8) := do
  let iv ← ofOption .cryptoPP (← generateBlock)
  let cipher := crypto.cbcEncryption key iv.val (plain.take length.toNat)
  return iv.val ++ cipher

def encrypt_with_aes (crypto : CryptoPP) (plaintext aes_key : List UInt8) :
    Client (List UInt8) := do
  if aes_key.length ≠ 16 then
    raise (.invalidArgument (text "Key length must be 16 bytes."))
  else
    let encrypted ← encrypt crypto aes_key plaintext (UInt32.ofNat plaintext.length)
    return hex encrypted

def decrypt_with_rsa (ciphertext private_key : List UInt8) : Client (List UInt8) := do
  ofOption .cryptoPP (← rsaDecrypt ciphertext private_key)

end TransferClient.CryptoHandler
