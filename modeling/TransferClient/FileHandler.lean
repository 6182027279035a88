import TransferClient.System

namespace TransferClient

open Interaction Bytes Client

def CLIENTS_BASE_PATH : List UInt8 :=
  text "/Users/erez/Desktop/defensive_prog_lab/c++/defensive_maman_15/"
def PRIVATE_KEY_FILE : List UInt8 := text "priv.key"
def ME_INFO_FILE_NAME : List UInt8 := text "me.info"
def TRANSFER_INFO_FILE_NAME : List UInt8 := text "transfer.info"

structure MeInfo where
  name : List UInt8
  uuid : List UInt8
  base64Key : List UInt8
deriving DecidableEq

structure TransferInfo where
  ipAddress : List UInt8
  port : Int
  name : List UInt8
  filePath : List UInt8
deriving DecidableEq

-- `std::getline`: the line and what is left of the stream.
def getline (stream : List UInt8) : List UInt8 × List UInt8 :=
  (stream.takeWhile (· != 10), (stream.dropWhile (· != 10)).tail)

def isSpace (c : UInt8) : Bool :=
  c = 32 || (9 ≤ c && c ≤ 13)

def isDigit (c : UInt8) : Bool :=
  48 ≤ c && c ≤ 57

def decimal (digits : List UInt8) : Nat :=
  digits.foldl (fun value c => 10 * value + (c.toNat - 48)) 0

def sign : List UInt8 → Int × List UInt8
  | 43 :: rest => (1, rest)
  | 45 :: rest => (-1, rest)
  | unsigned => (1, unsigned)

-- `std::stoi`: leading white space, a sign, the longest run of digits.
def stoi (string : List UInt8) : Except Exception Int :=
  let (factor, unsigned) := sign ((cString string).dropWhile isSpace)
  let digits := unsigned.takeWhile isDigit
  if digits = [] then .error (.invalidArgument (text "stoi"))
  else
    let value := factor * decimal digits
    if -2147483648 ≤ value ∧ value ≤ 2147483647 then .ok value else .error .outOfRange

namespace FileHandler

def openFile {α : Type} (path : List UInt8) (file : Option α) : Client α :=
  ofOption (.runtimeError (text "Unable to open " ++ path)) file

def readMeInfo : Client MeInfo := do
  let path := CLIENTS_BASE_PATH ++ ME_INFO_FILE_NAME
  let file ← openFile path (← ifstream path)
  let (name, file) := getline file
  let (uuid, file) := getline file
  let (base64Key, _) := getline file
  return { name, uuid, base64Key }

def splitAddress (path ip_port name filePath : List UInt8) : Except Exception TransferInfo :=
  if 58 ∈ ip_port then do
    let port ← stoi (ip_port.dropWhile (· != 58)).tail
    return { ipAddress := ip_port.takeWhile (· != 58), port, name, filePath }
  else
    .error (.runtimeError (text "Invalid format for IP and port in " ++ path))

def readTransferInfo : Client TransferInfo := do
  let path := CLIENTS_BASE_PATH ++ TRANSFER_INFO_FILE_NAME
  let file ← openFile path (← ifstream path)
  let (ip_port, file) := getline file
  let (name, file) := getline file
  let (filePath, _) := getline file
  if name.length > 254 then
    raise (.runtimeError (text "Invalid name, name length must be <= 254 chars."))
  else
    match splitAddress path ip_port name filePath with
    | .ok info => return info
    | .error exception => raise exception

-- An output stream that opens has emptied the file.
def openOutput (path : List UInt8) : Client Unit := do
  let opened ← ofstream path
  openFile path (if opened then some () else none)

-- Nothing looks at the stream behind a write.
def writeToFile (filename content : List UInt8) : Client Unit := do
  openOutput filename
  let _ ← put filename content
  return ()

def meInfo (crypto : CryptoPP) (clientName : List UInt8) (clientId : ClientId)
    (privateKey : List UInt8) : List UInt8 :=
  let base64PrivateKey := (crypto.base64Encoder privateKey).filter (· != 10)
  clientName ++ [10] ++ hex clientId.val ++ [10] ++ base64PrivateKey

def saveMeInfo (crypto : CryptoPP) (clientName : List UInt8) (clientId : ClientId)
    (privateKey : List UInt8) : Client Unit := do
  let path := CLIENTS_BASE_PATH ++ ME_INFO_FILE_NAME
  openOutput path
  let _ ← put path (meInfo crypto clientName clientId privateKey)
  return ()

def savePrivateRSAKey (privateKey : List UInt8) : Client Unit :=
  writeToFile (CLIENTS_BASE_PATH ++ PRIVATE_KEY_FILE) privateKey

def readFileContents (path : List UInt8) : Client (List UInt8) := do
  openFile path (← ifstream path)

end FileHandler

end TransferClient
