import TransferClient.Interaction
import TransferClient.Message
import TransferClient.Checksum

namespace TransferClient

open Interaction

-- The exceptions of the program, by the classes that a handler can tell apart.
inductive Exception where
  | runtimeError (what : List UInt8)
  | invalidArgument (what : List UInt8)
  | outOfRange
  | allocation
  | cryptoPP
deriving DecidableEq

-- How a function ends when it does not return. After `undefined` the language
-- says nothing about the rest of the run.
inductive Stop where
  | thrown (exception : Exception)
  | undefined
deriving DecidableEq

structure KeyPair where
  publicKey : List UInt8
  privateKey : List UInt8
deriving DecidableEq

-- What opening, sizing and reading a file for its checksum can come to.
inductive Reading where
  | cannotOpen
  | noSize
  | noMemory
  | shortRead
  | contents (bytes : List UInt8)
deriving DecidableEq

-- What the program asks of the world around it. `newArray` is memory that is
-- not initialised, on the stack or on the heap.
inductive Op where
  | newArray (size : Nat)
  | socket
  | connect (address : UInt32) (port : UInt16)
  | sendRequest (request : Request)
  | getResponse
  | ifstream (path : List UInt8)
  | ifstreamAte (path : List UInt8)
  | ofstream (path : List UInt8)
  | put (path content : List UInt8)
  | generateKeyPair
  | rsaDecrypt (ciphertext privateKey : List UInt8)
  | generateBlock
deriving DecidableEq

-- An `ifstream` that opens is its content. A `put` is answered by how many of the bytes
-- get into the file. `none` from a cryptographic operation is an exception of the library.
@[reducible] def Ans : Op → Type
  | .newArray size => Buffer size
  | .socket => Bool
  | .connect _ _ => Bool
  | .sendRequest _ => Unit
  | .getResponse => Response
  | .ifstream _ => Option (List UInt8)
  | .ifstreamAte _ => Reading
  | .ofstream _ => Bool
  | .put _ _ => Nat
  | .generateKeyPair => Option KeyPair
  | .rsaDecrypt _ _ => Option (List UInt8)
  | .generateBlock => Option (Buffer 16)

abbrev Client := Prog Ans Stop

-- A run of the client, as its questions to the world and their answers.
abbrev Trace := List (Event Ans)

namespace Client

-- Each question, with the type of its answer.
abbrev newArray (size : Nat) : Client (Buffer size) := Prog.ask (Op.newArray size)
abbrev socket : Client Bool := Prog.ask Op.socket
abbrev connect (address : UInt32) (port : UInt16) : Client Bool :=
  Prog.ask (Op.connect address port)
abbrev sendRequest (request : Request) : Client Unit := Prog.ask (Op.sendRequest request)
abbrev getResponse : Client Response := Prog.ask Op.getResponse
abbrev ifstream (path : List UInt8) : Client (Option (List UInt8)) := Prog.ask (Op.ifstream path)
abbrev ifstreamAte (path : List UInt8) : Client Reading := Prog.ask (Op.ifstreamAte path)
abbrev ofstream (path : List UInt8) : Client Bool := Prog.ask (Op.ofstream path)
abbrev put (path content : List UInt8) : Client Nat := Prog.ask (Op.put path content)
abbrev generateKeyPair : Client (Option KeyPair) := Prog.ask Op.generateKeyPair
abbrev rsaDecrypt (ciphertext privateKey : List UInt8) : Client (Option (List UInt8)) :=
  Prog.ask (Op.rsaDecrypt ciphertext privateKey)
abbrev generateBlock : Client (Option (Buffer 16)) := Prog.ask Op.generateBlock

def raise {α : Type} (exception : Exception) : Client α :=
  throw (.thrown exception)

def undefinedBehaviour {α : Type} : Client α :=
  throw .undefined

def ofOption {α : Type} (exception : Exception) : Option α → Client α
  | some value => pure value
  | none => raise exception

end Client

-- The library functions that the client computes with.
structure CryptoPP where
  base64Encoder : List UInt8 → List UInt8
  cbcEncryption : (key iv plain : List UInt8) → List UInt8

end TransferClient
