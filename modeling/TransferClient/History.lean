import TransferClient.HandleClient.Flow
import TransferClient.Interaction.Past
import TransferClient.ProtocolHandler.KeyStore
import TransferClient.ProtocolHandler.RequestStream

namespace TransferClient

open Interaction Bytes Client ServerRequests ServerResponses

-- What a run reads of a file is what the file holds. A file may always fail to open.
def Disk.Reads (disk : Disk) (event : Event Ans) : Prop :=
  match event with
  | ⟨.ifstream path, some contents⟩ => disk path = some contents
  | ⟨.ifstreamAte path, .contents contents⟩ => disk path = some contents
  | _ => True

instance (disk : Disk) (event : Event Ans) : Decidable (disk.Reads event) := by
  unfold Disk.Reads
  split <;> infer_instance

-- A run of the client on a machine with these files, up to where it is cut off.
structure RunsOn (crypto : CryptoPP) (disk : Disk) (trace : Trace) : Prop where
  runs : ∃ rest outcome, (handleClient crypto).Runs (trace ++ rest) outcome
  reads : AtEach (fun past event => (disk.after past).Reads event) trace

-- The runs of the client on one machine, with the files that they leave. It starts without
-- me.info, which is then the client's own; the other files may change between the runs.
inductive History (crypto : CryptoPP) : List Trace → Disk → Prop where
  | installed (disk : Disk) (hnew : disk ME_INFO_PATH = none) : History crypto [] disk
  | edited (runs : List Trace) (disk disk' : Disk) (hhistory : History crypto runs disk)
      (hkept : disk' ME_INFO_PATH = disk ME_INFO_PATH) : History crypto runs disk'
  | ran (runs : List Trace) (disk : Disk) (run : Trace) (hhistory : History crypto runs disk)
      (hruns : RunsOn crypto disk run) : History crypto (runs ++ [run]) (disk.after run)

-- me.info has been opened for writing, which empties it.
def emptied : Event Ans :=
  ⟨.ofstream ME_INFO_PATH, true⟩

-- The server has let in a client of this name, and has given it this id in the answer.
def LetIn (trace : Trace) (name : List UInt8) (clientId : ClientId) : Prop :=
  ∃ (past future : Trace) (request : Request) (answer : Response),
    trace = past ++ sent request :: got answer :: future ∧ request.payload = nameField name ∧
      Approves (request, answer) ∧ GivenId answer.payload clientId

-- The contents of me.info for a client that the server has let in, with a key of this run.
def Entry (crypto : CryptoPP) (trace : Trace) (content : List UInt8) : Prop :=
  ∃ (name : List UInt8) (clientId : ClientId) (keys : KeyPair),
    content = FileHandler.meInfo crypto name clientId keys.privateKey ∧ 10 ∉ name ∧
      LetIn trace name clientId ∧ ⟨.generateKeyPair, some keys⟩ ∈ trace

-- Whatever is put into me.info is such an entry. It is put into the file as soon as that has
-- been emptied, and at no other time.
structure Recorded (crypto : CryptoPP) (past : Trace) (event : Event Ans) : Prop where
  entry : ∀ content, event.op = .put ME_INFO_PATH content →
    past.getLast? = some emptied ∧ Entry crypto past content
  filled : past.getLast? = some emptied → ∃ content, event.op = .put ME_INFO_PATH content

-- A reconnection goes by the name in me.info, which the run has read at its beginning.
def Reconnects (past : Trace) (event : Event Ans) : Prop :=
  ∀ request, event = sent request → request.code = RECONNECT → ∃ configuration lines,
    [⟨.ifstream TRANSFER_INFO_PATH, some configuration⟩, ⟨.ifstream ME_INFO_PATH, some lines⟩] <+: past ∧
      request.payload = nameField (FileHandler.meInfoOf lines).name

-- One of the runs has registered a client by a request with this payload.
def Registered (runs : List Trace) (payload : List UInt8) : Prop :=
  ∃ run ∈ runs, ∃ past future request answer, run = past ++ sent request :: got answer :: future ∧
    request.code = REGISTRATION ∧ request.payload = payload ∧ answer.code = REGISTRATION_SUCCESS

-- One of the runs was cut off between emptying me.info and filling it.
def CutOff (runs : List Trace) : Prop :=
  ∃ run ∈ runs, run.getLast? = some emptied

-- A client that goes by this payload has been registered before, or it has no name, since
-- its file was lost.
def Known (runs : List Trace) (payload : List UInt8) : Prop :=
  Registered runs payload ∨ payload = nameField [] ∧ CutOff runs

end TransferClient
