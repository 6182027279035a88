import Mathlib.Data.List.TakeWhile
import TransferClient.Bytes.Theorems
import TransferClient.FileHandler
import TransferClient.Trace

namespace TransferClient

open Interaction Bytes Client

def PRIVATE_KEY_PATH : List UInt8 := CLIENTS_BASE_PATH ++ PRIVATE_KEY_FILE
def ME_INFO_PATH : List UInt8 := CLIENTS_BASE_PATH ++ ME_INFO_FILE_NAME
def TRANSFER_INFO_PATH : List UInt8 := CLIENTS_BASE_PATH ++ TRANSFER_INFO_FILE_NAME

-- How a function ends that cannot open this file.
def unableToOpen (path : List UInt8) : Stop :=
  .thrown (.runtimeError (text "Unable to open " ++ path))

namespace FileHandler

-- A file does not open and nothing is written, or it has been emptied and as much of the
-- content is written as gets through.
theorem runs_writeToFile (path content : List UInt8) (trace : Trace) (outcome : Except Stop Unit) :
    (writeToFile path content).Runs trace outcome ↔
      (∃ count, trace = [⟨.ofstream path, true⟩, ⟨.put path content, count⟩] ∧ outcome = .ok ()) ∨
      (trace = [⟨.ofstream path, false⟩] ∧ outcome = .error (unableToOpen path)) := by
  unfold writeToFile openOutput openFile
  rw [Prog.runs_bind]
  simp only [Prog.runs_ask_bind]
  constructor
  · rintro (⟨_, _, rest, rfl, ⟨opened, _, rfl, hopen⟩, count, last, rfl, hput⟩ |
      ⟨stop, rfl, opened, _, rfl, hopen⟩)
    · cases opened with
      | false => cases hopen.2
      | true =>
          obtain ⟨rfl, _⟩ := hopen
          obtain ⟨rfl, rfl⟩ := hput
          exact .inl ⟨count, rfl, rfl⟩
    · cases opened with
      | false =>
          obtain ⟨rfl, hstop⟩ := hopen
          exact .inr ⟨rfl, hstop⟩
      | true => cases hopen.2
  · rintro (⟨count, rfl, rfl⟩ | ⟨rfl, rfl⟩)
    · exact .inl ⟨(), [⟨.ofstream path, true⟩], [⟨.put path content, count⟩], rfl,
        ⟨true, [], rfl, rfl, rfl⟩, count, [], rfl, rfl, rfl⟩
    · exact .inr ⟨unableToOpen path, rfl, false, [], rfl, rfl, rfl⟩

theorem runs_writeToFile_bind {α : Type} (path content : List UInt8) (next : Unit → Client α)
    (trace : Trace) (outcome : Except Stop α) :
    (writeToFile path content >>= next).Runs trace outcome ↔
      (∃ count rest, trace = [⟨.ofstream path, true⟩, ⟨.put path content, count⟩] ++ rest ∧
        (next ()).Runs rest outcome) ∨
      (trace = [⟨.ofstream path, false⟩] ∧ outcome = .error (unableToOpen path)) := by
  rw [Prog.runs_bind]
  constructor
  · rintro (⟨_, first, rest, rfl, hwrite, hnext⟩ | ⟨stop, rfl, hwrite⟩)
    · rcases (runs_writeToFile path content first _).mp hwrite with ⟨count, rfl, _⟩ | ⟨_, hstop⟩
      · exact .inl ⟨count, rest, rfl, hnext⟩
      · cases hstop
    · rcases (runs_writeToFile path content trace _).mp hwrite with ⟨_, _, hstop⟩ | ⟨rfl, hstop⟩
      · cases hstop
      · cases hstop
        exact .inr ⟨rfl, rfl⟩
  · rintro (⟨count, rest, rfl, hnext⟩ | ⟨rfl, rfl⟩)
    · have hwrite := (runs_writeToFile path content _ _).mpr (.inl ⟨count, rfl, rfl⟩)
      exact .inl ⟨(), _, rest, rfl, hwrite, hnext⟩
    · have hwrite := (runs_writeToFile path content _ _).mpr (.inr ⟨rfl, rfl⟩)
      exact .inr ⟨_, rfl, hwrite⟩

theorem savePrivateRSAKey_eq (privateKey : List UInt8) :
    savePrivateRSAKey privateKey = writeToFile PRIVATE_KEY_PATH privateKey := rfl

theorem saveMeInfo_eq (crypto : CryptoPP) (clientName : List UInt8) (clientId : ClientId)
    (privateKey : List UInt8) :
    saveMeInfo crypto clientName clientId privateKey =
      writeToFile ME_INFO_PATH (meInfo crypto clientName clientId privateKey) := rfl

theorem runs_readFileContents (path : List UInt8) (trace : Trace)
    (outcome : Except Stop (List UInt8)) :
    (readFileContents path).Runs trace outcome ↔
      (∃ contents, trace = [⟨.ifstream path, some contents⟩] ∧ outcome = .ok contents) ∨
      (trace = [⟨.ifstream path, none⟩] ∧ outcome = .error (unableToOpen path)) := by
  simp only [readFileContents, openFile, Prog.runs_ask_bind]
  constructor
  · rintro ⟨file, rest, rfl, hrest⟩
    cases file with
    | none =>
        obtain ⟨rfl, rfl⟩ := hrest
        exact .inr ⟨rfl, rfl⟩
    | some contents =>
        obtain ⟨rfl, rfl⟩ := hrest
        exact .inl ⟨contents, rfl, rfl⟩
  · rintro (⟨contents, rfl, rfl⟩ | ⟨rfl, rfl⟩)
    · exact ⟨some contents, [], rfl, rfl, rfl⟩
    · exact ⟨none, [], rfl, rfl, rfl⟩

-- The three lines of a file with the client's information.
def meInfoOf (contents : List UInt8) : MeInfo :=
  let (name, file) := getline contents
  let (uuid, file) := getline file
  let (base64Key, _) := getline file
  { name, uuid, base64Key }

-- The client's information comes from one file, and only opening it can fail.
theorem runs_readMeInfo (trace : Trace) (outcome : Except Stop MeInfo)
    (hruns : readMeInfo.Runs trace outcome) :
    (∃ contents, trace = [⟨.ifstream ME_INFO_PATH, some contents⟩] ∧
      outcome = .ok (meInfoOf contents)) ∨
    (trace = [⟨.ifstream ME_INFO_PATH, none⟩] ∧ outcome = .error (unableToOpen ME_INFO_PATH)) := by
  unfold readMeInfo openFile at hruns
  simp only [Prog.runs_ask_bind] at hruns
  obtain ⟨file, rest, rfl, hrest⟩ := hruns
  cases file with
  | none =>
      obtain ⟨rfl, rfl⟩ := hrest
      exact .inr ⟨rfl, rfl⟩
  | some contents =>
      obtain ⟨rfl, rfl⟩ := hrest
      exact .inl ⟨contents, rfl, rfl⟩

-- What `readTransferInfo` makes of the contents of its file.
def transferInfoOf (contents : List UInt8) : Except Exception TransferInfo :=
  let (ip_port, file) := getline contents
  let (name, file) := getline file
  let (filePath, _) := getline file
  if name.length > 254 then
    .error (.runtimeError (text "Invalid name, name length must be <= 254 chars."))
  else
    splitAddress TRANSFER_INFO_PATH ip_port name filePath

theorem runs_readTransferInfo_iff (trace : Trace) (outcome : Except Stop TransferInfo) :
    readTransferInfo.Runs trace outcome ↔
      (∃ contents, trace = [⟨.ifstream TRANSFER_INFO_PATH, some contents⟩] ∧
        outcome = (transferInfoOf contents).mapError .thrown) ∨
      (trace = [⟨.ifstream TRANSFER_INFO_PATH, none⟩] ∧
        outcome = .error (unableToOpen TRANSFER_INFO_PATH)) := by
  simp only [readTransferInfo, openFile, Prog.runs_ask_bind]
  constructor
  · rintro ⟨file, rest, rfl, hrest⟩
    cases file with
    | none =>
        obtain ⟨rfl, rfl⟩ := hrest
        exact .inr ⟨rfl, rfl⟩
    | some contents =>
        have houtcome : rest = [] ∧ outcome = (transferInfoOf contents).mapError .thrown := by
          simp only [ofOption, Prog.runs_pure_bind] at hrest
          simp only [transferInfoOf]
          by_cases hname : (getline (getline contents).2).1.length > 254
          · rw [if_pos hname] at hrest ⊢
            exact hrest
          · rw [if_neg hname, show CLIENTS_BASE_PATH ++ TRANSFER_INFO_FILE_NAME = TRANSFER_INFO_PATH from rfl]
              at hrest
            rw [if_neg hname]
            cases hsplit : splitAddress TRANSFER_INFO_PATH _ _ _ <;> rw [hsplit] at hrest <;> exact hrest
        exact .inl ⟨contents, by rw [houtcome.1]; rfl, houtcome.2⟩
  · rintro (⟨contents, rfl, rfl⟩ | ⟨rfl, rfl⟩)
    · refine ⟨some contents, [], rfl, ?_⟩
      simp only [ofOption, Prog.runs_pure_bind, transferInfoOf]
      by_cases hname : (getline (getline contents).2).1.length > 254
      · rw [if_pos hname, if_pos hname]
        exact ⟨rfl, rfl⟩
      · rw [if_neg hname, if_neg hname,
          show CLIENTS_BASE_PATH ++ TRANSFER_INFO_FILE_NAME = TRANSFER_INFO_PATH from rfl]
        cases splitAddress TRANSFER_INFO_PATH _ _ _ <;> exact ⟨rfl, rfl⟩
    · exact ⟨none, [], rfl, rfl, rfl⟩

theorem getline_append (line rest : List UInt8) (hline : 10 ∉ line) :
    getline (line ++ [10] ++ rest) = (line, rest) := by
  have hall := bne_of_notMem hline
  unfold getline
  rw [List.append_assoc, List.takeWhile_append_of_pos hall, List.dropWhile_append_of_pos hall]
  simp

theorem getline_last (line : List UInt8) (hline : 10 ∉ line) : (getline line).1 = line := by
  unfold getline
  rw [List.takeWhile_eq_self_iff]
  exact bne_of_notMem hline

-- A stored file gives back what was stored, when the name is one line.
theorem meInfoOf_meInfo (crypto : CryptoPP) (clientName : List UInt8) (clientId : ClientId)
    (privateKey : List UInt8) (hname : 10 ∉ clientName) :
    meInfoOf (meInfo crypto clientName clientId privateKey) =
      { name := clientName
        uuid := hex clientId.val
        base64Key := (crypto.base64Encoder privateKey).filter (· != 10) } := by
  have hhex : 10 ∉ hex clientId.val := lineFeed_notMem_hex clientId.val
  have hkey : 10 ∉ (crypto.base64Encoder privateKey).filter (· != 10) := by simp
  simp only [meInfoOf, meInfo, List.append_assoc]
  rw [← List.append_assoc clientName, getline_append _ _ hname]
  simp only [← List.append_assoc (hex clientId.val)]
  rw [getline_append _ _ hhex]
  simp only [getline_last _ hkey]

end FileHandler

end TransferClient
