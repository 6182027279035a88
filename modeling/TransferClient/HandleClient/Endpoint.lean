import TransferClient.HandleClient.Flow
import TransferClient.ProtocolHandler.Address
import TransferClient.ProtocolHandler.WholeRequests

namespace TransferClient

open Interaction Bytes Client

-- A line that names this endpoint: an address, a colon, and behind white space the digits
-- of a port.
inductive Written : List UInt8 → UInt32 → UInt16 → Prop where
  | endpoint (a b c d : UInt8) (spaces digits : List UInt8) (hspaces : ∀ c ∈ spaces, isSpace c = true)
      (hdigits : ∀ c ∈ digits, isDigit c = true) (hsome : digits ≠ []) (hport : decimal digits ≤ 65535) :
      Written (dotted a b c d ++ [58] ++ spaces ++ digits) (UInt32.ofNat (fromBigEndian [a, b, c, d]))
        (UInt16.ofNat (decimal digits))

-- Every connection of the client goes to the endpoint in the first line of transfer.info,
-- and without one the client ends with an exception or with false.
structure ConnectsAsWritten (crypto : CryptoPP) (contents : List UInt8) : Prop where
  connects : ∀ trace outcome, (handleClient crypto).Runs trace outcome →
    trace.head? = some ⟨.ifstream TRANSFER_INFO_PATH, some contents⟩ →
    ∀ event ∈ trace, ∀ address port, event.op = .connect address port →
      Written (getline contents).1 address port
  rejects : ∀ trace outcome, (handleClient crypto).Runs trace outcome →
    trace.head? = some ⟨.ifstream TRANSFER_INFO_PATH, some contents⟩ →
    (∀ address port, ¬Written (getline contents).1 address port) →
      outcome = .ok false ∨ ∃ exception, outcome = .error (.thrown exception)

-- The two parts of the line.
def addressText (line : List UInt8) : List UInt8 :=
  line.takeWhile (· != 58)

def portText (line : List UInt8) : List UInt8 :=
  (line.dropWhile (· != 58)).tail

-- What `readTransferInfo` looks at: the colon, a number behind it, the length of the name.
structure Accepted (contents : List UInt8) : Prop where
  colon : 58 ∈ (getline contents).1
  number : (stoi (portText (getline contents).1)).isOk = true
  name : (getline (getline contents).2).1.length ≤ 254

-- The library reads both parts to their ends, and 16 bits hold the port.
structure ReadWhole (line : List UInt8) : Prop where
  address : (inet_pton (addressText line)).isSome
  null : 0 ∉ addressText line
  digits : ∀ c ∈ (portText line).dropWhile isSpace, isDigit c = true
  port : decimal ((portText line).dropWhile isSpace) ≤ 65535

theorem isSpace_of_isDigit (c : UInt8) (hc : isDigit c = true) : ¬isSpace c = true := by
  rw [isDigit_iff] at hc
  simp only [isSpace, Bool.or_eq_true, Bool.and_eq_true, decide_eq_true_eq, UInt8.le_iff_toNat_le,
    not_or]
  refine ⟨?_, by simp; omega⟩
  intro h
  simp [h] at hc

theorem sign_digits (digits : List UInt8) (hdigits : ∀ c ∈ digits, isDigit c = true) :
    sign digits = (1, digits) := by
  have hhead (c : UInt8) (rest : List UInt8) (hcons : digits = c :: rest) : 48 ≤ c.toNat := by
    have hc := hdigits c (by simp [hcons])
    exact ((isDigit_iff c).mp hc).1
  unfold sign
  split
  · exact absurd (hhead _ _ rfl) (by decide)
  · exact absurd (hhead _ _ rfl) (by decide)
  · rfl

theorem null_notMem_number (text : List UInt8)
    (hdigits : ∀ c ∈ text.dropWhile isSpace, isDigit c = true) :
    0 ∉ text := by
  intro hmem
  rw [← List.takeWhile_append_dropWhile (p := isSpace) (l := text), List.mem_append] at hmem
  rcases hmem with hspace | hdigit
  · exact absurd (List.mem_takeWhile_imp hspace) (by decide)
  · exact absurd (hdigits 0 hdigit) (by decide)

-- On digits, `stoi` is the number that they stand for.
theorem stoi_digits (text : List UInt8) (value : Int) (hstoi : stoi text = .ok value)
    (hdigits : ∀ c ∈ text.dropWhile isSpace, isDigit c = true) :
    text.dropWhile isSpace ≠ [] ∧ value = decimal (text.dropWhile isSpace) := by
  have hall : (text.dropWhile isSpace).takeWhile isDigit = text.dropWhile isSpace :=
    List.takeWhile_eq_self_iff.mpr hdigits
  simp only [stoi, cString_of_notMem text (null_notMem_number text hdigits), sign_digits _ hdigits,
    hall] at hstoi
  split at hstoi
  · cases hstoi
  · rename_i hsome
    split at hstoi
    · cases hstoi
      exact ⟨hsome, Int.one_mul _⟩
    · cases hstoi

theorem colon_split (line : List UInt8) (hcolon : 58 ∈ line) :
    line = addressText line ++ [58] ++ portText line := by
  have hsplit := List.takeWhile_append_dropWhile (p := (· != 58)) (l := line)
  cases hdrop : line.dropWhile (· != 58) with
  | nil =>
      rw [List.dropWhile_eq_nil_iff] at hdrop
      exact absurd (hdrop 58 hcolon) (by decide)
  | cons c rest =>
      have hc := List.head?_dropWhile_not (· != 58) line
      simp only [hdrop, List.head?_cons, bne_eq_false_iff_eq] at hc
      subst hc
      rw [addressText, portText, hdrop, List.tail_cons, List.append_assoc, List.singleton_append,
        ← hdrop, hsplit]

-- A line that is read whole names what is read from it.
theorem ReadWhole.written {line : List UInt8} (hwhole : ReadWhole line) (hcolon : 58 ∈ line)
    (port : Int) (hstoi : stoi (portText line) = .ok port) :
    Written line ((inet_pton (addressText line)).getD 0) (UInt16.ofNat (port % 2 ^ 16).toNat) := by
  obtain ⟨address, haddress⟩ := Option.isSome_iff_exists.mp hwhole.address
  obtain ⟨a, b, c, d, htext, hvalue⟩ := dotted_of_inet_pton _ _ haddress
  rw [cString_of_notMem _ hwhole.null] at htext
  obtain ⟨hsome, hport⟩ := stoi_digits _ _ hstoi hwhole.digits
  have hspaces : ∀ c ∈ (portText line).takeWhile isSpace, isSpace c = true := fun c hc =>
    List.mem_takeWhile_imp hc
  have hline : line = dotted a b c d ++ [58] ++ (portText line).takeWhile isSpace ++
      (portText line).dropWhile isSpace := by
    rw [List.append_assoc _ (List.takeWhile _ _), List.takeWhile_append_dropWhile, ← htext]
    exact colon_split line hcolon
  have hnarrow : (port % 2 ^ 16).toNat = decimal ((portText line).dropWhile isSpace) := by
    have hsmall := hwhole.port
    omega
  rw [haddress, hnarrow, Option.getD_some, hvalue]
  have hwritten := Written.endpoint a b c d _ _ hspaces hwhole.digits hsome hwhole.port
  rwa [← hline] at hwritten

theorem parts_of_colon (address rest : List UInt8) (hcolon : 58 ∉ address) :
    addressText (address ++ [58] ++ rest) = address ∧
    portText (address ++ [58] ++ rest) = rest := by
  have hall := bne_of_notMem hcolon
  rw [addressText, portText, List.append_assoc, List.takeWhile_append_of_pos hall,
    List.dropWhile_append_of_pos hall]
  simp

theorem Written.readWhole {line : List UInt8} {address : UInt32} {port : UInt16}
    (hwritten : Written line address port) : ReadWhole line := by
  cases hwritten with
  | endpoint a b c d spaces digits hspaces hdigits hsome hport =>
      have hno := notMem_dotted a b c d 58 rfl (by decide)
      obtain ⟨haddress, htext⟩ := parts_of_colon (dotted a b c d) (spaces ++ digits) hno
      rw [← List.append_assoc] at haddress htext
      have hnumber : (spaces ++ digits).dropWhile isSpace = digits := by
        rw [List.dropWhile_append_of_pos hspaces]
        cases digits with
        | nil => rfl
        | cons c rest =>
            rw [List.dropWhile_cons_of_neg (isSpace_of_isDigit c (hdigits c (by simp)))]
      constructor
      · rw [haddress, inet_pton_dotted]
        rfl
      · rw [haddress]
        exact notMem_dotted a b c d 0 rfl (by decide)
      · rw [htext, hnumber]
        exact hdigits
      · rw [htext, hnumber]
        exact hport

theorem transferInfoOf_ok {contents : List UInt8} {info : TransferInfo}
    (hinfo : FileHandler.transferInfoOf contents = .ok info) :
    Accepted contents ∧ info.ipAddress = addressText (getline contents).1 ∧
      stoi (portText (getline contents).1) = .ok info.port := by
  simp only [FileHandler.transferInfoOf] at hinfo
  split at hinfo
  · cases hinfo
  · rename_i hname
    unfold FileHandler.splitAddress at hinfo
    split at hinfo
    · rename_i hcolon
      change (stoi (portText (getline contents).1) >>= _) = _ at hinfo
      cases hstoi : stoi (portText (getline contents).1) with
      | error exception =>
          rw [hstoi] at hinfo
          cases hinfo
      | ok port =>
          rw [hstoi] at hinfo
          cases hinfo
          exact ⟨⟨hcolon, by rw [hstoi]; rfl, Nat.not_lt.mp hname⟩, rfl, rfl⟩
    · cases hinfo

theorem Accepted.transferInfoOf {contents : List UInt8} (haccepted : Accepted contents) :
    ∃ info, FileHandler.transferInfoOf contents = .ok info := by
  have hname := haccepted.name
  cases hstoi : stoi (portText (getline contents).1) with
  | error exception =>
      have hnumber := haccepted.number
      rw [hstoi] at hnumber
      cases hnumber
  | ok port =>
      simp only [FileHandler.transferInfoOf]
      rw [if_neg (by omega), FileHandler.splitAddress, if_pos haccepted.colon]
      change ∃ info, (stoi (portText (getline contents).1) >>= _) = Except.ok info
      rw [hstoi]
      exact ⟨_, rfl⟩

open ProtocolHandler

-- The client connects to what its configuration says.
def ConnectsTo (info : TransferInfo) (event : Event Ans) : Prop :=
  ∀ address port, event.op = .connect address port →
    address = (configured info info.name).sin_addr ∧ port = (configured info info.name).sin_port

theorem connecting_connectsTo {info : TransferInfo} {name : List UInt8} {flow : Client Bool}
    {trace : Trace}
    {outcome : Except Stop Bool}
    (hruns : ((configured info name).connecting flow).Runs trace outcome)
    (hflow : ∀ rest outcome, flow.Runs rest outcome → Connected rest) :
    ∀ event ∈ trace, ConnectsTo info event := by
  apply forall_mem_connecting (ConnectsTo info) hruns
  · intro created address port hop
    cases hop
  · intro connected address port hop
    cases hop
    exact ⟨rfl, rfl⟩
  · intro rest outcome hrest event he address port hop
    exact absurd hop (hflow rest outcome hrest event he address port)

-- Both connections of a run go there.
theorem handleClient_connectsTo (crypto : CryptoPP) (trace : Trace) (outcome : Except Stop Bool)
    (hruns : (handleClient crypto).Runs trace outcome) (contents : List UInt8) (info : TransferInfo)
    (hconfiguration : trace.head? = some ⟨.ifstream TRANSFER_INFO_PATH, some contents⟩)
    (hinfo : FileHandler.transferInfoOf contents = .ok info) :
    ∀ event ∈ trace, ConnectsTo info event := by
  have hfile (path : List UInt8) (file : Option (List UInt8)) :
      ConnectsTo info ⟨.ifstream path, file⟩ := by
    intro address port hop
    cases hop
  have hregister (rest : Trace) (outcome : Except Stop Bool)
      (hflow : ((configured info info.name).handleRegistration crypto).Runs rest outcome) : Connected rest :=
    (handleRegistration_registration crypto _ rest outcome hflow).connected
  have hreconnect (name : List UInt8) (rest : Trace) (outcome : Except Stop Bool)
      (hflow : ((configured info name).handleReconnection crypto).Runs rest outcome) : Connected rest :=
    (handleReconnection_reconnection crypto _ rest outcome hflow).connected
  rcases handleClient_accepted hruns hconfiguration hinfo with ⟨rest, rfl, hfallback⟩ |
    ⟨lines, name, rest, rfl, hknown⟩ | ⟨lines, name, first, rest, what, rfl, hknown, hfallback⟩
  · exact List.forall_mem_append.mpr ⟨by simp [hfile], connecting_connectsTo hfallback hregister⟩
  · exact List.forall_mem_append.mpr
      ⟨by simp [hfile], connecting_connectsTo hknown (hreconnect name)⟩
  · refine List.forall_mem_append.mpr ⟨?_, connecting_connectsTo hfallback hregister⟩
    exact List.forall_mem_append.mpr
      ⟨by simp [hfile], connecting_connectsTo hknown (hreconnect name)⟩

-- A configuration that is not accepted ends the run, by an exception.
theorem handleClient_rejected (crypto : CryptoPP) (trace : Trace) (outcome : Except Stop Bool)
    (hruns : (handleClient crypto).Runs trace outcome) (contents : List UInt8)
    (exception : Exception)
    (hconfiguration : trace.head? = some ⟨.ifstream TRANSFER_INFO_PATH, some contents⟩)
    (hinfo : FileHandler.transferInfoOf contents = .error exception) :
    trace = [⟨.ifstream TRANSFER_INFO_PATH, some contents⟩] ∧
    outcome = .error (.thrown exception) := by
  have hconfigured := handleClient_configured crypto trace outcome hruns
  cases hconfigured with
  | unopened stop => cases hconfiguration
  | rejected contents' exception' hinfo' =>
      cases hconfiguration
      rw [hinfo] at hinfo'
      cases hinfo'
      exact ⟨rfl, rfl⟩
  | unknown contents' info rest outcome hinfo' hfallback =>
      cases hconfiguration
      rw [hinfo] at hinfo'
      cases hinfo'
  | known contents' lines info self rest outcome hinfo' hself hknown houtcome =>
      cases hconfiguration
      rw [hinfo] at hinfo'
      cases hinfo'
  | failed contents' lines info self first rest what outcome hinfo' hself hknown hfallback =>
      cases hconfiguration
      rw [hinfo] at hinfo'
      cases hinfo'

-- The run of a client that is not known yet, up to a connection that fails.
def refusedRun (contents : List UInt8) (info : TransferInfo) : Trace :=
  [⟨.ifstream TRANSFER_INFO_PATH, some contents⟩, ⟨.ifstream ME_INFO_PATH, none⟩, ⟨.socket, true⟩,
    ⟨.connect (configured info info.name).sin_addr (configured info info.name).sin_port, false⟩]

theorem runs_refused (crypto : CryptoPP) (contents : List UInt8) (info : TransferInfo)
    (hinfo : FileHandler.transferInfoOf contents = .ok info) :
    (handleClient crypto).Runs (refusedRun contents info) (.ok false) := by
  rw [handleClient, Prog.runs_bind]
  refine .inl ⟨info, [⟨.ifstream TRANSFER_INFO_PATH, some contents⟩], _, rfl, ?_, ?_⟩
  · rw [FileHandler.runs_readTransferInfo_iff]
    exact .inl ⟨contents, rfl, by rw [hinfo]; rfl⟩
  · rw [Prog.runs_tryCatch]
    refine .inr ⟨unableToOpen ME_INFO_PATH, [⟨.ifstream ME_INFO_PATH, none⟩], _, rfl, ?_, ?_⟩
    · exact ⟨none, [], rfl, rfl, rfl⟩
    · exact (runs_connecting (configured info info.name) _ _ _).mpr (.inr (.inl ⟨rfl, rfl⟩))

theorem ConnectsAsWritten.readWhole {crypto : CryptoPP} {contents : List UInt8}
    {info : TransferInfo}
    (hwritten : ConnectsAsWritten crypto contents)
    (hinfo : FileHandler.transferInfoOf contents = .ok info) :
    ReadWhole (getline contents).1 := by
  have hruns := runs_refused crypto contents info hinfo
  have hlast := List.getLast_mem (l := refusedRun contents info) (by simp [refusedRun])
  exact (hwritten.connects _ _ hruns rfl _ hlast _ _ rfl).readWhole

-- The client connects as written exactly when the library reads every accepted line whole.
theorem connectsAsWritten_iff (crypto : CryptoPP) (contents : List UInt8) :
    ConnectsAsWritten crypto contents ↔ (Accepted contents → ReadWhole (getline contents).1) := by
  constructor
  · intro hwritten haccepted
    obtain ⟨info, hinfo⟩ := haccepted.transferInfoOf
    exact hwritten.readWhole hinfo
  · intro hwhole
    cases hinfo : FileHandler.transferInfoOf contents with
    | error exception =>
        constructor
        · intro trace outcome hruns hhead event he address port hop
          obtain ⟨rfl, _⟩ :=
            handleClient_rejected crypto trace outcome hruns contents exception hhead hinfo
          rw [List.mem_singleton.mp he] at hop
          cases hop
        · intro trace outcome hruns hhead hno
          have hrejected :=
            handleClient_rejected crypto trace outcome hruns contents exception hhead hinfo
          exact .inr ⟨exception, hrejected.2⟩
    | ok info =>
        obtain ⟨haccepted, haddress, hstoi⟩ := transferInfoOf_ok hinfo
        have hwritten := (hwhole haccepted).written haccepted.colon info.port hstoi
        rw [← haddress] at hwritten
        constructor
        · intro trace outcome hruns hhead event he address port hop
          obtain ⟨rfl, rfl⟩ := handleClient_connectsTo crypto trace outcome hruns contents info hhead hinfo
            event he address port hop
          exact hwritten
        · intro trace outcome hruns hhead hno
          exact absurd hwritten (hno _ _)

-- A name in place of the address is 0.0.0.0, and the port 65616 is 80.
theorem connects_elsewhere :
    let host := text "localhost:8080" ++ [10] ++ text "name" ++ [10] ++ text "file"
    let wide := text "127.0.0.1:65616" ++ [10] ++ text "name" ++ [10] ++ text "file"
    ((handleClient Sample.crypto).Runs
        [⟨.ifstream TRANSFER_INFO_PATH, some host⟩, ⟨.ifstream ME_INFO_PATH, none⟩, ⟨.socket, true⟩,
          ⟨.connect 0 8080, false⟩] (.ok false) ∧
      ¬ConnectsAsWritten Sample.crypto host) ∧
    ((handleClient Sample.crypto).Runs
        [⟨.ifstream TRANSFER_INFO_PATH, some wide⟩, ⟨.ifstream ME_INFO_PATH, none⟩, ⟨.socket, true⟩,
          ⟨.connect 2130706433 80, false⟩] (.ok false) ∧
      ¬ConnectsAsWritten Sample.crypto wide) := by
  intro host wide
  have hhost : FileHandler.transferInfoOf host =
      .ok ⟨text "localhost", 8080, text "name", text "file"⟩ := by
    decide +kernel
  have hwide : FileHandler.transferInfoOf wide =
      .ok ⟨text "127.0.0.1", 65616, text "name", text "file"⟩ := by
    decide +kernel
  refine ⟨⟨runs_refused Sample.crypto host _ hhost, ?_⟩, runs_refused Sample.crypto wide _ hwide,
    ?_⟩
  · intro hwritten
    exact absurd (hwritten.readWhole hhost).address (by decide +kernel)
  · intro hwritten
    exact absurd (hwritten.readWhole hwide).port (by decide +kernel)

end TransferClient
