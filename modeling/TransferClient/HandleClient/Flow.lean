import TransferClient.HandleClient
import TransferClient.ProtocolHandler.Flow

namespace TransferClient

open Interaction Client

namespace ProtocolHandler

variable (self : ProtocolHandler)

-- What `handleConnection` connects to.
def sin_addr : UInt32 :=
  (inet_pton self.serverAddress).getD 0

def sin_port : UInt16 :=
  UInt16.ofNat (self.port % 2 ^ 16).toNat

theorem runs_handleConnection (trace : Trace) (outcome : Except Stop Bool) :
    self.handleConnection.Runs trace outcome ↔
      (trace = [⟨.socket, false⟩] ∧ outcome = .ok false) ∨
      ∃ connected, trace = [⟨.socket, true⟩, ⟨.connect self.sin_addr self.sin_port, connected⟩] ∧
        outcome = .ok connected := by
  simp only [handleConnection, Prog.runs_ask_bind]
  constructor
  · rintro ⟨created, rest, rfl, hruns⟩
    cases created with
    | false =>
        obtain ⟨rfl, rfl⟩ := hruns
        exact .inl ⟨rfl, rfl⟩
    | true =>
        obtain ⟨connected, _, rfl, rfl, rfl⟩ := hruns
        exact .inr ⟨connected, rfl, rfl⟩
  · rintro (⟨rfl, rfl⟩ | ⟨connected, rfl, rfl⟩)
    · exact ⟨false, [], rfl, rfl, rfl⟩
    · exact ⟨true, _, rfl, connected, [], rfl, rfl, rfl⟩

-- A flow over a connection that is made for it.
def connecting (flow : Client Bool) : Client Bool := do
  if ← self.handleConnection then
    flow
  else
    return false

theorem runs_connecting (flow : Client Bool) (trace : Trace) (outcome : Except Stop Bool) :
    (self.connecting flow).Runs trace outcome ↔
      (trace = [⟨.socket, false⟩] ∧ outcome = .ok false) ∨
      (trace = [⟨.socket, true⟩, ⟨.connect self.sin_addr self.sin_port, false⟩] ∧
        outcome = .ok false) ∨
      ∃ rest, trace = [⟨.socket, true⟩, ⟨.connect self.sin_addr self.sin_port, true⟩] ++ rest ∧
        flow.Runs rest outcome := by
  rw [connecting, Prog.runs_bind]
  simp only [runs_handleConnection]
  constructor
  · rintro (⟨status, _, rest, rfl, ⟨rfl, he⟩ | ⟨_, rfl, he⟩, hruns⟩ | ⟨_, _, ⟨_, he⟩ | ⟨_, _, he⟩⟩)
    · cases he
      obtain ⟨rfl, rfl⟩ := hruns
      exact .inl ⟨rfl, rfl⟩
    · cases he
      cases status with
      | false =>
          obtain ⟨rfl, rfl⟩ := hruns
          exact .inr (.inl ⟨rfl, rfl⟩)
      | true => exact .inr (.inr ⟨rest, rfl, hruns⟩)
    · cases he
    · cases he
  · rintro (⟨rfl, rfl⟩ | ⟨rfl, rfl⟩ | ⟨rest, rfl, hruns⟩)
    · exact .inl ⟨false, _, [], rfl, .inl ⟨rfl, rfl⟩, rfl, rfl⟩
    · exact .inl ⟨false, _, [], rfl, .inr ⟨false, rfl, rfl⟩, rfl, rfl⟩
    · exact .inl ⟨true, _, rest, rfl, .inr ⟨true, rfl, rfl⟩, hruns⟩

-- What holds of the two calls of a connection and of every event of the flow holds of
-- every event of both.
theorem forall_mem_connecting {self : ProtocolHandler} {flow : Client Bool} {trace : Trace}
    {outcome : Except Stop Bool} (P : Event Ans → Prop)
    (hruns : (self.connecting flow).Runs trace outcome) (hsocket : ∀ created, P ⟨.socket, created⟩)
    (hconnect : ∀ connected, P ⟨.connect self.sin_addr self.sin_port, connected⟩)
    (hflow : ∀ rest outcome, flow.Runs rest outcome → ∀ event ∈ rest, P event) :
    ∀ event ∈ trace, P event := by
  rw [runs_connecting] at hruns
  rcases hruns with ⟨rfl, _⟩ | ⟨rfl, _⟩ | ⟨rest, rfl, hrest⟩
  · simp [hsocket]
  · simp [hsocket, hconnect]
  · exact List.forall_mem_append.mpr ⟨by simp [hsocket, hconnect], hflow rest outcome hrest⟩

inductive Connection : Trace → Except Stop Bool → Prop where
  | noSocket : Connection [⟨.socket, false⟩] (.ok false)
  | tried (address : UInt32) (port : UInt16) (connected : Bool) :
      Connection [⟨.socket, true⟩, ⟨.connect address port, connected⟩] (.ok connected)

-- The handler of a run: all but the name of the client comes from transfer.info.
def configured (info : TransferInfo) (clientName : List UInt8) : ProtocolHandler :=
  ⟨info.ipAddress, info.port, clientName, info.filePath⟩

end ProtocolHandler

-- What a run of the client can do, by the flows that it runs and their handlers.
inductive Configured (crypto : CryptoPP) : Trace → Except Stop Bool → Prop where
  | unopened (stop : Stop) : Configured crypto [⟨.ifstream TRANSFER_INFO_PATH, none⟩] (.error stop)
  | rejected (contents : List UInt8) (exception : Exception)
      (hinfo : FileHandler.transferInfoOf contents = .error exception) :
      Configured crypto [⟨.ifstream TRANSFER_INFO_PATH, some contents⟩] (.error (.thrown exception))
  | unknown (contents : List UInt8) (info : TransferInfo) (rest : Trace) (outcome : Except Stop Bool)
      (hinfo : FileHandler.transferInfoOf contents = .ok info)
      (hfallback : ((ProtocolHandler.configured info info.name).connecting
        ((ProtocolHandler.configured info info.name).handleRegistration crypto)).Runs rest outcome) :
      Configured crypto
        ([⟨.ifstream TRANSFER_INFO_PATH, some contents⟩, ⟨.ifstream ME_INFO_PATH, none⟩] ++ rest) outcome
  | known (contents lines : List UInt8) (info : TransferInfo) (self : ProtocolHandler) (rest : Trace)
      (outcome : Except Stop Bool) (hinfo : FileHandler.transferInfoOf contents = .ok info)
      (hself : self = .configured info (FileHandler.meInfoOf lines).name)
      (hknown : (self.connecting (self.handleReconnection crypto)).Runs rest outcome)
      (houtcome : ∀ what, outcome ≠ .error (.thrown (.runtimeError what))) :
      Configured crypto
        ([⟨.ifstream TRANSFER_INFO_PATH, some contents⟩, ⟨.ifstream ME_INFO_PATH, some lines⟩] ++ rest)
        outcome
  | failed (contents lines : List UInt8) (info : TransferInfo) (self : ProtocolHandler)
      (first rest : Trace) (what : List UInt8) (outcome : Except Stop Bool)
      (hinfo : FileHandler.transferInfoOf contents = .ok info)
      (hself : self = .configured info (FileHandler.meInfoOf lines).name)
      (hknown : (self.connecting (self.handleReconnection crypto)).Runs first
        (.error (.thrown (.runtimeError what))))
      (hfallback : ((ProtocolHandler.configured info info.name).connecting
        ((ProtocolHandler.configured info info.name).handleRegistration crypto)).Runs rest outcome) :
      Configured crypto
        ([⟨.ifstream TRANSFER_INFO_PATH, some contents⟩, ⟨.ifstream ME_INFO_PATH, some lines⟩] ++
          first ++ rest)
        outcome

-- The `try` block: the client's information, then the reconnection.
theorem known_of_runs (crypto : CryptoPP) (info : TransferInfo) (trace : Trace)
    (outcome : Except Stop Bool)
    (hruns : Prog.Runs
      (do
        let meInfo ← FileHandler.readMeInfo
        let protocolHandler := ProtocolHandler.configured info meInfo.name
        protocolHandler.connecting (protocolHandler.handleReconnection crypto))
      trace outcome) :
    (trace = [⟨.ifstream ME_INFO_PATH, none⟩] ∧ outcome = .error (unableToOpen ME_INFO_PATH)) ∨
    ∃ (lines : List UInt8) (self : ProtocolHandler) (rest : Trace),
      self = .configured info (FileHandler.meInfoOf lines).name ∧
      trace = [⟨.ifstream ME_INFO_PATH, some lines⟩] ++ rest ∧
      (self.connecting (self.handleReconnection crypto)).Runs rest outcome := by
  rw [Prog.runs_bind] at hruns
  rcases hruns with ⟨meInfo, _, rest, rfl, hread, hruns⟩ | ⟨stop, rfl, hread⟩
  · rcases FileHandler.runs_readMeInfo _ _ hread with ⟨lines, rfl, he⟩ | ⟨_, he⟩
    · cases he
      exact .inr ⟨lines, _, rest, rfl, rfl, hruns⟩
    · cases he
  · rcases FileHandler.runs_readMeInfo _ _ hread with ⟨_, _, he⟩ | ⟨rfl, he⟩
    · cases he
    · cases he
      exact .inl ⟨rfl, rfl⟩

theorem handleClient_configured (crypto : CryptoPP) (trace : Trace) (outcome : Except Stop Bool)
    (hruns : (handleClient crypto).Runs trace outcome) : Configured crypto trace outcome := by
  rw [handleClient, Prog.runs_bind] at hruns
  rcases hruns with ⟨info, _, rest, rfl, hread, hruns⟩ | ⟨stop, rfl, hread⟩
  · rw [FileHandler.runs_readTransferInfo_iff] at hread
    rcases hread with ⟨contents, rfl, he⟩ | ⟨_, he⟩
    · have hinfo : FileHandler.transferInfoOf contents = .ok info := by
        cases hparse : FileHandler.transferInfoOf contents with
        | ok parsed =>
            rw [hparse] at he
            cases he
            rfl
        | error exception =>
            rw [hparse] at he
            cases he
      rw [Prog.runs_tryCatch] at hruns
      rcases hruns with ⟨status, rfl, hknown⟩ | ⟨stop, first, rest, rfl, hknown, hcatch⟩
      · rcases known_of_runs crypto info _ _ hknown with ⟨_, he⟩ | ⟨lines, self, rest, hself, rfl, hflow⟩
        · cases he
        · exact .known contents lines info self rest _ hinfo hself hflow fun what h => by cases h
      · rcases known_of_runs crypto info _ _ hknown with ⟨rfl, he⟩ | ⟨lines, self, first, hself, rfl, hflow⟩
        · cases he
          exact .unknown contents info rest outcome hinfo hcatch
        · by_cases hruntime : ∃ what, stop = .thrown (.runtimeError what)
          · obtain ⟨what, rfl⟩ := hruntime
            exact .failed contents lines info self first rest what outcome hinfo hself hflow hcatch
          · have hpass : rest = [] ∧ outcome = .error stop := by
              cases stop with
              | undefined => exact hcatch
              | thrown exception =>
                  cases exception with
                  | runtimeError what => exact absurd ⟨what, rfl⟩ hruntime
                  | _ => exact hcatch
            obtain ⟨rfl, rfl⟩ := hpass
            rw [List.append_nil]
            exact .known contents lines info self first _ hinfo hself hflow
              fun what h => hruntime ⟨what, by cases h; rfl⟩
    · cases he
  · rw [FileHandler.runs_readTransferInfo_iff] at hread
    rcases hread with ⟨contents, rfl, he⟩ | ⟨rfl, _⟩
    · cases hparse : FileHandler.transferInfoOf contents with
      | ok parsed =>
          rw [hparse] at he
          cases he
      | error exception =>
          rw [hparse] at he
          cases he
          exact .rejected contents exception hparse
    · exact .unopened stop

-- With a configuration that is accepted, a run registers, reconnects, or registers after
-- a reconnection that failed.
theorem handleClient_accepted {crypto : CryptoPP} {trace : Trace} {outcome : Except Stop Bool}
    (hruns : (handleClient crypto).Runs trace outcome) {contents : List UInt8} {info : TransferInfo}
    (hconfiguration : trace.head? = some ⟨.ifstream TRANSFER_INFO_PATH, some contents⟩)
    (hinfo : FileHandler.transferInfoOf contents = .ok info) :
    (∃ rest,
      trace = [⟨.ifstream TRANSFER_INFO_PATH, some contents⟩, ⟨.ifstream ME_INFO_PATH, none⟩] ++ rest ∧
      ((ProtocolHandler.configured info info.name).connecting
        ((ProtocolHandler.configured info info.name).handleRegistration crypto)).Runs rest outcome) ∨
    (∃ lines name rest,
      trace = [⟨.ifstream TRANSFER_INFO_PATH, some contents⟩, ⟨.ifstream ME_INFO_PATH, some lines⟩] ++ rest ∧
      ((ProtocolHandler.configured info name).connecting
        ((ProtocolHandler.configured info name).handleReconnection crypto)).Runs rest outcome) ∨
    ∃ lines name first rest what,
      trace = [⟨.ifstream TRANSFER_INFO_PATH, some contents⟩, ⟨.ifstream ME_INFO_PATH, some lines⟩] ++
        first ++ rest ∧
      ((ProtocolHandler.configured info name).connecting
        ((ProtocolHandler.configured info name).handleReconnection crypto)).Runs first
        (.error (.thrown (.runtimeError what))) ∧
      ((ProtocolHandler.configured info info.name).connecting
        ((ProtocolHandler.configured info info.name).handleRegistration crypto)).Runs rest outcome := by
  have hconfigured := handleClient_configured crypto trace outcome hruns
  cases hconfigured with
  | unopened stop => cases hconfiguration
  | rejected contents' exception hinfo' =>
      cases hconfiguration
      rw [hinfo] at hinfo'
      cases hinfo'
  | unknown contents' info' rest outcome hinfo' hfallback =>
      cases hconfiguration
      rw [hinfo] at hinfo'
      cases hinfo'
      exact .inl ⟨rest, rfl, hfallback⟩
  | known contents' lines info' self rest outcome hinfo' hself hknown houtcome =>
      cases hconfiguration
      rw [hinfo] at hinfo'
      cases hinfo'
      subst hself
      exact .inr (.inl ⟨lines, _, rest, rfl, hknown⟩)
  | failed contents' lines info' self first rest what outcome hinfo' hself hknown hfallback =>
      cases hconfiguration
      rw [hinfo] at hinfo'
      cases hinfo'
      subst hself
      exact .inr (.inr ⟨lines, _, first, rest, what, rfl, hknown, hfallback⟩)

open ProtocolHandler

-- The registration of the `catch` block, over a connection of its own.
inductive Fallback (crypto : CryptoPP) : Trace → Except Stop Bool → Prop where
  | unconnected (trace : Trace) (hconnection : Connection trace (.ok false)) :
      Fallback crypto trace (.ok false)
  | registered (self : ProtocolHandler) (address : UInt32) (port : UInt16) (rest : Trace)
      (outcome : Except Stop Bool) (hregistration : Registration crypto self rest outcome) :
      Fallback crypto ([⟨.socket, true⟩, ⟨.connect address port, true⟩] ++ rest) outcome

-- What a run of the client can do.
inductive ClientFlow (crypto : CryptoPP) : Trace → Except Stop Bool → Prop where
  | unconfigured (file : Option (List UInt8)) (stop : Stop) :
      ClientFlow crypto [⟨.ifstream TRANSFER_INFO_PATH, file⟩] (.error stop)
  | unknown (file : List UInt8) (rest : Trace) (outcome : Except Stop Bool)
      (hfallback : Fallback crypto rest outcome) :
      ClientFlow crypto
        ([⟨.ifstream TRANSFER_INFO_PATH, some file⟩, ⟨.ifstream ME_INFO_PATH, none⟩] ++ rest) outcome
  | unconnected (file : List UInt8) (contents : List UInt8) (rest : Trace)
      (hconnection : Connection rest (.ok false)) :
      ClientFlow crypto
        ([⟨.ifstream TRANSFER_INFO_PATH, some file⟩, ⟨.ifstream ME_INFO_PATH, some contents⟩] ++ rest)
        (.ok false)
  | reconnected (file : List UInt8) (contents : List UInt8) (self : ProtocolHandler)
      (address : UInt32) (port : UInt16) (rest : Trace) (outcome : Except Stop Bool)
      (hreconnection : Reconnection crypto self rest outcome)
      (houtcome : ∀ what, outcome ≠ .error (.thrown (.runtimeError what))) :
      ClientFlow crypto
        ([⟨.ifstream TRANSFER_INFO_PATH, some file⟩, ⟨.ifstream ME_INFO_PATH, some contents⟩,
          ⟨.socket, true⟩, ⟨.connect address port, true⟩] ++ rest)
        outcome
  | failed (file : List UInt8) (contents : List UInt8) (self : ProtocolHandler)
      (address : UInt32) (port : UInt16) (first rest : Trace) (what : List UInt8)
      (outcome : Except Stop Bool)
      (hreconnection : Reconnection crypto self first (.error (.thrown (.runtimeError what))))
      (hfallback : Fallback crypto rest outcome) :
      ClientFlow crypto
        ([⟨.ifstream TRANSFER_INFO_PATH, some file⟩, ⟨.ifstream ME_INFO_PATH, some contents⟩,
          ⟨.socket, true⟩, ⟨.connect address port, true⟩] ++ first ++ rest)
        outcome

theorem fallback_of_runs (crypto : CryptoPP) (self : ProtocolHandler) (trace : Trace)
    (outcome : Except Stop Bool)
    (hruns : (self.connecting (self.handleRegistration crypto)).Runs trace outcome) :
    Fallback crypto trace outcome := by
  rw [runs_connecting] at hruns
  rcases hruns with ⟨rfl, rfl⟩ | ⟨rfl, rfl⟩ | ⟨rest, rfl, hruns⟩
  · exact .unconnected _ .noSocket
  · exact .unconnected _ (.tried _ _ false)
  · exact .registered self _ _ rest outcome
      (self.handleRegistration_registration crypto rest outcome hruns)

theorem handleClient_flow (crypto : CryptoPP) (trace : Trace) (outcome : Except Stop Bool)
    (hruns : (handleClient crypto).Runs trace outcome) : ClientFlow crypto trace outcome := by
  have hconfigured := handleClient_configured crypto trace outcome hruns
  cases hconfigured with
  | unopened stop => exact .unconfigured none stop
  | rejected contents exception hinfo => exact .unconfigured (some contents) _
  | unknown contents info rest outcome hinfo hfallback =>
      exact .unknown contents rest outcome (fallback_of_runs crypto _ rest outcome hfallback)
  | known contents lines info self rest outcome hinfo hself hknown houtcome =>
      rw [runs_connecting] at hknown
      rcases hknown with ⟨rfl, rfl⟩ | ⟨rfl, rfl⟩ | ⟨rest, rfl, hflow⟩
      · exact .unconnected contents lines _ .noSocket
      · exact .unconnected contents lines _ (.tried _ _ false)
      · exact .reconnected contents lines self _ _ rest outcome
          (self.handleReconnection_reconnection crypto rest outcome hflow) houtcome
  | failed contents lines info self first rest what outcome hinfo hself hknown hfallback =>
      rw [runs_connecting] at hknown
      rcases hknown with ⟨_, he⟩ | ⟨_, he⟩ | ⟨first, rfl, hflow⟩
      · cases he
      · cases he
      · exact .failed contents lines self _ _ first rest what outcome
          (self.handleReconnection_reconnection crypto first _ hflow)
          (fallback_of_runs crypto _ rest outcome hfallback)

end TransferClient
