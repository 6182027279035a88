import TransferClient.ProtocolHandler.Exchanges
import TransferClient.Socket.Memory
import TransferClient.Steps

namespace TransferClient

open Interaction Bytes Client ServerRequests ServerResponses

-- The flow passes the step of `request`: it goes on with the next step, it evaluates
-- a checksum (or gets lost in doing so), or it ends with success.
def Passes (request : Request) (future : Trace) (outcome : Except Stop Bool) : Prop :=
  ((request.code = REGISTRATION ∨ request.code = RECONNECT ∨ request.code = SEND_PUBLIC_KEY) ∧
    future ≠ []) ∨
  (request.code = SEND_FILE ∧
    ((∃ path reading rest, future = ⟨.ifstreamAte path, reading⟩ :: rest) ∨
      future = [] ∧ outcome = .error .undefined)) ∨
  (request.code = CRC_CORRECT ∧ outcome = .ok true)

-- A step is passed for the awaited code, and the key exchange only when the payload
-- has room for a client id.
def Decides (outcome : Except Stop Bool) (request : Request) (response : Response)
    (future : Trace) :
    Prop :=
  Passes request future outcome ↔
    response.code ∈ awaited request.code ∧
      (request.code = SEND_PUBLIC_KEY → 16 ≤ response.payload.length)

namespace ProtocolHandler

variable {self : ProtocolHandler} {outcome : Except Stop Bool}

theorem decides_file {file : Request} {answer : Response} {future : Trace}
    (hfile : file.code = SEND_FILE)
    (hfuture : ((∃ path reading rest, future = ⟨.ifstreamAte path, reading⟩ :: rest) ∨
      future = [] ∧ outcome = .error .undefined) ↔ answer.code = FILE_RECEIVED_CRC_OK) :
    Decides outcome file answer future := by
  rw [Decides, Passes, hfile, hfuture]
  simp [awaited, REGISTRATION, RECONNECT, SEND_PUBLIC_KEY, SEND_FILE, CRC_CORRECT]

theorem decides_keying {request : Request} {answer : Response} {future : Trace}
    (hrequest : request.code = SEND_PUBLIC_KEY)
    (hfuture : future ≠ [] ↔
      answer.code = RECEIVED_PUBLIC_KEY_SEND_AES ∧ 16 ≤ answer.payload.length) :
    Decides outcome request answer future := by
  rw [Decides, Passes, hrequest, hfuture]
  simp [awaited, REGISTRATION, RECONNECT, SEND_PUBLIC_KEY, SEND_FILE, CRC_CORRECT]

theorem decides_connection {requestCode : UInt16} {answer : Response} {future : Trace}
    (hcode : requestCode = REGISTRATION ∨ requestCode = RECONNECT)
    (hfuture : future ≠ [] ↔ answer.code ∈ awaited requestCode) :
    Decides outcome (self.connectionRequest requestCode) answer future := by
  rw [Decides, Passes, hfuture]
  rcases hcode with rfl | rfl
  · simp [connectionRequest, awaited, REGISTRATION, RECONNECT, SEND_PUBLIC_KEY, SEND_FILE,
      CRC_CORRECT]
  · simp [connectionRequest, awaited, REGISTRATION, RECONNECT, SEND_PUBLIC_KEY, SEND_FILE,
      CRC_CORRECT]

-- Whatever the exchange is, its answer decides whether the step is passed.
theorem Exchanged.decides {request : Request} {response : Response} {future : Trace}
    (hexchange : Exchanged self outcome request response future) :
    Decides outcome request response future := by
  cases hexchange with
  | refused requestCode answer hcode hanswer houtcome =>
      exact decides_connection hcode (by simp [hanswer])
  | admitted requestCode answer future hcode hanswer hfuture =>
      exact decides_connection hcode (by simp [hanswer, hfuture])
  | unkeyed request answer hrequest hcode houtcome =>
      exact decides_keying hrequest (by simp [hcode])
  | keyShort request answer hrequest hcode hlength houtcome =>
      exact decides_keying hrequest (by simp [hlength])
  | keyed request answer future hrequest hcode hlength hfuture =>
      exact decides_keying hrequest (by simp [hcode, hlength, hfuture])
  | unchecked file answer future hfile hcode honward =>
      refine decides_file hfile (iff_of_false ?_ hcode)
      obtain ⟨event, rest, rfl, _, hop⟩ := honward
      rintro (⟨path, reading, rest, he⟩ | ⟨he, _⟩)
      · cases he
        exact absurd rfl (hop path)
      · cases he
  | crcShort file answer hfile hcode hcrc houtcome =>
      exact decides_file hfile ⟨fun _ => hcode, fun _ => .inr ⟨rfl, houtcome⟩⟩
  | checked file answer received reading rest hfile hcode hcrc =>
      exact decides_file hfile ⟨fun _ => hcode, fun _ => .inl ⟨_, _, _, rfl⟩⟩
  | resend request reply future hcode honward =>
      rw [Decides, Passes]
      simp [hcode, awaited, REGISTRATION, RECONNECT, SEND_PUBLIC_KEY, SEND_FILE, CRC_CORRECT,
        CRC_INCORRECT_RESEND]
  | done request reply hcode houtcome =>
      rw [Decides, Passes]
      simp [hcode, awaited, REGISTRATION, RECONNECT, SEND_PUBLIC_KEY, SEND_FILE, CRC_CORRECT,
        CRC_INCORRECT_DONE]
  | verdict request reply hcode houtcome =>
      rw [Decides, Passes, houtcome]
      simp [hcode, awaited, REGISTRATION, RECONNECT, SEND_PUBLIC_KEY, SEND_FILE, CRC_CORRECT]

end ProtocolHandler

-- Every step that the run passes has received its answer whole.
def OnlyWholeResponses (execution : Execution Ans Stop Bool World) : Prop :=
  EachAnswered
    (fun request world _ future =>
      Passes request future execution.outcome → world.socket.arrives = true)
    execution.steps

-- Every answer that is cut has, or finds in the memory of the `Response`, a code that
-- the step does not wait for. The answer to the public key may have any code.
def CutAnswersFail (execution : Execution Ans Stop Bool World) : Prop :=
  EachAnswered
    (fun request world _ _ => world.socket.arrives = false →
      request.code = SEND_PUBLIC_KEY ∨
        world.socket.codeLeft (world.memory world.clock) ∉ awaited request.code)
    execution.steps

theorem onlyWholeResponses_of_exchanges (self : ProtocolHandler) (program : Client Bool)
    (world : World)
    (hexchanges : AtEachAnswer (self.Exchanged (program.exec World.handler world).outcome)
      (program.exec World.handler world).trace) :
    OnlyWholeResponses (program.exec World.handler world) ↔
      CutAnswersFail (program.exec World.handler world) := by
  constructor
  · intro hwhole past asking answering future hsteps request response hasking hanswering hcut
    obtain ⟨hexchange, rfl⟩ := hexchanges.exec past asking answering future hsteps request response hasking
      hanswering
    have hdecides := hexchange.decides
    by_cases hkey : request.code = SEND_PUBLIC_KEY
    · exact .inl hkey
    · refine .inr fun hawaited => ?_
      rw [← Socket.getResponse_code] at hawaited
      have hpass := hdecides.mpr ⟨hawaited, fun h => absurd h hkey⟩
      have harrives := hwhole past asking answering future hsteps request _ hasking hanswering hpass
      exact absurd (hcut.symm.trans harrives) (by decide)
  · intro hfail past asking answering future hsteps request response hasking hanswering hpass
    obtain ⟨hexchange, rfl⟩ := hexchanges.exec past asking answering future hsteps request response hasking
      hanswering
    have hdecides := hexchange.decides
    by_contra hcut
    rw [Bool.not_eq_true] at hcut
    obtain ⟨hawaited, hroom⟩ := hdecides.mp hpass
    rcases hfail past asking answering future hsteps request _ hasking hanswering hcut with hkey | hother
    · have hlength := hroom hkey
      rw [Socket.getResponse_payload _ _ hcut, List.length_nil] at hlength
      omega
    · rw [← Socket.getResponse_code] at hother
      exact hother hawaited

namespace ProtocolHandler

-- A flow acts on whole responses only, exactly as long as no cut response has a code
-- that it waits for.
theorem onlyWholeResponses_iff (crypto : CryptoPP) (self : ProtocolHandler) (world : World) :
    (OnlyWholeResponses ((self.handleRegistration crypto).exec World.handler world) ↔
      CutAnswersFail ((self.handleRegistration crypto).exec World.handler world)) ∧
    (OnlyWholeResponses ((self.handleReconnection crypto).exec World.handler world) ↔
      CutAnswersFail ((self.handleReconnection crypto).exec World.handler world)) := by
  constructor
  · apply onlyWholeResponses_of_exchanges self
    have hruns := Prog.exec_runs World.handler (self.handleRegistration crypto) world
    exact (self.handleRegistration_registration crypto _ _ hruns).exchanges.2
  · apply onlyWholeResponses_of_exchanges self
    have hruns := Prog.exec_runs World.handler (self.handleReconnection crypto) world
    exact (self.handleReconnection_reconnection crypto _ _ hruns).exchanges

-- The server announces 16 bytes of payload with the code 2100 and closes the stream.
theorem registration_goes_on_after_cut :
    let world := { Sample.world [] with
      socket := Socket.chunked [51, 8, 52, 0, 0, 0, 16] (fun _ => 7) fun _ => .moves 400 }
    ¬OnlyWholeResponses ((Sample.client.handleRegistration Sample.crypto).exec World.handler world) := by
  intro world hwhole
  obtain ⟨first, asking, answering, next, rest, hsteps, hasking, hanswering, hcut⟩ :
      ∃ first asking answering next rest,
        ((Sample.client.handleRegistration Sample.crypto).exec World.handler world).steps =
          [first] ++ asking :: answering :: next :: rest ∧
        asking.event = sent (Sample.client.connectionRequest REGISTRATION) ∧
        answering.event = got ⟨99, 2100, 16, []⟩ ∧ answering.before.socket.arrives = false :=
    ⟨_, _, _, _, _, rfl, rfl, rfl, rfl⟩
  have harrives := hwhole _ _ _ _ hsteps _ _ hasking hanswering (.inl ⟨.inl rfl, by simp⟩)
  rw [hcut] at harrives
  cases harrives

end ProtocolHandler

end TransferClient
