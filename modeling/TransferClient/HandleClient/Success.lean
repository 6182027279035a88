import TransferClient.HandleClient.Fallback
import TransferClient.ProtocolHandler.Service

namespace TransferClient

open Interaction Bytes Client ProtocolHandler ServerRequests ServerResponses

section Service

variable {server : Server} {crypto : CryptoPP} {contents : List UInt8}

-- A connection that comes about, and the flow over it.
theorem cooperates_connecting {self : ProtocolHandler} {flow : Client Bool} {trace : Trace}
    {outcome : Except Stop Bool} (hruns : (self.connecting flow).Runs trace outcome)
    {path : List UInt8} (hcooperates : Cooperates server path contents trace) :
    ∃ rest, trace = [⟨.socket, true⟩, ⟨.connect self.sin_addr self.sin_port, true⟩] ++ rest ∧
      flow.Runs rest outcome ∧ Cooperates server path contents rest := by
  rw [runs_connecting] at hruns
  rcases hruns with ⟨rfl, _⟩ | ⟨rfl, _⟩ | ⟨rest, rfl, hrest⟩
  · cases hcooperates.works ⟨.socket, false⟩ (by simp)
  · cases hcooperates.works ⟨.connect self.sin_addr self.sin_port, false⟩ (by simp)
  · exact ⟨rest, rfl, hrest, hcooperates.of_append_right⟩

-- Whenever the machine and the server do their part, the client comes through: it succeeds
-- with one request of each kind, and the server then has the whole file under its name.
theorem handleClient_served (hmatches : server.Matches crypto)
    (hbound : 259 + 2 * (16 + 16 * (contents.length / 16 + 1)) < 2 ^ 32) (trace : Trace)
    (outcome : Except Stop Bool) (hruns : (handleClient crypto).Runs trace outcome)
    (configuration : List UInt8) (info : TransferInfo)
    (hconfiguration : trace.head? = some ⟨.ifstream TRANSFER_INFO_PATH, some configuration⟩)
    (hinfo : FileHandler.transferInfoOf configuration = .ok info)
    (hcooperates : Cooperates server info.filePath contents trace) :
    ∃ opening ∈ [[REGISTRATION], [RECONNECT], [RECONNECT, REGISTRATION]],
      Transferred server info.filePath contents opening trace outcome := by
  have hprepend {opening : List UInt16} {first rest : Trace} {outcome : Except Stop Bool}
      (hsilent : codes first = [])
      (hrest : Transferred server info.filePath contents opening rest outcome) :
      Transferred server info.filePath contents opening (first ++ rest) outcome := by
    have hwhole := hrest.append_left first (by simp [hsilent])
    rwa [hsilent] at hwhole
  have hconnected (self : ProtocolHandler) : codes ([⟨.socket, true⟩,
      ⟨.connect self.sin_addr self.sin_port, true⟩] : Trace) = [] := by
    simp [codes, requests, messages]
  -- The reconnection does not fail, so nothing is left to the handler of the exception.
  have hreconnects {self : ProtocolHandler} (hpath : self.filePath = info.filePath) {rest : Trace}
      {outcome : Except Stop Bool}
      (hflow : (self.connecting (self.handleReconnection crypto)).Runs rest outcome)
      (hparts : Cooperates server info.filePath contents rest) :
      Transferred server info.filePath contents [RECONNECT] rest outcome ∨
        Transferred server info.filePath contents [RECONNECT, REGISTRATION] rest outcome := by
    obtain ⟨rest, rfl, hruns, hparts⟩ := cooperates_connecting hflow hparts
    rw [← hpath] at hparts ⊢
    have hserved := (self.handleReconnection_reconnection crypto rest outcome hruns).served hmatches hbound
      hparts
    rw [hpath] at hserved ⊢
    exact hserved.imp (hprepend (hconnected self)) (hprepend (hconnected self))
  rcases handleClient_accepted hruns hconfiguration hinfo with ⟨rest, rfl, hflow⟩ |
    ⟨lines, name, rest, rfl, hflow⟩ | ⟨lines, name, first, rest, what, rfl, hflow, _⟩
  · obtain ⟨rest, rfl, hregisters, hparts⟩ :=
      cooperates_connecting hflow hcooperates.of_append_right
    have hregistration := handleRegistration_registration crypto _ rest outcome hregisters
    have hserved := hregistration.served hmatches hbound hparts
    refine ⟨[REGISTRATION], by simp, ?_⟩
    exact hprepend (by simp [codes, requests, messages]) (hprepend (hconnected _) hserved)
  · rcases hreconnects rfl hflow hcooperates.of_append_right with hserved | hserved
    · exact ⟨[RECONNECT], by simp, hprepend (by simp [codes, requests, messages]) hserved⟩
    · exact ⟨[RECONNECT, REGISTRATION], by simp, hprepend (by simp [codes, requests, messages]) hserved⟩
  · rcases hreconnects rfl hflow hcooperates.of_append_left.of_append_right with hserved | hserved
    · cases hserved.outcome
    · cases hserved.outcome

end Service

namespace Sample

-- The server of the sample runs. One text is an encryption of its key.
def server : Server where
  rsaEncrypts _ ciphertext := ciphertext = List.replicate 4 1
  cbcDecryption _ _ ciphertext := decipher ciphertext
  aesKey := machine.aesKey

instance : DecidableRel server.rsaEncrypts :=
  fun _ ciphertext => inferInstanceAs (Decidable (ciphertext = List.replicate 4 1))

-- What is decrypted with RSA is this key.
def opens : Event Ans → Bool
  | ⟨.rsaDecrypt _ _, plain⟩ => plain == some machine.aesKey
  | _ => true

end Sample

-- A known client transfers the empty file.
theorem handleClient_served_known :
    let run := (handleClient Sample.crypto).exec World.handler (Sample.approving (some []))
    ∃ opening ∈ [[REGISTRATION], [RECONNECT], [RECONNECT, REGISTRATION]],
      Transferred Sample.server (text "file") [] opening run.trace run.outcome := by
  intro run
  have hcooperates : Cooperates Sample.server (text "file") [] run.trace := by
    refine ⟨by decide +kernel, ?_, of_answered (by decide +kernel)⟩
    intro keys ciphertext plain _ _ hplain
    have hopens : ∀ event ∈ run.trace, Sample.opens event = true := by decide +kernel
    exact beq_iff_eq.mp (hopens _ hplain)
  exact handleClient_served ⟨rfl, fun _ _ plain _ _ => Sample.length_cipher plain,
      fun _ _ plain _ _ => Sample.decipher_cipher plain⟩ (by decide) run.trace run.outcome
    (Prog.exec_runs _ _ _) (text "127.0.0.1:8080" ++ [10] ++ text "name" ++ [10] ++ text "file")
    ⟨text "127.0.0.1", 8080, text "name", text "file"⟩ rfl rfl hcooperates

end TransferClient
