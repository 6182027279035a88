import TransferClient.HandleClient.Flow
import TransferClient.Interaction.Past

namespace TransferClient

open Interaction Bytes Client ProtocolHandler ServerRequests ServerResponses

-- The operations around the flows: reading the configuration, and connecting.
def AroundOp : Op → Prop
  | .socket | .connect _ _ | .ifstream _ => True
  | .newArray _ | .sendRequest _ | .getResponse | .ifstreamAte _ | .ofstream _ | .put _ _
  | .generateKeyPair | .rsaDecrypt _ _ | .generateBlock => False

-- A property of the events of a run, each with its past, is proved for the parts of a run,
-- wherever they stand in it.
section Rules

variable {crypto : CryptoPP} {P : Trace → Event Ans → Prop}
  (haround : ∀ past event, AroundOp event.op → P past event)
  (hasked : ∀ (self : ProtocolHandler) (requestCode : UInt16) (buffer : ClientId) (answer : Response),
    requestCode = REGISTRATION ∨ requestCode = RECONNECT →
    Anywhere P (self.asked requestCode buffer answer))
  (hkeying : ∀ (self : ProtocolHandler) (clientId : ClientId) (trace : Trace)
    (result : Except Stop (Response × List UInt8)), Keying crypto self clientId trace result →
    Anywhere P trace)
  (hsending : ∀ (self : ProtocolHandler) (encrypted_aes_key privateKey : List UInt8) (clientId : ClientId)
    (trace : Trace) (outcome : Except Stop Bool),
    FileSending crypto self encrypted_aes_key privateKey clientId trace outcome → Anywhere P trace)
  {self : ProtocolHandler} {trace : Trace} {outcome : Except Stop Bool}

include hkeying hsending

theorem ProtocolHandler.Approved.anywhere {clientId : ClientId}
    (happroved : Approved crypto self clientId trace outcome) : Anywhere P trace := by
  cases happroved with
  | unkeyed trace stop hkeys => exact hkeying _ _ _ _ hkeys
  | refused trace answer privateKey hkeys hcode => exact hkeying _ _ _ _ hkeys
  | short trace answer privateKey hkeys hcode hlength => exact hkeying _ _ _ _ hkeys
  | keyed first answer privateKey rest outcome hkeys hcode hlength hfile =>
      exact (hkeying _ _ _ _ hkeys).append (hsending _ _ _ _ _ _ hfile)

include hasked

theorem ProtocolHandler.Registration.anywhere
    (hregistration : Registration crypto self trace outcome) :
    Anywhere P trace := by
  cases hregistration with
  | refused buffer answer hcode => exact hasked self _ buffer answer (.inl rfl)
  | approved buffer answer rest outcome hcode happroved =>
      exact (hasked self _ buffer answer (.inl rfl)).append (happroved.anywhere hkeying hsending)

theorem ProtocolHandler.Reconnection.anywhere
    (hreconnection : Reconnection crypto self trace outcome) :
    Anywhere P trace := by
  cases hreconnection with
  | rejected buffer answer rest outcome hcode hregistration =>
      exact (hasked self _ buffer answer (.inr rfl)).append
        (hregistration.anywhere hasked hkeying hsending)
  | refused buffer answer hreject happrove => exact hasked self _ buffer answer (.inr rfl)
  | approved buffer answer rest outcome hcode happroved =>
      exact (hasked self _ buffer answer (.inr rfl)).append (happroved.anywhere hkeying hsending)

include haround

theorem Fallback.anywhere (hfallback : Fallback crypto trace outcome) : Anywhere P trace := by
  have hquiet (list : Trace) (hlist : ∀ event ∈ list, AroundOp event.op) : Anywhere P list :=
    .of_forall fun event hevent past => haround past event (hlist event hevent)
  cases hfallback with
  | unconnected trace hconnection =>
      generalize (.ok false : Except Stop Bool) = result at hconnection
      cases hconnection with
      | noSocket => exact hquiet _ (by simp [AroundOp])
      | tried address port connected => exact hquiet _ (by simp [AroundOp])
  | registered self address port rest outcome hregistration =>
      exact (hquiet _ (by simp [AroundOp])).append (hregistration.anywhere hasked hkeying hsending)

theorem ClientFlow.anywhere (hflow : ClientFlow crypto trace outcome) : Anywhere P trace := by
  have hquiet (list : Trace) (hlist : ∀ event ∈ list, AroundOp event.op) : Anywhere P list :=
    .of_forall fun event hevent past => haround past event (hlist event hevent)
  cases hflow with
  | unconfigured file stop => exact hquiet _ (by simp [AroundOp])
  | unknown file rest outcome hfallback =>
      exact (hquiet _ (by simp [AroundOp])).append
        (hfallback.anywhere haround hasked hkeying hsending)
  | unconnected file contents rest hconnection =>
      have hfallback : Fallback crypto rest (.ok false) := .unconnected rest hconnection
      exact (hquiet _ (by simp [AroundOp])).append
        (hfallback.anywhere haround hasked hkeying hsending)
  | reconnected file contents self address port rest outcome hreconnection houtcome =>
      exact (hquiet _ (by simp [AroundOp])).append (hreconnection.anywhere hasked hkeying hsending)
  | failed file contents self address port first rest what outcome hreconnection hfallback =>
      have hconnected : Anywhere P [⟨.ifstream TRANSFER_INFO_PATH, some file⟩,
          ⟨.ifstream ME_INFO_PATH, some contents⟩, ⟨.socket, true⟩, ⟨.connect address port, true⟩] :=
        hquiet _ (by simp [AroundOp])
      exact (hconnected.append (hreconnection.anywhere hasked hkeying hsending)).append
        (hfallback.anywhere haround hasked hkeying hsending)

end Rules

end TransferClient
