import TransferClient.ProtocolHandler

namespace TransferClient

open Interaction Client

-- A known client reconnects. `catch (std::runtime_error &err)` stands around the
-- whole of it; every other exception passes.
def handleClient (crypto : CryptoPP) : Client Bool := do
  let transferInfo ← FileHandler.readTransferInfo
  tryCatch
    (do
      let meInfo ← FileHandler.readMeInfo
      let protocolHandler : ProtocolHandler :=
        ⟨transferInfo.ipAddress, transferInfo.port, meInfo.name, transferInfo.filePath⟩
      if ← protocolHandler.handleConnection then
        protocolHandler.handleReconnection crypto
      else
        return false)
    fun stop =>
      match stop with
      | .thrown (.runtimeError _) => do
          let protocolHandler : ProtocolHandler :=
            ⟨transferInfo.ipAddress, transferInfo.port, transferInfo.name, transferInfo.filePath⟩
          if ← protocolHandler.handleConnection then
            protocolHandler.handleRegistration crypto
          else
            return false
      | stop => throw stop

end TransferClient
