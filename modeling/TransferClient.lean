import TransferClient.Base64
import TransferClient.Channel
import TransferClient.Channel.Delivery
import TransferClient.Channel.Theorems
import TransferClient.Checksum.Counter
import TransferClient.Checksum.Detection
import TransferClient.Checksum.Patch
import TransferClient.Checksum.Posix
import TransferClient.Crc.Detection
import TransferClient.HandleClient.Allocations
import TransferClient.HandleClient.Budget
import TransferClient.HandleClient.Completion
import TransferClient.HandleClient.Endpoint
import TransferClient.HandleClient.Failures
import TransferClient.HandleClient.Fallback
import TransferClient.HandleClient.FileNames
import TransferClient.HandleClient.Integrity
import TransferClient.HandleClient.PublicKey
import TransferClient.HandleClient.Sessions
import TransferClient.HandleClient.Success
import TransferClient.HandleClient.WriteAhead
import TransferClient.History.Lockout
import TransferClient.History.Names
import TransferClient.Interaction.Lockstep
import TransferClient.ProtocolHandler.Extractions
import TransferClient.ProtocolHandler.FilePayload
import TransferClient.ProtocolHandler.FileSizes
import TransferClient.ProtocolHandler.KeyStore
import TransferClient.ProtocolHandler.Order
import TransferClient.ProtocolHandler.RequestStream
import TransferClient.ProtocolHandler.Retry
import TransferClient.ProtocolHandler.Service
import TransferClient.ProtocolHandler.Uninitialised
import TransferClient.ProtocolHandler.Verdict
import TransferClient.ProtocolHandler.WholeRequests
import TransferClient.ProtocolHandler.WholeResponses
import TransferClient.Session
import TransferClient.Socket.Requests
import TransferClient.Socket.Responses
