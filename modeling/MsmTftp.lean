import MsmTftp.CellBuffer
import MsmTftp.CompletionQueue
import MsmTftp.DownloadNegotiation
import MsmTftp.DownloadProgress
import MsmTftp.DownloadProtocol
import MsmTftp.FilePath
import MsmTftp.FilePathContainment
import MsmTftp.FilePathLayout
import MsmTftp.FileStore
import MsmTftp.JoinedSystem
import MsmTftp.PathResolution
import MsmTftp.Pathname
import MsmTftp.ProtocolHeader
import MsmTftp.ProtocolOptions
import MsmTftp.ProtocolRequest
import MsmTftp.ProtocolRequestFormat
import MsmTftp.ProtocolTokenSpans
import MsmTftp.ProtocolTokens
import MsmTftp.Retransmission
import MsmTftp.ServerConfinement
import MsmTftp.ServerExchange
import MsmTftp.ServerFiles
import MsmTftp.ServerLoss
import MsmTftp.ServerNetwork
import MsmTftp.ServerPool
import MsmTftp.ServerShutdown
import MsmTftp.SessionAction
import MsmTftp.SessionAmbiguity
import MsmTftp.SessionClock
import MsmTftp.SessionConversation
import MsmTftp.SessionData
import MsmTftp.SessionDeadlines
import MsmTftp.SessionDownload
import MsmTftp.SessionDownloadNumbers
import MsmTftp.SessionEnding
import MsmTftp.SessionErrorPacket
import MsmTftp.SessionFiles
import MsmTftp.SessionForgetting
import MsmTftp.SessionGuard
import MsmTftp.SessionHandler
import MsmTftp.SessionInvariant
import MsmTftp.SessionInversion
import MsmTftp.SessionListening
import MsmTftp.SessionMachine
import MsmTftp.SessionNegotiation
import MsmTftp.SessionOack
import MsmTftp.SessionOrigin
import MsmTftp.SessionPacket
import MsmTftp.SessionReactor
import MsmTftp.SessionRefusal
import MsmTftp.SessionRepetition
import MsmTftp.SessionReports
import MsmTftp.SessionRequest
import MsmTftp.SessionRetransmission
import MsmTftp.SessionRetryBudget
import MsmTftp.SessionRole
import MsmTftp.SessionSending
import MsmTftp.SessionSocket
import MsmTftp.SessionStaleBytes
import MsmTftp.SessionStalling
import MsmTftp.SessionState
import MsmTftp.SessionStranger
import MsmTftp.SessionStray
import MsmTftp.SessionTimeOuts
import MsmTftp.SessionTraffic
import MsmTftp.SessionUpload
import MsmTftp.SessionUploadEnd
import MsmTftp.SessionUploadNumbers
import MsmTftp.SessionWriteBounds
import MsmTftp.StopAndWait
import MsmTftp.TimedSystem
import MsmTftp.TransferBlocks
import MsmTftp.TransitionSystem
import MsmTftp.UploadProgress
import MsmTftp.UploadProtocol
