import FtpServer.Main
import FtpServer.Proofs.DataChannel
import FtpServer.Proofs.ArriveAsSent
import FtpServer.Proofs.LineReader
import FtpServer.Proofs.Orphans
import FtpServer.Proofs.ReplyOrder
import FtpServer.Proofs.WorkingDirectory
import FtpServer.Tree.Staged
import FtpServer.Proofs.Framing
import FtpServer.Proofs.Transcript
import FtpServer.Proofs.Turns
import FtpServer.Proofs.HandledCommands
import FtpServer.Proofs.OneReply
import FtpServer.Proofs.Refusals
import FtpServer.Proofs.Aborts
import FtpServer.Proofs.Endings
import FtpServer.Proofs.OneOutcome
import FtpServer.Proofs.OpenTransfers
import FtpServer.Proofs.PathLaws
import FtpServer.Proofs.OneLineReplies
import FtpServer.Proofs.Since
import FtpServer.Proofs.Lobby
import FtpServer.Proofs.WakeUps
import FtpServer.Proofs.HandOver
import FtpServer.Proofs.WorkerExit
import FtpServer.Proofs.StagedRenames
import FtpServer.Proofs.Grammar
import FtpServer.Proofs.Octets
import FtpServer.Proofs.Listings
import FtpServer.Proofs.Pacing
import FtpServer.Proofs.Throttling
import FtpServer.Proofs.LoggedPasswords
import FtpServer.Proofs.CredentialLimits
