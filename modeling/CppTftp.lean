import CppTftp.Lib.Run
import CppTftp.Lib.Blocks
import CppTftp.Common.Stdlib
import CppTftp.Common.Utils
import CppTftp.Common.Tftp
import CppTftp.Common.TftpReadFile
import CppTftp.Common.TftpWriteFile
import CppTftp.Common.Descriptors
import CppTftp.Server.TftpServerConnection
import CppTftp.Lib.StopAndWait
import CppTftp.Server.Frame
import CppTftp.Server.Download
import CppTftp.Server.Upload
import CppTftp.Server.Waiting
import CppTftp.Server.OptionAck
import CppTftp.Common.BlockCoding
import CppTftp.Server.Duplicates
import CppTftp.Client.GetFile
import CppTftp.System.Download
import CppTftp.System.Upload
import CppTftp.Lib.EraseLoop
import CppTftp.Server.TftpConnectionHandler
import CppTftp.Server.TftpServer
import CppTftp.Server.CleanUp
import CppTftp.Server.Requests
import CppTftp.Server.Interest
import CppTftp.Client.SendFile
import CppTftp.Server.Sender
import CppTftp.Lib.Echo
import CppTftp.System.Duplication
import CppTftp.System.Resending
import CppTftp.System.Stale
import CppTftp.Common.Filesystem
import CppTftp.Server.Access
import CppTftp.System.SharedTree
import CppTftp.Common.Wire
import CppTftp.Common.ReadCalls
import CppTftp.Common.WriteFaults
import CppTftp.Server.ErrorPackets
import CppTftp.Server.OpenFiles
import CppTftp.Server.Options
import CppTftp.Server.Datagrams
import CppTftp.Server.Termination
import CppTftp.Server.GivingUp
import CppTftp.Server.StoredUploads
import CppTftp.Common.Strings
import CppTftp.Common.Canonical
import CppTftp.Common.RwRequests
import CppTftp.Client.Framing
import CppTftp.Server.TransferSize
import CppTftp.Common.ReadAhead
import CppTftp.Server.ReaderAssertion
import CppTftp.Lib.Interleaving
import CppTftp.Server.Sessions
import CppTftp.Server.Batches
import CppTftp.Server.Stopping
import CppTftp.Server.Slots
import CppTftp.Server.OneBlock
import CppTftp.System.ClientUpload
import CppTftp.System.Recovery
import CppTftp.Lib.Pacing
import CppTftp.Common.TimerFd
import CppTftp.Server.Clocked
import CppTftp.Server.Pace
import CppTftp.System.Deployment
import CppTftp.Client.Acceptance
import CppTftp.Common.Addresses
import CppTftp.Server.PrintedAddresses
import CppTftp.Server.Traffic
import CppTftp.System.StoredFiles
import CppTftp.Server.SlotTime
