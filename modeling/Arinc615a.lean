import Arinc615a.Lib.Machine
import Arinc615a.Lib.Reader
import Arinc615a.Lib.Grammar
import Arinc615a.Lib.BigEndian
import Arinc615a.Lib.Action
import Arinc615a.Lib.Timer
import Arinc615a.Lib.Keyed
import Arinc615a.Lib.Counter
import Arinc615a.Lib.Queue
import Arinc615a.Lib.Loop
import Arinc615a.Lib.Terminated
import Arinc615a.Lib.Table
import Arinc615a.Lib.PropertyTree
import Arinc615a.Lib.TableMap
import Arinc615a.Lib.Extract
import Arinc615a.Lib.OrderedMap
import Arinc615a.Lib.Network
import Arinc615a.Lib.Delegation
import Arinc615a.Lib.Postcondition
import Arinc615a.StatusCode
import Arinc615a.Text
import Arinc615a.Information
import Arinc615a.TargetId
import Arinc615a.Files.ProtocolFilename
import Arinc615a.Files.FilenameGrammar
import Arinc615a.Files.Fields
import Arinc615a.Files.StringCodec
import Arinc615a.Files.ProtocolFile
import Arinc615a.Files.StatusFiles
import Arinc615a.Files.ListFiles
import Arinc615a.Files.LoadConfigurationListFile
import Arinc615a.Files.RoundTrip
import Arinc615a.Files.Bounds
import Arinc615a.Files.Assignment
import Arinc615a.Files.Accepted
import Arinc615a.Files.Arrival
import Arinc615a.Files.Reencoding
import Arinc615a.Tftp.Transfer
import Arinc615a.Tftp.ErrorMessage
import Arinc615a.Tftp.MessageGrammar
import Arinc615a.Tftp.Options
import Arinc615a.Tftp.OptionNegotiation
import Arinc615a.Tftp.Exchange
import Arinc615a.Tftp.Client
import Arinc615a.Tftp.Retries
import Arinc615a.Tftp.Library
import Arinc615a.Tftp.Abort
import Arinc615a.Tftp.Completion
import Arinc615a.Find.Packet
import Arinc615a.Find.PacketHandler
import Arinc615a.Find.Targets
import Arinc615a.Configuration
import Arinc615a.TargetProperties
import Arinc615a.Find.Query
import Arinc615a.Find.Answer
import Arinc615a.Find.Server
import Arinc615a.Find.Discovery
import Arinc615a.Host.Operation
import Arinc615a.Host.Files
import Arinc615a.Host.Machine
import Arinc615a.Host.Replies
import Arinc615a.Host.Steps
import Arinc615a.Host.ListTransfers
import Arinc615a.Host.Finish
import Arinc615a.Host.Callbacks
import Arinc615a.Host.StatusRequests
import Arinc615a.Host.Completed
import Arinc615a.Host.Watchdog
import Arinc615a.Host.Timeouts
import Arinc615a.Host.AbortDelivery
import Arinc615a.Host.SentFiles
import Arinc615a.Host.DownloadInformation
import Arinc615a.Host.Deliveries
import Arinc615a.Target.Operation
import Arinc615a.Target.Reports
import Arinc615a.Target.Files
import Arinc615a.Target.Machine
import Arinc615a.Target.Steps
import Arinc615a.Target.StatusSteps
import Arinc615a.Target.Finish
import Arinc615a.Target.FinalStatus
import Arinc615a.Target.StatusTransfers
import Arinc615a.Target.ImmediateStatus
import Arinc615a.Target.StatusContent
import Arinc615a.Target.StatusText
import Arinc615a.Target.LoadResults
import Arinc615a.Target.StatusTables
import Arinc615a.Target.Protocol
import Arinc615a.Target.Deliveries
import Arinc615a.Target.Completions
import Arinc615a.Target.Ending
import Arinc615a.Target.Clients
import Arinc615a.Target.Members
import Arinc615a.Target.ErrorOperation
import Arinc615a.System.Peers
import Arinc615a.System.Session
import Arinc615a.System.Origins
import Arinc615a.System.Aborts
import Arinc615a.System.Agreement
import Arinc615a.System.Completion
import Arinc615a.System.Requests
import Arinc615a.System.Ending
import Arinc615a.System.Denial
import Arinc615a.System.Negotiation
import Arinc615a.DlaQt.Operations
import Arinc615a.DlaQt.FinishedSignal
import Arinc615a.DlaQt.Wizard
import Arinc615a.DlaQt.AnswerFile
import Arinc615a.DlaQt.FileTransfers
import Arinc615a.DlaQt.Configuration
