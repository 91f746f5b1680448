import NermalProxy.Library.Transition
import NermalProxy.Library.CString
import NermalProxy.Library.Words
import NermalProxy.Library.EraseLoop
import NermalProxy.Library.Base64
import NermalProxy.Library.Buffer
import NermalProxy.Library.Printf
import NermalProxy.Library.LinkedList
import NermalProxy.Library.EraseCursor
import NermalProxy.Library.LittleEndian
import NermalProxy.Library.Potential
import NermalProxy.Library.Simulation
import NermalProxy.HostInfoCache
import NermalProxy.CacheFilter
import NermalProxy.CacheCursor
import NermalProxy.ClientSocket
import NermalProxy.Relay
import NermalProxy.Detector
import NermalProxy.Credentials
import NermalProxy.Segmentation
import NermalProxy.RequestLine
import NermalProxy.TransparentRequest
import NermalProxy.RequestedPort
import NermalProxy.ConfigFile
import NermalProxy.ConfigLayout
import NermalProxy.ConfigLines
import NermalProxy.ConfigText
import NermalProxy.Blacklist
import NermalProxy.BlocklistFile
import NermalProxy.Policy
import NermalProxy.TimeMap
import NermalProxy.ScheduleRange
import NermalProxy.UserAuth
import NermalProxy.Authentication
import NermalProxy.Schedules
import NermalProxy.Config
import NermalProxy.ConfiguredFilter
import NermalProxy.Respelling
import NermalProxy.Session
import NermalProxy.PolicyWalk
import NermalProxy.State
import NermalProxy.Workers
import NermalProxy.ProxyRequest
import NermalProxy.TunnelRequest
import NermalProxy.ConnectionAttempts
import NermalProxy.RequestBuffers
import NermalProxy.CredentialBuffers
import NermalProxy.CredentialHeader
import NermalProxy.Base64Block
import NermalProxy.Log
import NermalProxy.RequestLog
import NermalProxy.SocketCalls
import NermalProxy.Proxy
import NermalProxy.Ledger
import NermalProxy.Lifecycle
import NermalProxy.SessionLifecycle
import NermalProxy.Holders
import NermalProxy.Provenance
import NermalProxy.HandBack
import NermalProxy.CommandRead
import NermalProxy.Mediation
import NermalProxy.Resend
import NermalProxy.ByteCount
import NermalProxy.SessionCalls
import NermalProxy.AuditTable
import NermalProxy.AuditFile
import NermalProxy.AuditSaving
import NermalProxy.AuditRotation
import NermalProxy.ThreadPool
import NermalProxy.Steps
import NermalProxy.Descriptors
import NermalProxy.DescriptorAccount
import NermalProxy.BytePipe
import NermalProxy.Registration
import NermalProxy.SocketTable
import NermalProxy.EventLoop
import NermalProxy.ArrayBounds
import NermalProxy.ConfiguredAccess
import NermalProxy.Startup
import NermalProxy.StaleEvents
import NermalProxy.Containment
import NermalProxy.ConnectionLimit
import NermalProxy.Pruning
import NermalProxy.SocketScan
import NermalProxy.Timestamp
import NermalProxy.Decisions
import NermalProxy.Progress
import NermalProxy.Answers
import NermalProxy.Resolution
import NermalProxy.Endpoints
import NermalProxy.Verdicts
import NermalProxy.ConfiguredRuns
import NermalProxy.Attribution
import NermalProxy.TaskFrame
import NermalProxy.PooledProxy
import NermalProxy.Streams
import NermalProxy.Transcript
import NermalProxy.Billing
import NermalProxy.Process
