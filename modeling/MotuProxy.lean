import MotuProxy.Lib.Bytes
import MotuProxy.Lib.Proc
import MotuProxy.Lib.Reader
import MotuProxy.Lib.Run
import MotuProxy.Model.Cli
import MotuProxy.Model.Coordinator
import MotuProxy.Model.Dispatch
import MotuProxy.Model.Exn
import MotuProxy.Model.Handler
import MotuProxy.Model.Lifecycle
import MotuProxy.Model.Managed
import MotuProxy.Model.Parser
import MotuProxy.Model.Paths
import MotuProxy.Model.Protocol
import MotuProxy.Model.Schema
import MotuProxy.Model.Session
import MotuProxy.Model.Threads
import MotuProxy.Py.Codec
import MotuProxy.Py.Json
import MotuProxy.Py.Str
import MotuProxy.Py.Url
import MotuProxy.Verify.Attribution
import MotuProxy.Verify.Cancellation
import MotuProxy.Verify.Collector
import MotuProxy.Verify.CollectorInvariant
import MotuProxy.Verify.FrameLemmas
import MotuProxy.Verify.HostSequence
import MotuProxy.Verify.Isolation
import MotuProxy.Verify.KeepAlive
import MotuProxy.Verify.LatestEtag
import MotuProxy.Verify.Lifecycle
import MotuProxy.Verify.LifecycleRefinement
import MotuProxy.Verify.LiveSession
import MotuProxy.Verify.Monitor
import MotuProxy.Verify.OwnResponse
import MotuProxy.Verify.PlainHistory
import MotuProxy.Verify.Preemption
import MotuProxy.Verify.Publication
import MotuProxy.Verify.Replica
import MotuProxy.Verify.RequestFormat
import MotuProxy.Verify.SessionPurity
import MotuProxy.Verify.Steps
import MotuProxy.Verify.WaitOutcome
import MotuProxy.Verify.WriteBody
import MotuProxy.Verify.WriteGate
import MotuProxy.Verify.WritePath
import MotuProxy.Verify.PostSize
import MotuProxy.Verify.SchemaDecision
import MotuProxy.Verify.SchemaLanguage
import MotuProxy.Verify.Chunking
import MotuProxy.Verify.Accounting
import MotuProxy.Verify.StaleTraffic
import MotuProxy.Model.UsbFs
import MotuProxy.Verify.Urbs
import MotuProxy.Verify.ReadResult
import MotuProxy.Verify.DegradedRefresh
import MotuProxy.Model.Stack
import MotuProxy.Verify.NoReplay
import MotuProxy.Verify.Envelope
import MotuProxy.Verify.TextResponse
import MotuProxy.Lib.JsonText
import MotuProxy.Verify.JsonScan
import MotuProxy.Verify.Backoff
import MotuProxy.Model.LiveValidate
import MotuProxy.Verify.LiveValidation
import MotuProxy.Verify.SchemaLookup
import MotuProxy.Verify.ClientQuery
import MotuProxy.Model.Device
import MotuProxy.Verify.DeviceSelection
import MotuProxy.Model.ReadStack
import MotuProxy.Verify.QueryFidelity
import MotuProxy.Model.Wakeups
import MotuProxy.Verify.Wakeups
import MotuProxy.Verify.Progress
import MotuProxy.Verify.Shutdown
import MotuProxy.Verify.Quiescence
import MotuProxy.Verify.ReadIntegrity
import MotuProxy.Verify.Refusal
import MotuProxy.Verify.WriteFrames
import MotuProxy.Model.Handles
import MotuProxy.Verify.Handles
import MotuProxy.Verify.Headers
import MotuProxy.Verify.ErrorBody
import MotuProxy.Verify.Provenance
import MotuProxy.Lib.HttpMessage
import MotuProxy.Model.Connection
import MotuProxy.Verify.Replies
import MotuProxy.Verify.Connection
