import RustProxy.Lib.Bytes
import RustProxy.Lib.Numerals
import RustProxy.Lib.Prog
import RustProxy.Lib.Interleave
import RustProxy.Lib.Rely
import RustProxy.Lib.Table
import RustProxy.Lib.Best
import RustProxy.Lib.Meter
import RustProxy.Lib.Incremental
import RustProxy.Lib.Stream
import RustProxy.Lib.Session
import RustProxy.Lib.Cost
import RustProxy.Lib.Benign
import RustProxy.Lib.Reporting
import RustProxy.ControlPlane.Model
import RustProxy.ControlPlane.Registry
import RustProxy.ControlPlane.Routing
import RustProxy.ControlPlane.Selection
import RustProxy.ControlPlane.Bandwidth
import RustProxy.ControlPlane.RateLimiter
import RustProxy.ControlPlane.Service
import RustProxy.ControlPlane.FiniteMap
import RustProxy.ControlPlane.Counters
import RustProxy.ControlPlane.GracePeriod
import RustProxy.ControlPlane.Lifecycle
import RustProxy.ControlPlane.Interleaving
import RustProxy.ControlPlane.Detector
import RustProxy.ControlPlane.Persistence
import RustProxy.ControlPlane.Classification
import RustProxy.ControlPlane.Sweep
import RustProxy.ControlPlane.Admission
import RustProxy.ControlPlane.Reservation
import RustProxy.ControlPlane.Contention
import RustProxy.ControlPlane.Api
import RustProxy.ControlPlane.Noninterference
import RustProxy.ControlPlane.Process
import RustProxy.ControlPlane.Metrics
import RustProxy.Protocol.Reader
import RustProxy.Protocol.Negotiation
import RustProxy.Protocol.Request
import RustProxy.Protocol.AddressText
import RustProxy.Protocol.RoundTrip
import RustProxy.Protocol.Lengths
import RustProxy.Protocol.Prefixes
import RustProxy.Proxy.Handshake
import RustProxy.Proxy.Streaming
import RustProxy.Gateway.Handler
import RustProxy.Gateway.Replies
import RustProxy.Gateway.NodeReplies
import RustProxy.Agent.Accounting
import RustProxy.Agent.Client
import RustProxy.Agent.Agreement
import RustProxy.Agent.Exchange
import RustProxy.Agent.NodeIds
import RustProxy.Agent.Handler
import RustProxy.Proxy.Gate
import RustProxy.Proxy.Refusals
import RustProxy.Gateway.Config
import RustProxy.Agent.Drain
import RustProxy.Agent.Process
import RustProxy.Chain.Histories
import RustProxy.Chain.Network
import RustProxy.ControlPlane.Serving
import RustProxy.Chain.Deadlines
import RustProxy.Chain.Delivery
import RustProxy.Chain.Authority
import RustProxy.Gateway.Server
import RustProxy.Gateway.SelectNode
import RustProxy.Chain.Loadgen
