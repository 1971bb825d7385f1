import LightWaf.Pipeline.Monotone
import LightWaf.Normalizer.Normalize
import LightWaf.Normalizer.GrpcWalk
import LightWaf.Normalizer.GrpcBounds
import LightWaf.Normalizer.GrpcWellFormed
import LightWaf.Normalizer.Multipart
import LightWaf.Normalizer.Canonical
import LightWaf.Normalizer.Base64
import LightWaf.Normalizer.DotSegments
import LightWaf.Normalizer.Limits
import LightWaf.Normalizer.PairParsing
import LightWaf.Normalizer.GraphqlMetrics
import LightWaf.Detection.Coverage
import LightWaf.Detection.Paranoia
import LightWaf.Detection.JsonKeys
import LightWaf.Detection.GraphqlCarriers
import LightWaf.Detection.MediaType
import LightWaf.Detection.TransportParity
import LightWaf.Detection.DerivedBudget
import LightWaf.Detection.MidToken
import LightWaf.Detection.EntityEvasion
import LightWaf.Crs.Buckets
import LightWaf.Crs.ByteCursor
import LightWaf.Crs.Accounting
import LightWaf.Crs.LexerRoundTrip
import LightWaf.Schema.ConformingRequests
import LightWaf.Schema.Occurrences
import LightWaf.Schema.Resolution
import LightWaf.State.Equivalence
import LightWaf.State.Concurrency
import LightWaf.State.TrackedKeys
import LightWaf.Proxy.Forward
import LightWaf.Wasm.WholeRequest
import LightWaf.Wasm.Pool
import LightWaf.ControlPlane.Correlation
import LightWaf.ControlPlane.Captures
import LightWaf.Capture.Redaction
import LightWaf.Capture.Ring
import LightWaf.ControlPlane.Siem
import LightWaf.ControlPlane.Compliance
import LightWaf.ControlPlane.Inventory
import LightWaf.NodeAgent.Poll
import LightWaf.Tls.ClusterRenewal
import LightWaf.ControlPlane.CefRoundTrip
import LightWaf.Schema.GrpcSchema
import LightWaf.Governance.ConcurrentAppends
import LightWaf.ThreatIntel.FeedRounds
import LightWaf.ControlPlane.PasswordChange
import LightWaf.Governance.LoginThrottle
import LightWaf.Schema.MediaTypes
import LightWaf.Schema.PreservedMeaning
import LightWaf.Detection.CommentCollapse
import LightWaf.Schema.UnknownFields
import LightWaf.Wasm.Marshal
import LightWaf.Proxy.Metrics
import LightWaf.ControlPlane.LatencyTotals
import LightWaf.Tls.Route53
import LightWaf.Tls.CertificateCache
import LightWaf.ControlPlane.InventoryFolding
import LightWaf.Wasm.HostCalls
import LightWaf.Operator.ConfigToml
import LightWaf.ControlPlane.Alerting
import LightWaf.ControlPlane.MetricTotals
import LightWaf.Governance.Escalation
import LightWaf.StateRedis.Locks
import LightWaf.Proxy.Drain
import LightWaf.NodeAgent.Fleet
