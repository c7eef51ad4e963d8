import GreenGateway.Analysis.PatchEffects
import GreenGateway.Archive.Delivery
import GreenGateway.Archive.RoundTrip
import GreenGateway.Audit.PathFilter
import GreenGateway.AuthorityEvents.Guarantees
import GreenGateway.Discovery.TemplateExport
import GreenGateway.Kernel.Monotonicity
import GreenGateway.Kernel.Preview
import GreenGateway.Kernel.Sufficiency
import GreenGateway.Ledger.Activation
import GreenGateway.Ledger.Recording
import GreenGateway.Ledger.TamperEvidence
import GreenGateway.Middleware.QueryFacts
import GreenGateway.Middleware.RateLimit
import GreenGateway.Network.Egress
import GreenGateway.Proxy.Circuit
import GreenGateway.Proxy.GrpcFraming
import GreenGateway.Proxy.GrpcTimeout
import GreenGateway.Proxy.HeaderBoundary
import GreenGateway.Proxy.Health
import GreenGateway.Proxy.Selection
import GreenGateway.Proxy.UpstreamRoute
import GreenGateway.Rbac.Alias
import GreenGateway.Rbac.ConvertedIds
import GreenGateway.Rbac.Scalars
import GreenGateway.Simulation.Unobserved
import GreenGateway.Storage.RateLimits
import GreenGateway.Tools.RenderedShape
