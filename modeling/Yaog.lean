import Yaog.Compiler.TransitPool
import Yaog.Compiler.PolicyFields
import Yaog.Compiler.DeadLinks
import Yaog.Allocator.Soundness
import Yaog.Compiler.Capacity
import Yaog.Compiler.CompiledPorts
import Yaog.Compiler.OrderIndependence
import Yaog.Renderer.Coverage
import Yaog.Renderer.Injection
import Yaog.Renderer.Quoting
import Yaog.Normalize.Convergence
import Yaog.Controller.Preview
import Yaog.Controller.AuditChain
import Yaog.Agent.Checksums
import Yaog.Agent.ExactRetry
import Yaog.Agent.Reports
import Yaog.Controller.TelemetryInvariant
import Yaog.Controller.TelemetryOwner
import Yaog.Controller.HistoryTail
import Yaog.Agent.TelemetryDelivery
import Yaog.Controller.TopologyHistory
import Yaog.Controller.KeyUniqueness
import Yaog.Controller.TokenIndex
import Yaog.Accounts.SecondFactor
import Yaog.Accounts.ClientIP
