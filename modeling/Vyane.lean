import Vyane.WorkflowEvents
import Vyane.NativeAuthority
import Vyane.NativePreflight
import Vyane.NativeSafety
import Vyane.KernelApprovals
import Vyane.WorkflowGraphs
import Vyane.WorkflowRendering
import Vyane.WorkflowReplays
import Vyane.AgentProjection
import Vyane.AnthropicTexts
import Vyane.ConnectorErrors
import Vyane.EventReplays
import Vyane.Feedback
import Vyane.NativeApprovals
import Vyane.NativeGlobs
import Vyane.OpenAiReplays
import Vyane.RoutingCandidates
import Vyane.SessionNames
import Vyane.TextEditMatches
import Vyane.TlsRecords
import Vyane.TrustedSearch
import Vyane.TrustedWrites
import Vyane.WebFetch
import Vyane.WorkflowJson
import Vyane.WorkflowProgress
