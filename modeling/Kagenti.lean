import Kagenti.AuthBridge.Audiences
import Kagenti.AuthBridge.BodyDelivery
import Kagenti.AuthBridge.BodyReaders
import Kagenti.AuthBridge.BypassSoundness
import Kagenti.AuthBridge.CacheTransparency
import Kagenti.AuthBridge.Diff
import Kagenti.AuthBridge.Finish
import Kagenti.AuthBridge.HostBypass
import Kagenti.AuthBridge.HotSwap
import Kagenti.AuthBridge.InferenceDelivery
import Kagenti.AuthBridge.Lifecycle
import Kagenti.AuthBridge.McpRecording
import Kagenti.AuthBridge.Mediation
import Kagenti.AuthBridge.Opa
import Kagenti.AuthBridge.PolicyHost
import Kagenti.AuthBridge.ReloadAgreement
import Kagenti.AuthBridge.SparcMediation
import Kagenti.AuthBridge.Subscribers
import Kagenti.Operator.AgentCards.Aggregation
import Kagenti.Operator.AgentCards.Ready
import Kagenti.Operator.AgentCards.StrictBinding
import Kagenti.Operator.AgentRuntime.HashCompleteness
import Kagenti.Operator.AgentRuntime.SandboxRestart
import Kagenti.Operator.BundleService.NonInterference
import Kagenti.Operator.ClientRegistration.Agreement
import Kagenti.Operator.NetworkPolicy.Coverage
import Kagenti.Operator.NetworkPolicy.Sharing
import Kagenti.Operator.NetworkPolicy.Stability
import Kagenti.Operator.Signature.Binding
import Kagenti.Operator.Signature.MultiSignature
import Kagenti.Operator.Webhook.Confinement
import Kagenti.Operator.Webhook.Frame
import Kagenti.TokenBroker.Discovery
import Kagenti.TokenBroker.DoneOnce
import Kagenti.TokenBroker.Expiry
import Kagenti.TokenBroker.OAuthCoherence
import Kagenti.TokenBroker.Timers
import Kagenti.AuthBridge.Templates
