import Kagenti.Operator.AgentRuntime.Config
import Kagenti.Operator.Webhook.Pod

/-!
What the webhook reads besides the pod: the platform configuration and the feature gates
(`webhook/config`), the ConfigMaps of the namespace (`namespace_config.go`), the decision on the
sidecars (`precedence.go`), and the chains in `InjectAuthBridge` that resolve the modes. The
conversion of YAML to JSON is a parameter.
-/

namespace Kagenti.Operator.Webhook

open Go AgentRuntime

/-! Platform -/

structure ImageConfig where
  envoyProxy : String
  authBridge : String
  authBridgeLite : String
  proxyInit : String
  pullPolicy : String
  deriving DecidableEq

inductive EgressEnforcement where
  | enforceRedirect
  | none
  deriving DecidableEq

structure ProxyConfig where
  port : Int
  uid : Int
  inboundProxyPort : Int
  adminPort : Int
  transparentPort : Int
  iptablesCmd : String
  allowedEgressEnforcement : List EgressEnforcement
  -- `Validate` has refused everything else
  allowed_ne_nil : allowedEgressEnforcement ≠ []
  deriving DecidableEq

structure ResourcesConfig where
  envoyProxy : ResourceRequirements
  proxyInit : ResourceRequirements
  authBridge : ResourceRequirements
  deriving DecidableEq

structure SpiffeConfig where
  socketPath : String
  deriving DecidableEq

structure PlatformConfig where
  images : ImageConfig
  proxy : ProxyConfig
  resources : ResourcesConfig
  spiffe : SpiffeConfig
  deriving DecidableEq

def compiledDefaults : PlatformConfig where
  images := {
    envoyProxy := "ghcr.io/kagenti/kagenti-extensions/authbridge-envoy:latest"
    authBridge := "quay.io/opendatahub/odh-authbridge:latest"
    authBridgeLite := "ghcr.io/kagenti/kagenti-extensions/authbridge-lite:latest"
    proxyInit := "ghcr.io/kagenti/kagenti-extensions/proxy-init:latest"
    pullPolicy := "IfNotPresent" }
  proxy := {
    port := 15123
    uid := 1337
    inboundProxyPort := 15124
    adminPort := 9901
    transparentPort := 8082
    iptablesCmd := ""
    allowedEgressEnforcement := [.enforceRedirect, .none]
    allowed_ne_nil := List.cons_ne_nil _ _ }
  resources := {
    envoyProxy := ⟨[("cpu", "50m"), ("memory", "64Mi")], [("cpu", "200m"), ("memory", "256Mi")]⟩
    proxyInit := ⟨[("cpu", "10m"), ("memory", "10Mi")], [("cpu", "10m"), ("memory", "10Mi")]⟩
    authBridge := ⟨[("cpu", "100m"), ("memory", "128Mi")], [("cpu", "300m"), ("memory", "384Mi")]⟩ }
  spiffe := ⟨"unix:///spiffe-workload-api/spire-agent.sock"⟩

structure FeatureGates where
  globalEnabled : Bool
  envoyProxy : Bool
  injectTools : Bool
  perWorkloadConfigResolution : Bool
  deriving DecidableEq

def defaultFeatureGates : FeatureGates where
  globalEnabled := true
  envoyProxy := true
  injectTools := false
  perWorkloadConfigResolution := false

/-! Decision -/

structure InjectionDecision where
  envoyProxy : Bool
  proxyInit : Bool
  spiffeHelper : Bool
  deriving DecidableEq

def InjectionDecision.anyInjected (d : InjectionDecision) : Bool := d.envoyProxy || d.spiffeHelper

def labelEnvoyProxyInject : String := "kagenti.io/envoy-proxy-inject"

def labelSpiffeHelperInject : String := "kagenti.io/spiffe-helper-inject"

/-- `PrecedenceEvaluator.Evaluate`, without the reasons for the log. -/
def evaluate (gates : FeatureGates) (labels : Option StringMap) : InjectionDecision :=
  let envoyProxy := gates.envoyProxy && labelValue labels labelEnvoyProxyInject ≠ "false"
  ⟨envoyProxy, envoyProxy, labelValue labels labelSpiffeHelperInject ≠ "false"⟩

/-! Namespace -/

structure NamespaceConfig where
  keycloakURL : String
  keycloakRealm : String
  tokenURL : String
  issuer : String
  expectedAudience : String
  targetAudience : String
  targetScopes : String
  defaultOutboundPolicy : String
  clientAuthType : String
  jwtAudience : String
  authBridgeRuntimeYAML : String
  deriving DecidableEq

def authBridgeConfigMapName : String := "authbridge-config"

def namespaceConfig (data runtime : StringMap) : NamespaceConfig where
  keycloakURL := data.value "KEYCLOAK_URL"
  keycloakRealm := data.value "KEYCLOAK_REALM"
  tokenURL := data.value "TOKEN_URL"
  issuer := data.value "ISSUER"
  expectedAudience := data.value "EXPECTED_AUDIENCE"
  targetAudience := data.value "TARGET_AUDIENCE"
  targetScopes := data.value "TARGET_SCOPES"
  defaultOutboundPolicy := data.value "DEFAULT_OUTBOUND_POLICY"
  clientAuthType := data.value "CLIENT_AUTH_TYPE"
  jwtAudience := data.value "JWT_AUDIENCE"
  authBridgeRuntimeYAML := runtime.value "config.yaml"

/-- A ConfigMap that cannot be read counts as an empty one, as in `readConfigMapData`. -/
def readNamespaceConfig (c : Reader) (ns : String) : NamespaceConfig :=
  namespaceConfig (readConfigMapData c ns authBridgeConfigMapName)
    (readConfigMapData c ns authBridgeRuntimeConfigMapName)

/-- A string destination of `yaml.Unmarshal`, which writes other scalars as text. The digits of a
number do not matter, since no setting is a number. -/
def yamlString : Into String
  | old, .null => some old
  | _, .str s => some s
  | _, .bool b => some (if b then "true" else "false")
  | _, .num n => some (Json.marshal (.num n))
  | _, _ => none

section Extract

variable (yaml : String → Option Json)

def extract (into : Into String) (authbridgeYAML : String) : String :=
  if authbridgeYAML = "" then "" else ((yaml authbridgeYAML).bind (into "")).getD ""

def extractMode : String → String := extract yaml (Into.struct [("mode", yamlString)])

def extractEgressEnforcement : String → String :=
  extract yaml (Into.struct [("egressEnforcement", yamlString)])

def extractMTLSMode : String → String :=
  extract yaml (Into.struct [("mtls", Into.struct [("mode", yamlString)])])

def extractTLSBridgeMode : String → String :=
  extract yaml (Into.struct [("tls_bridge", Into.struct [("mode", yamlString)])])

end Extract

/-! Modes -/

inductive AuthBridgeMode where
  | proxySidecar
  | envoySidecar
  | lite
  | waypoint
  deriving DecidableEq

namespace AuthBridgeMode

def text : AuthBridgeMode → String
  | proxySidecar => "proxy-sidecar"
  | envoySidecar => "envoy-sidecar"
  | lite => "lite"
  | waypoint => "waypoint"

def parse (s : String) : Option AuthBridgeMode :=
  [proxySidecar, envoySidecar, lite, waypoint].find? fun m => m.text = s

end AuthBridgeMode

inductive MTLSMode where
  | disabled
  | permissive
  | strict
  deriving DecidableEq

namespace MTLSMode

def text : MTLSMode → String
  | disabled => "disabled"
  | permissive => "permissive"
  | strict => "strict"

def parse (s : String) : Option MTLSMode :=
  [disabled, permissive, strict].find? fun m => m.text = s

end MTLSMode

def egressEnforcementText : EgressEnforcement → String
  | .enforceRedirect => "enforce-redirect"
  | .none => "none"

def tlsBridgeModeEnabled : String := "enabled"

def annotationAuthBridgeMode : String := "kagenti.io/authbridge-mode"

def resolveAuthBridgeMode (fromNamespace fromPod : String) : AuthBridgeMode :=
  (AuthBridgeMode.parse (if fromNamespace ≠ "" then fromNamespace else fromPod)).getD
    .proxySidecar

def resolveMTLSMode (fromNamespace : String) : MTLSMode :=
  (MTLSMode.parse fromNamespace).getD .permissive

def resolveEgressEnforcement (proxy : ProxyConfig) (fromNamespace : String) : EgressEnforcement :=
  let requested := if fromNamespace = egressEnforcementText .none then .none else .enforceRedirect
  if requested ∈ proxy.allowedEgressEnforcement then requested
  else proxy.allowedEgressEnforcement.head proxy.allowed_ne_nil

/-- What `InjectAuthBridge` settles before it changes the pod. -/
structure Posture where
  decision : InjectionDecision
  mtlsMode : MTLSMode
  egressEnforcement : EgressEnforcement
  tlsBridge : Bool
  mode : AuthBridgeMode
  deriving DecidableEq

/-- mTLS needs certificates, so it turns SPIRE on. -/
def Posture.spireEnabled (p : Posture) : Bool :=
  p.decision.spiffeHelper || p.mtlsMode ≠ .disabled

def resolvePosture (yaml : String → Option Json) (platform : PlatformConfig)
    (decision : InjectionDecision) (nsConfig : NamespaceConfig) (annotations : StringMap) :
    Posture where
  decision := decision
  mtlsMode := resolveMTLSMode (extractMTLSMode yaml nsConfig.authBridgeRuntimeYAML)
  egressEnforcement := resolveEgressEnforcement platform.proxy
    (extractEgressEnforcement yaml nsConfig.authBridgeRuntimeYAML)
  tlsBridge :=
    extractTLSBridgeMode yaml nsConfig.authBridgeRuntimeYAML = tlsBridgeModeEnabled
  mode := resolveAuthBridgeMode (extractMode yaml nsConfig.authBridgeRuntimeYAML)
    (annotations.value annotationAuthBridgeMode)

end Kagenti.Operator.Webhook
