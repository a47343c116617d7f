import Kagenti.Operator.Webhook.Mutator

/-!
The rest of `InjectAuthBridge` (`pod_mutator.go`): which pods are injected at all, the changes
to the pod in each mode, and the whole injection.
-/

namespace Kagenti.Operator.Webhook

open Go AgentRuntime Lib.Keyed
open Injector (authBridgeProxyContainerName envoyProxyContainerName findFreePort nextPort)

/-! The ports of the containers -/

def declaredPorts (containers : List Container) : List Int :=
  containers.flatMap fun c => c.ports.map ContainerPort.containerPort

def firstAgentPort : List Container → Int
  | [] => 0
  | c :: cs =>
    if c.name = authBridgeProxyContainerName then firstAgentPort cs
    else
      match c.ports with
      | [] => firstAgentPort cs
      | p :: _ => p.containerPort

def originalAgentPort (containers : List Container) : Int :=
  if firstAgentPort containers = 0 then 8000 else firstAgentPort containers

/-! Changes to the containers -/

def relocate (newAgentPort : Int) : List Container → List Container
  | [] => []
  | c :: cs =>
    if c.name = authBridgeProxyContainerName then c :: relocate newAgentPort cs
    else
      match c.ports with
      | [] => c :: relocate newAgentPort cs
      | p :: ps =>
        { c with
          ports := { p with containerPort := newAgentPort } :: ps
          env := setOrAddEnv "PORT" (toString newAgentPort) c.env } :: cs

def setEnvOf (containerName name value : String) : List Container → List Container
  | [] => []
  | c :: cs =>
    if c.name = containerName then { c with env := setOrAddEnv name value c.env } :: cs
    else c :: setEnvOf containerName name value cs

def injectHTTPProxyEnvs (forwardProxyPort : Int) (cs : List Container) : List Container :=
  cs.map fun c =>
    if c.name = authBridgeProxyContainerName then c else injectHTTPProxyEnv forwardProxyPort c

structure Ports where
  original : Int
  newAgent : Int
  forwardProxy : Int
  deriving DecidableEq

def choosePorts (containers : List Container) : Except String Ports := do
  let original := originalAgentPort containers
  let (newAgent, usedPorts) ← findFreePort (original :: declaredPorts containers) (nextPort original)
  let (forwardProxy, _) ← findFreePort usedPorts 8081
  return ⟨original, newAgent, forwardProxy⟩

def finishPod (p : Posture) (annotations : StringMap) (tlsBridge : PodSpec → PodSpec)
    (spec : PodSpec) : PodSpec :=
  let spec := tlsBridge (applyKeycloakClientCredentialsSecretVolumes annotations spec)
  if p.spireEnabled then ensureFSGroup spec else spec

section Place

variable (b : ContainerBuilder) (p : Posture) (annotations : StringMap) (volumes : List Volume)

def proxyImage : String :=
  if p.mode = .lite then b.cfg.images.authBridgeLite else b.cfg.images.authBridge

def placeProxySidecar (crName : String) (ports : Ports) (spec : PodSpec) : PodSpec :=
  let sidecar := b.buildProxySidecarContainerWithPorts p.spireEnabled (proxyImage b p)
    ports.original ports.forwardProxy
  let containers := addIfMissing Container.name (relocate ports.newAgent spec.containers) sidecar
  let containers := setEnvOf authBridgeProxyContainerName "MTLS_MODE" p.mtlsMode.text containers
  let containers := injectHTTPProxyEnvs ports.forwardProxy containers
  let initContainers :=
    if p.egressEnforcement = .enforceRedirect then
      addIfMissing Container.name spec.initContainers
        (b.buildProxyInitContainer .enforceRedirect "" "")
    else spec.initContainers
  finishPod p annotations (if p.tlsBridge then applyTLSBridgeMounts crName else id)
    { spec with
      containers := containers
      initContainers := initContainers
      volumes := addAll Volume.name spec.volumes volumes }

def outboundPortsExcludeKey : String := "kagenti.io/outbound-ports-exclude"

def inboundPortsExcludeKey : String := "kagenti.io/inbound-ports-exclude"

def placeEnvoySidecar (spec : PodSpec) : PodSpec :=
  let containers :=
    if p.decision.envoyProxy then
      addIfMissing Container.name spec.containers
        (b.buildEnvoyProxyContainerWithSpireOption p.spireEnabled)
    else spec.containers
  let containers := setEnvOf envoyProxyContainerName "MTLS_MODE" p.mtlsMode.text containers
  let initContainers :=
    if p.decision.proxyInit then
      addIfMissing Container.name spec.initContainers
        (b.buildProxyInitContainer .redirect (annotations.value outboundPortsExcludeKey)
          (annotations.value inboundPortsExcludeKey))
    else spec.initContainers
  finishPod p annotations id
    { spec with
      containers := containers
      initContainers := initContainers
      volumes := addAll Volume.name spec.volumes volumes }

end Place

/-! Injection -/

def authBridgeInjectLabel : String := "kagenti.io/inject"

def injectable (gates : FeatureGates) (labels : Option StringMap) : Bool :=
  let kagentiType := labelValue labels labelAgentType
  (kagentiType = "agent" || kagentiType = "tool") && gates.globalEnabled &&
    (kagentiType ≠ "tool" || gates.injectTools) &&
    labelValue labels authBridgeInjectLabel ≠ "disabled" &&
    (evaluate gates labels).anyInjected

/-- What the API server has accepted. -/
inductive Write where
  | serviceAccount (ns name : String)
  | configMap (cm : AgentConfigMap)
  deriving DecidableEq

def Write.configMap? : Write → Option AgentConfigMap
  | .configMap cm => some cm
  | .serviceAccount _ _ => none

/-- What is left at a return of `InjectAuthBridge`: its results, the pod and the writes so far. -/
structure Returned where
  mutated : Except String Bool
  spec : PodSpec
  writes : List Write

def Returned.outcome (r : Returned) : Except String (Option Injection) :=
  r.mutated.map fun mutated =>
    if mutated then some ⟨r.spec, r.writes.filterMap Write.configMap?⟩ else none

namespace PodMutator

variable (m : PodMutator)

def builder (nsConfig : NamespaceConfig) : ContainerBuilder :=
  ⟨m.platformConfig,
    if m.featureGates.perWorkloadConfigResolution then some nsConfig else none⟩

def requiredVolumes (spireEnabled : Bool) : List Volume :=
  if m.featureGates.perWorkloadConfigResolution then buildResolvedVolumes spireEnabled ""
  else if spireEnabled then buildRequiredVolumes else buildRequiredVolumesNoSpire

def posture (ns : String) (labels : Option StringMap) (annotations : StringMap) : Posture :=
  resolvePosture m.yaml m.platformConfig (evaluate m.featureGates labels)
    (readNamespaceConfig m.apiReader ns) annotations

def settleServiceAccount (p : Posture) (ns crName : String) (spec : PodSpec) :
    Except String PodSpec :=
  if p.decision.spiffeHelper then
    m.dedicateServiceAccount "failed to ensure service account" ns crName spec
  else if p.mtlsMode ≠ .disabled then
    m.dedicateServiceAccount "failed to ensure service account for mtls auto-spire" ns crName spec
  else return spec

def proxyOverrides (p : Posture) (ports : Ports) : AgentOverrides where
  mode := AuthBridgeMode.text .proxySidecar
  listener := [("reverse_proxy_addr", ":" ++ toString ports.original),
    ("reverse_proxy_backend", "http://127.0.0.1:" ++ toString ports.newAgent),
    ("forward_proxy_addr", ":" ++ toString ports.forwardProxy)]
  mtlsMode := p.mtlsMode
  tlsBridge := p.tlsBridge
  spireEnabled := p.spireEnabled

def envoyOverrides (p : Posture) : AgentOverrides where
  mode := AuthBridgeMode.text .envoySidecar
  listener := []
  mtlsMode := p.mtlsMode
  -- the bridge never runs under Envoy
  tlsBridge := false
  spireEnabled := p.spireEnabled

def proxyVolumes (p : Posture) (cmName : String) : List Volume :=
  overrideAuthBridgeConfigMapInVolumes (m.requiredVolumes p.spireEnabled) cmName

def envoyVolumes (p : Posture) (cmName envoyCMName : String) : List Volume :=
  overrideEnvoyConfigMapInVolumes (m.proxyVolumes p cmName) envoyCMName

section Call

variable (ns crName : String) (labels : Option StringMap) (annotations : StringMap) (spec : PodSpec)

def lacksAccount (p : Posture) : Bool :=
  p.spireEnabled && (spec.serviceAccountName = "" || spec.serviceAccountName = "default")

def accountWrites (p : Posture) : List Write :=
  if lacksAccount spec p ∧ m.createServiceAccount ns crName = .ok () then [.serviceAccount ns crName]
  else []

def injectProxySidecar (p : Posture) (nsConfig : NamespaceConfig) (writes : List Write) : Returned :=
  match choosePorts spec.containers with
  | .error e => ⟨.error e, spec, writes⟩
  | .ok ports =>
    match m.ensurePerAgentConfigMap ns crName nsConfig (proxyOverrides p ports) with
    | .error e =>
      -- the agent has been moved by now
      ⟨.error ("proxy-sidecar per-agent ConfigMap: " ++ e),
        { spec with containers := relocate ports.newAgent spec.containers }, writes⟩
    | .ok cm =>
      ⟨.ok true, placeProxySidecar (m.builder nsConfig) p annotations
        (m.proxyVolumes p cm.name) crName ports spec, writes ++ [.configMap cm]⟩

def injectEnvoySidecar (p : Posture) (nsConfig : NamespaceConfig) (writes : List Write) : Returned :=
  match m.ensurePerAgentConfigMap ns crName nsConfig (envoyOverrides p) with
  | .error e => ⟨.error ("envoy-sidecar per-agent ConfigMap: " ++ e), spec, writes⟩
  | .ok cm =>
    match m.ensurePerAgentEnvoyConfigMap ns crName p.mtlsMode with
    | .error e =>
      ⟨.error ("envoy-sidecar per-agent envoy ConfigMap: " ++ e), spec, writes ++ [.configMap cm]⟩
    | .ok envoyCM =>
      ⟨.ok true, placeEnvoySidecar (m.builder nsConfig) p annotations
        (m.envoyVolumes p cm.name envoyCM.name) spec,
        writes ++ [.configMap cm, .configMap envoyCM]⟩

/-- `InjectAuthBridge`. -/
def call : Returned :=
  if injectable m.featureGates labels then
    let nsConfig := readNamespaceConfig m.apiReader ns
    let p := m.posture ns labels annotations
    match m.settleServiceAccount p ns crName spec with
    | .error e => ⟨.error e, spec, []⟩
    | .ok settled =>
      let writes := m.accountWrites ns crName spec p
      match p.mode with
      | .waypoint => ⟨.ok false, settled, writes⟩
      | .proxySidecar | .lite =>
        m.injectProxySidecar ns crName annotations settled p nsConfig writes
      | .envoySidecar => m.injectEnvoySidecar ns crName annotations settled p nsConfig writes
  else ⟨.ok false, spec, []⟩

/-- What the handler uses of a call. -/
def injectAuthBridge : Except String (Option Injection) :=
  (m.call ns crName labels annotations spec).outcome

end Call

end PodMutator

end Kagenti.Operator.Webhook
