import Kagenti.Go.Path
import Kagenti.Operator.Webhook.Settings

/-!
The volumes (`volume_builder.go`) and containers (`container_builder.go`) that the webhook adds to a
pod.
-/

namespace Kagenti.Operator.Webhook

open Go AgentRuntime
open Injector (authBridgeProxyContainerName envoyProxyContainerName proxyInitContainerName)

/-! Volumes -/

def envoyConfigMapName : String := "envoy-config"

def authproxyRoutesConfigMapName : String := "authproxy-routes"

def optionalConfigMap (volumeName configMapName : String) : Volume :=
  ⟨volumeName, .configMap configMapName (some true)⟩

def spireVolumes : List Volume :=
  [⟨"spire-agent-socket", .csi "csi.spiffe.io" true⟩,
    ⟨"spiffe-helper-config", .configMap spiffeHelperConfigMapName none⟩,
    ⟨"svid-output", .emptyDir⟩]

def buildResolvedVolumes (spireEnabled : Bool) (envoyConfigMap : String) : List Volume :=
  let envoyConfigMap := if envoyConfigMap = "" then envoyConfigMapName else envoyConfigMap
  [⟨"shared-data", .emptyDir⟩] ++ (if spireEnabled then spireVolumes else []) ++
    [optionalConfigMap "envoy-config" envoyConfigMap,
      optionalConfigMap "authproxy-routes" authproxyRoutesConfigMapName,
      optionalConfigMap "authbridge-runtime-config" authBridgeRuntimeConfigMapName]

def buildRequiredVolumes : List Volume :=
  [⟨"shared-data", .emptyDir⟩,
    ⟨"spire-agent-socket", .csi "csi.spiffe.io" true⟩,
    ⟨"spiffe-helper-config", .configMap "spiffe-helper-config" none⟩,
    ⟨"svid-output", .emptyDir⟩,
    optionalConfigMap "envoy-config" "envoy-config",
    optionalConfigMap "authproxy-routes" "authproxy-routes",
    optionalConfigMap "authbridge-runtime-config" "authbridge-runtime-config"]

def buildRequiredVolumesNoSpire : List Volume :=
  [⟨"shared-data", .emptyDir⟩,
    optionalConfigMap "envoy-config" "envoy-config",
    optionalConfigMap "authproxy-routes" "authproxy-routes",
    optionalConfigMap "authbridge-runtime-config" "authbridge-runtime-config"]

def overrideConfigMap (volumeName configMapName : String) (v : Volume) : Volume :=
  if v.name = volumeName then
    match v.source with
    | .configMap _ optional => ⟨v.name, .configMap configMapName optional⟩
    | _ => v
  else v

def overrideAuthBridgeConfigMapInVolumes (volumes : List Volume) (cmName : String) : List Volume :=
  volumes.map (overrideConfigMap authBridgeRuntimeConfigMapName cmName)

def overrideEnvoyConfigMapInVolumes (volumes : List Volume) (cmName : String) : List Volume :=
  volumes.map (overrideConfigMap envoyConfigMapName cmName)

/-! The SPIRE socket -/

def pathDir (p : Bytes) : Bytes :=
  Path.clean (p.reverse.dropWhile (· ≠ Path.slash)).reverse

def spireSocketDir (socketPath : String) : String :=
  let path := bytes socketPath
  let stripped := if bytes "unix://" <+: path then path.drop 7 else path
  let dir := pathDir stripped
  if dir = Path.dot ∨ dir = [Path.slash] then "" else text dir

/-! Ports that iptables leaves alone -/

def mandatoryOutboundExclude : String := "8080"

/-- `strconv.Atoi`. A number that does not fit into 64 bits is no port anyway. -/
def atoi (s : String) : Option Int :=
  let digits (cs : List Char) : Option Nat :=
    if cs = [] ∨ cs.all Char.isDigit = false then none
    else some (cs.foldl (fun n c => n * 10 + (c.toNat - '0'.toNat)) 0)
  match s.toList with
  | '-' :: cs => (digits cs).map fun n => -(n : Int)
  | '+' :: cs => (digits cs).map Int.ofNat
  | cs => (digits cs).map Int.ofNat

def addExcludedPort (ports : List String) (tok : String) : List String :=
  match atoi (trimSpace tok) with
  | some p =>
    if p < 1 ∨ p > 65535 ∨ toString p ∈ ports then ports else ports ++ [toString p]
  | none => ports

def validateAndDeduplicatePorts (raw : String) (initialPorts : List String) : List String :=
  ((splitBytes 0x2C (bytes raw)).map text).foldl addExcludedPort initialPorts

def buildOutboundExcludeValue (extra : String) : String :=
  if extra = "" then mandatoryOutboundExclude
  else ",".intercalate (validateAndDeduplicatePorts extra [mandatoryOutboundExclude])

def buildPortExcludeValue (raw : String) : String :=
  if raw = "" then "" else ",".intercalate (validateAndDeduplicatePorts raw [])

/-! Containers -/

structure ContainerBuilder where
  cfg : PlatformConfig
  -- set if the values are written into the environment
  resolved : Option NamespaceConfig

inductive ProxyInitMode where
  | redirect
  | enforceRedirect
  deriving DecidableEq

def spireEnabledStr (b : Bool) : String := if b then "true" else "false"

def envLiteral (name value : String) : EnvVar := ⟨name, value, none⟩

/-- An entry that takes the value of its key in authbridge-config. -/
def envReference (name : String) (optional : Bool) : EnvVar :=
  ⟨name, "", some (.configMapKeyRef authBridgeConfigMapName name optional)⟩

def buildEnvoyProxyEnvResolved (ns : NamespaceConfig) : List EnvVar :=
  [envLiteral "KEYCLOAK_URL" ns.keycloakURL,
    envLiteral "KEYCLOAK_REALM" ns.keycloakRealm,
    envLiteral "TOKEN_URL" ns.tokenURL,
    envLiteral "ISSUER" ns.issuer,
    envLiteral "EXPECTED_AUDIENCE" ns.expectedAudience,
    envLiteral "TARGET_AUDIENCE" ns.targetAudience,
    envLiteral "TARGET_SCOPES" ns.targetScopes,
    envLiteral "CLIENT_ID_FILE" "/shared/client-id.txt",
    envLiteral "CLIENT_SECRET_FILE" "/shared/client-secret.txt",
    envLiteral "ROUTES_CONFIG_PATH" "/etc/authproxy/routes.yaml",
    envLiteral "DEFAULT_OUTBOUND_POLICY" ns.defaultOutboundPolicy]

def buildEnvoyProxyEnvLegacy : List EnvVar :=
  [envReference "KEYCLOAK_URL" true,
    envReference "KEYCLOAK_REALM" true,
    envReference "TOKEN_URL" true,
    envReference "ISSUER" false,
    envReference "EXPECTED_AUDIENCE" true,
    envReference "TARGET_AUDIENCE" true,
    envReference "TARGET_SCOPES" true,
    envLiteral "CLIENT_ID_FILE" "/shared/client-id.txt",
    envLiteral "CLIENT_SECRET_FILE" "/shared/client-secret.txt",
    envLiteral "ROUTES_CONFIG_PATH" "/etc/authproxy/routes.yaml",
    envReference "DEFAULT_OUTBOUND_POLICY" true]

namespace ContainerBuilder

variable (b : ContainerBuilder)

/-- The mounts of both sidecars when SPIRE is on. -/
def spireMounts : List VolumeMount :=
  [⟨"svid-output", "/opt", "", false⟩,
    ⟨"spiffe-helper-config", "/etc/spiffe-helper", "", true⟩,
    ⟨"spire-agent-socket", spireSocketDir b.cfg.spiffe.socketPath, "", true⟩]

def sidecarSecurityContext : SecurityContext where
  runAsUser := some b.cfg.proxy.uid
  runAsGroup := some b.cfg.proxy.uid
  runAsNonRoot := some true
  allowPrivilegeEscalation := some false
  privileged := none
  addCapabilities := []
  dropCapabilities := []

def buildEnvoyProxyContainerWithSpireOption (spireEnabled : Bool) : Container where
  name := envoyProxyContainerName
  image := b.cfg.images.envoyProxy
  imagePullPolicy := b.cfg.images.pullPolicy
  args := ["--config", "/etc/authbridge/config.yaml"]
  resources := b.cfg.resources.envoyProxy
  ports := [⟨"envoy-outbound", b.cfg.proxy.port, "TCP"⟩,
    ⟨"envoy-inbound", b.cfg.proxy.inboundProxyPort, "TCP"⟩,
    ⟨"envoy-admin", b.cfg.proxy.adminPort, "TCP"⟩,
    ⟨"ext-proc", 9090, "TCP"⟩]
  env :=
    (match b.resolved with
      | some ns => buildEnvoyProxyEnvResolved ns
      | none => buildEnvoyProxyEnvLegacy) ++
    [envLiteral "SPIRE_ENABLED" (spireEnabledStr spireEnabled)]
  securityContext := some b.sidecarSecurityContext
  volumeMounts :=
    [⟨"envoy-config", "/etc/envoy", "", true⟩,
      ⟨"shared-data", "/shared", "", false⟩,
      ⟨"authproxy-routes", "/etc/authproxy", "", true⟩,
      ⟨"authbridge-runtime-config", "/etc/authbridge", "", true⟩] ++
    (if spireEnabled then b.spireMounts else [])

def buildProxySidecarContainerWithPorts (spireEnabled : Bool) (image : String)
    (reverseProxyPort forwardProxyPort : Int) : Container where
  name := authBridgeProxyContainerName
  image := image
  imagePullPolicy := b.cfg.images.pullPolicy
  args := ["--config", "/etc/authbridge/config.yaml"]
  resources := b.cfg.resources.authBridge
  ports := [⟨"reverse-proxy", reverseProxyPort, "TCP"⟩, ⟨"forward-proxy", forwardProxyPort, "TCP"⟩]
  env := [envLiteral "SPIRE_ENABLED" (spireEnabledStr spireEnabled)]
  securityContext := some b.sidecarSecurityContext
  volumeMounts :=
    [⟨"shared-data", "/shared", "", false⟩,
      ⟨"authbridge-runtime-config", "/etc/authbridge", "", true⟩,
      ⟨authproxyRoutesConfigMapName, "/etc/authproxy", "", true⟩] ++
    (if spireEnabled then b.spireMounts else [])

def proxyInitEnv (mode : ProxyInitMode) (outboundPortsExclude inboundPortsExclude : String) :
    List EnvVar :=
  match mode with
  | .enforceRedirect =>
    [envLiteral "MODE" "enforce-redirect",
      envLiteral "PROXY_UID" (toString b.cfg.proxy.uid),
      envLiteral "TRANSPARENT_PORT" (toString b.cfg.proxy.transparentPort)]
  | .redirect =>
    let inboundValue := buildPortExcludeValue inboundPortsExclude
    [envLiteral "PROXY_PORT" (toString b.cfg.proxy.port),
      envLiteral "INBOUND_PROXY_PORT" (toString b.cfg.proxy.inboundProxyPort),
      envLiteral "PROXY_UID" (toString b.cfg.proxy.uid),
      envLiteral "OUTBOUND_PORTS_EXCLUDE" (buildOutboundExcludeValue outboundPortsExclude),
      ⟨"POD_IP", "", some (.fieldRef "status.podIP")⟩] ++
    (if inboundValue = "" then [] else [envLiteral "INBOUND_PORTS_EXCLUDE" inboundValue])

def buildProxyInitContainer (mode : ProxyInitMode)
    (outboundPortsExclude inboundPortsExclude : String) : Container where
  name := proxyInitContainerName
  image := b.cfg.images.proxyInit
  imagePullPolicy := b.cfg.images.pullPolicy
  args := []
  resources := b.cfg.resources.proxyInit
  ports := []
  env := b.proxyInitEnv mode outboundPortsExclude inboundPortsExclude ++
    (if b.cfg.proxy.iptablesCmd = "" then []
      else [envLiteral "IPTABLES_CMD" b.cfg.proxy.iptablesCmd])
  securityContext := some {
    runAsUser := some 0
    runAsGroup := none
    runAsNonRoot := some false
    allowPrivilegeEscalation := none
    privileged := some false
    addCapabilities := ["NET_ADMIN", "NET_RAW"]
    dropCapabilities := ["ALL"] }
  volumeMounts := []

end ContainerBuilder

end Kagenti.Operator.Webhook
