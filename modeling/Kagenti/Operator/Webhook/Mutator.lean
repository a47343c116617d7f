import Kagenti.Operator.Webhook.Build

/-!
`InjectAuthBridge` (`pod_mutator.go`): the calls that can fail, and the changes to the pod once they
are through (`placeProxySidecar`, `placeEnvoySidecar`). The template of the Envoy configuration and
the answers of the API server are parameters. Owner references are left out. A ConfigMap holds JSON,
the same document as the YAML that `yaml.Marshal` writes.
-/

namespace Kagenti.Operator.Webhook

open Go AgentRuntime Lib.Keyed
open Injector (authBridgeProxyContainerName envoyProxyContainerName findFreePort nextPort)

/-- What `RenderEnvoyConfig` passes to the template. -/
structure EnvoyTemplateData where
  adminPort : Int
  outboundPort : Int
  inboundPort : Int
  extProcPort : Int
  mtlsEnabled : Bool
  mtlsPermissive : Bool
  mtlsStrict : Bool
  deriving DecidableEq

structure AgentConfigMap where
  ns : String
  name : String
  data : List (String × String)
  deriving DecidableEq

inductive CreateError where
  | alreadyExists
  | other (message : String)
  deriving DecidableEq

structure PodMutator where
  yaml : String → Option Json
  envoyTemplate : EnvoyTemplateData → Except String String
  platformConfig : PlatformConfig
  featureGates : FeatureGates
  apiReader : Reader
  createServiceAccount : String → String → Except CreateError Unit
  getServiceAccount : String → String → Except String Unit
  apply : AgentConfigMap → Except String Unit

def PodMutator.inEmptyCluster : PodMutator where
  yaml _ := none
  envoyTemplate _ := .ok ""
  platformConfig := compiledDefaults
  featureGates := defaultFeatureGates
  apiReader := ⟨fun _ _ => .error .notFound, fun _ _ _ => .ok []⟩
  createServiceAccount _ _ := .ok ()
  getServiceAccount _ _ := .ok ()
  apply _ := .ok ()

def PodMutator.withRuntimeConfig (text : String) (document : Json) : PodMutator :=
  { PodMutator.inEmptyCluster with
    yaml := fun s => if s = text then some document else none
    apiReader := ⟨fun _ name =>
        if name = authBridgeRuntimeConfigMapName then
          .ok ⟨∅, some ((∅ : StringMap).insert "config.yaml" text)⟩
        else .error .notFound,
      fun _ _ _ => .ok []⟩ }

structure Injection where
  spec : PodSpec
  configMaps : List AgentConfigMap
  deriving DecidableEq

/-! The configuration of the sidecar -/

def optionalMember (key value : String) : List (String × Json) :=
  if value = "" then [] else [(key, .str value)]

def plugin (name : String) (config : List (String × Json)) : Json :=
  .obj [("plugins", .arr [.obj [("name", .str name), ("config", .obj config)]])]

def pluginIdentity (nsConfig : NamespaceConfig) : List (String × Json) :=
  if nsConfig.clientAuthType = "" then []
  else if nsConfig.clientAuthType = "federated-jwt" then
    [("identity", .obj (("type", .str "spiffe") ::
      optionalMember "jwt_audience" nsConfig.jwtAudience))]
  else [("identity", .obj [("type", .str nsConfig.clientAuthType)])]

def synthesizePipeline (nsConfig : NamespaceConfig) : Json :=
  let keycloak := optionalMember "keycloak_url" nsConfig.keycloakURL ++
    optionalMember "keycloak_realm" nsConfig.keycloakRealm
  .obj [
    ("inbound", plugin "jwt-validation" (optionalMember "issuer" nsConfig.issuer ++ keycloak)),
    ("outbound", plugin "token-exchange" (keycloak ++
      optionalMember "default_policy" nsConfig.defaultOutboundPolicy ++ pluginIdentity nsConfig))]

def baseConfig (yaml : String → Option Json) (baseYAML : String) : Except String AnyMap :=
  if baseYAML = "" then .ok ∅
  else
    match (yaml baseYAML).bind (Into.anyMap (some ∅)) with
    | none => .ok ∅
    | some none => .error "panic: assignment to entry in nil map [recovered]"
    | some (some cfg) => .ok cfg

structure AgentOverrides where
  mode : String
  listener : List (String × String)
  mtlsMode : MTLSMode
  tlsBridge : Bool
  spireEnabled : Bool
  deriving DecidableEq

def setOrDelete (on : Bool) (key : String) (value : Json) (cfg : AnyMap) : AnyMap :=
  if on then cfg.insert key value else cfg.erase key

def withPipeline (nsConfig : NamespaceConfig) (cfg : AnyMap) : AnyMap :=
  match cfg.lookup "pipeline" with
  | none | some .null => cfg.insert "pipeline" (synthesizePipeline nsConfig)
  | some _ => cfg

/-- A listener section that is not a map is dropped. -/
def withListener (overrides : List (String × String)) (cfg : AnyMap) : AnyMap :=
  if overrides = [] then cfg
  else
    let base :=
      match cfg.lookup "listener" with
      | some (.obj ms) => ms
      | _ => []
    cfg.insert "listener" (.obj (base ++ overrides.map fun o => (o.1, .str o.2)))

def agentConfig (socketPath : String) (nsConfig : NamespaceConfig) (o : AgentOverrides)
    (base : AnyMap) : AnyMap :=
  let cfg := (withPipeline nsConfig base).insert "mode" (.str o.mode)
  let cfg := withListener o.listener cfg
  let cfg := setOrDelete (o.mtlsMode ≠ .disabled) "mtls"
    (.obj [("mode", .str o.mtlsMode.text)]) cfg
  let cfg := setOrDelete o.tlsBridge "tls_bridge"
    (.obj [("mode", .str tlsBridgeModeEnabled), ("ca_dir", .str tlsBridgeCAMountPath)]) cfg
  setOrDelete o.spireEnabled "spiffe" (.obj [("socket", .str socketPath)]) cfg

def configText (cfg : AnyMap) : String :=
  Json.marshal (.obj (cfg.entries.map fun e => (e.1, e.2)))

def perAgentConfigMapName (crName : String) : String := "authbridge-config-" ++ crName

def perAgentEnvoyConfigMapName (crName : String) : String := "envoy-config-" ++ crName

namespace PodMutator

variable (m : PodMutator)

def ensurePerAgentConfigMap (ns crName : String) (nsConfig : NamespaceConfig)
    (o : AgentOverrides) : Except String AgentConfigMap := do
  let base ← baseConfig m.yaml nsConfig.authBridgeRuntimeYAML
  let cfg := agentConfig m.platformConfig.spiffe.socketPath nsConfig o base
  let cm : AgentConfigMap :=
    ⟨ns, perAgentConfigMapName crName, [("config.yaml", configText cfg)]⟩
  (m.apply cm).mapError
    ("failed to apply per-agent ConfigMap " ++ ns ++ "/" ++ cm.name ++ ": " ++ ·)
  return cm

def renderEnvoyConfig (mtlsMode : MTLSMode) : Except String String :=
  let proxy := m.platformConfig.proxy
  (m.envoyTemplate {
    adminPort := proxy.adminPort
    outboundPort := proxy.port
    inboundPort := proxy.inboundProxyPort
    extProcPort := 9090
    mtlsEnabled := mtlsMode ≠ .disabled
    mtlsPermissive := mtlsMode = .permissive
    mtlsStrict := mtlsMode = .strict }).mapError ("executing envoy template: " ++ ·)

def ensurePerAgentEnvoyConfigMap (ns crName : String) (mtlsMode : MTLSMode) :
    Except String AgentConfigMap := do
  let envoyYAML ← (m.renderEnvoyConfig mtlsMode).mapError
    ("rendering per-agent envoy.yaml for " ++ ns ++ "/" ++ crName ++ ": " ++ ·)
  let cm : AgentConfigMap := ⟨ns, perAgentEnvoyConfigMapName crName, [("envoy.yaml", envoyYAML)]⟩
  (m.apply cm).mapError
    ("failed to apply per-agent envoy ConfigMap " ++ ns ++ "/" ++ cm.name ++ ": " ++ ·)
  return cm

/-! The ServiceAccount -/

def ensureServiceAccount (ns name : String) : Except String Unit :=
  match m.createServiceAccount ns name with
  | .ok () => .ok ()
  | .error .alreadyExists =>
    (m.getServiceAccount ns name).mapError
      ("failed to fetch existing ServiceAccount " ++ ns ++ "/" ++ name ++ ": " ++ ·)
  | .error (.other e) =>
    .error ("failed to create ServiceAccount " ++ ns ++ "/" ++ name ++ ": " ++ e)

def dedicateServiceAccount (context ns crName : String) (spec : PodSpec) : Except String PodSpec :=
  if spec.serviceAccountName = "" ∨ spec.serviceAccountName = "default" then do
    (m.ensureServiceAccount ns crName).mapError (context ++ ": " ++ ·)
    return { spec with serviceAccountName := crName }
  else return spec

end PodMutator

end Kagenti.Operator.Webhook
