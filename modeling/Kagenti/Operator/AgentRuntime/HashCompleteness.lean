import Kagenti.Operator.AgentRuntime.HashFaithfulness
import Kagenti.Operator.Webhook.Idempotence

/-!
What the hash of the configuration says about the webhook, which reads authbridge-config by its name
and its own settings from mounted files. How the files become settings is a parameter.
-/

namespace Kagenti.Operator.AgentRuntime

open Go Webhook

/-! A webhook in a cluster -/

structure Binary where
  sha256 : Bytes → Bytes
  yaml : String → Option Json
  envoyTemplate : EnvoyTemplateData → Except String String
  -- `ClusterDefaultsNamespace`
  clusterDefaultsNamespace : String
  -- from the text of config.yaml and of feature-gates.yaml, if there is one
  loadPlatformConfig : Option String → PlatformConfig
  loadFeatureGates : Option String → FeatureGates

structure ClusterState where
  reader : Reader
  createServiceAccount : String → String → Except CreateError Unit
  getServiceAccount : String → String → Except String Unit
  apply : AgentConfigMap → Except String Unit

namespace Binary

variable (b : Binary) (s : ClusterState)

def file (configMap key : String) : Option String :=
  (readConfigMapData s.reader b.clusterDefaultsNamespace configMap).lookup key

def webhook : AuthBridgeWebhook where
  mutator := {
    yaml := b.yaml
    envoyTemplate := b.envoyTemplate
    platformConfig := b.loadPlatformConfig (b.file s clusterDefaultsConfigMapName "config.yaml")
    featureGates :=
      b.loadFeatureGates (b.file s clusterFeatureGatesConfigMapName "feature-gates.yaml")
    apiReader := s.reader
    createServiceAccount := s.createServiceAccount
    getServiceAccount := s.getServiceAccount
    apply := s.apply }
  sha256 := b.sha256

def configHash (ns : String) : String :=
  (computeConfigHash b.sha256 b.clusterDefaultsNamespace s.reader ns).hash

end Binary

/-! Settings -/

def authbridgeKeys : List String :=
  ["KEYCLOAK_URL", "KEYCLOAK_REALM", "TOKEN_URL", "ISSUER", "EXPECTED_AUDIENCE",
    "TARGET_AUDIENCE", "TARGET_SCOPES", "DEFAULT_OUTBOUND_POLICY", "CLIENT_AUTH_TYPE",
    "JWT_AUDIENCE"]

theorem namespaceConfig_congr {data data' runtime runtime' : StringMap}
    (settings : ∀ key ∈ authbridgeKeys, data.value key = data'.value key)
    (config : runtime.value "config.yaml" = runtime'.value "config.yaml") :
    namespaceConfig data runtime = namespaceConfig data' runtime' := by
  simp only [authbridgeKeys, List.forall_mem_cons] at settings
  obtain ⟨url, realm, token, issuer, expected, target, scopes, policy, auth, jwt, -⟩ := settings
  simp only [namespaceConfig, url, realm, token, issuer, expected, target, scopes, policy, auth,
    jwt, config]

structure Covered (b : Binary) (s : ClusterState) (ns : String) : Prop where
  defaults : (readNamespaceDefaults s.reader ns).1.Agrees
    (readConfigMapData s.reader ns authBridgeConfigMapName)
  settings : ∀ key ∈ authbridgeKeys, b.file s clusterDefaultsConfigMapName key = none
  platform : (readConfigMapData s.reader ns authBridgeConfigMapName).lookup "config.yaml" = none

section Settings

variable {b : Binary} {s s' : ClusterState} {ns : String}

theorem lookup_defaults (covered : Covered b s ns) (key : String) :
    (resolveConfig b.clusterDefaultsNamespace s.reader ns).1.defaults.lookup key =
      ((readConfigMapData s.reader ns authBridgeConfigMapName).lookup key).or
        (b.file s clusterDefaultsConfigMapName key) := by
  rw [← covered.defaults key]
  exact lookup_mergeMaps _ _ key

theorem settings_of_agrees (covered : Covered b s ns) (covered' : Covered b s' ns)
    (agrees : (resolveConfig b.clusterDefaultsNamespace s.reader ns).1.Agrees
      (resolveConfig b.clusterDefaultsNamespace s'.reader ns).1) :
    (b.webhook s).mutator.platformConfig = (b.webhook s').mutator.platformConfig ∧
      (b.webhook s).mutator.featureGates = (b.webhook s').mutator.featureGates ∧
      readNamespaceConfig s.reader ns = readNamespaceConfig s'.reader ns := by
  refine ⟨congrArg b.loadPlatformConfig ?_, congrArg b.loadFeatureGates ?_, ?_⟩
  · have same := agrees.defaults "config.yaml"
    rwa [lookup_defaults covered, lookup_defaults covered', covered.platform, covered'.platform,
      Option.none_or, Option.none_or] at same
  · exact agrees.featureGates "feature-gates.yaml"
  · refine namespaceConfig_congr (fun key hkey => ?_) agrees.authBridgeRuntime
    have same := agrees.defaults key
    rw [lookup_defaults covered, lookup_defaults covered', covered.settings key hkey,
      covered'.settings key hkey, Option.or_none, Option.or_none] at same
    exact congrArg (Option.getD · "") same

end Settings

/-! Responses -/

theorem injectAuthBridge_reader (m : PodMutator) (c : Reader) {ns crName : String}
    {labels : Option StringMap} {annotations : StringMap} {spec : PodSpec}
    (same : readNamespaceConfig m.apiReader ns = readNamespaceConfig c ns) :
    ({ m with apiReader := c } : PodMutator).injectAuthBridge ns crName labels annotations spec =
      m.injectAuthBridge ns crName labels annotations spec := by
  unfold PodMutator.injectAuthBridge PodMutator.call PodMutator.posture
  rw [same]
  rfl

def accepting (w : AuthBridgeWebhook) : AuthBridgeWebhook :=
  { w with mutator := { w.mutator with
    createServiceAccount := fun _ _ => .ok ()
    getServiceAccount := fun _ _ => .ok ()
    apply := fun _ => .ok () } }

theorem handle_accepting {w : AuthBridgeWebhook} {req : Request} {pod : Pod}
    (ok : (w.handle req).output req.pod = some pod) :
    (accepting w).handle req = w.handle req :=
  AuthBridgeWebhook.handle_of_reinvoked rfl ⟨rfl, fun _ _ _ => rfl, fun _ _ => rfl⟩ ok

theorem handle_reader (w : AuthBridgeWebhook) (c : Reader) {req : Request}
    (same : readNamespaceConfig w.mutator.apiReader req.ns = readNamespaceConfig c req.ns) :
    ({ w with mutator := { w.mutator with apiReader := c } } : AuthBridgeWebhook).handle req =
      w.handle req := by
  unfold AuthBridgeWebhook.handle
  dsimp only
  rw [injectAuthBridge_reader w.mutator c same]
  rfl

section Completeness

variable {b : Binary} {s s' : ClusterState} {req : Request}

theorem response_of_agrees (covered : Covered b s req.ns) (covered' : Covered b s' req.ns)
    (agrees : (resolveConfig b.clusterDefaultsNamespace s.reader req.ns).1.Agrees
      (resolveConfig b.clusterDefaultsNamespace s'.reader req.ns).1)
    (ok : ((b.webhook s).handle req).output req.pod ≠ none)
    (ok' : ((b.webhook s').handle req).output req.pod ≠ none) :
    (b.webhook s).handle req = (b.webhook s').handle req := by
  obtain ⟨pod, ok⟩ := Option.ne_none_iff_exists'.mp ok
  obtain ⟨pod', ok'⟩ := Option.ne_none_iff_exists'.mp ok'
  obtain ⟨platform, gates, settings⟩ := settings_of_agrees covered covered' agrees
  have other : accepting (b.webhook s') = { accepting (b.webhook s) with
      mutator := { (accepting (b.webhook s)).mutator with apiReader := s'.reader } } := by
    have platform : b.loadPlatformConfig (b.file s clusterDefaultsConfigMapName "config.yaml") =
        b.loadPlatformConfig (b.file s' clusterDefaultsConfigMapName "config.yaml") := platform
    have gates : b.loadFeatureGates
        (b.file s clusterFeatureGatesConfigMapName "feature-gates.yaml") =
          b.loadFeatureGates
            (b.file s' clusterFeatureGatesConfigMapName "feature-gates.yaml") := gates
    simp only [accepting, Binary.webhook, platform, gates]
  rw [← handle_accepting ok, ← handle_accepting ok', other]
  exact (handle_reader (accepting (b.webhook s)) s'.reader settings).symm

/-- A webhook that answers a request differently goes with another hash. -/
theorem configHash_ne_of_response_ne
    (collisionFree : b.sha256 (hashedBytes b.clusterDefaultsNamespace s.reader req.ns) =
        b.sha256 (hashedBytes b.clusterDefaultsNamespace s'.reader req.ns) →
      hashedBytes b.clusterDefaultsNamespace s.reader req.ns =
        hashedBytes b.clusterDefaultsNamespace s'.reader req.ns)
    (covered : Covered b s req.ns) (covered' : Covered b s' req.ns)
    (ok : ((b.webhook s).handle req).output req.pod ≠ none)
    (ok' : ((b.webhook s').handle req).output req.pod ≠ none)
    (differs : (b.webhook s).handle req ≠ (b.webhook s').handle req) :
    b.configHash s req.ns ≠ b.configHash s' req.ns := by
  intro same
  refine differs (response_of_agrees covered covered' ?_ ok ok')
  exact (computeConfigHash_eq_iff b.sha256 b.clusterDefaultsNamespace collisionFree).mp same

end Completeness

def resolvingBinary : Binary where
  sha256 := id
  yaml _ := none
  envoyTemplate _ := .ok ""
  clusterDefaultsNamespace := "kagenti-system"
  loadPlatformConfig _ := compiledDefaults
  loadFeatureGates _ := { defaultFeatureGates with perWorkloadConfigResolution := true }

def withKeycloakURL (labels : StringMap) (url : String) : ClusterState where
  reader := exactReader ((∅ : ConfigMaps).insert ("team", authBridgeConfigMapName)
    ⟨labels, some ((∅ : StringMap).insert "KEYCLOAK_URL" url)⟩)
  createServiceAccount _ _ := .ok ()
  getServiceAccount _ _ := .ok ()
  apply _ := .ok ()

theorem withKeycloakURL_covered (url : String) :
    Covered resolvingBinary
      (withKeycloakURL ((∅ : StringMap).insert labelNamespaceDefaults "true") url) "team" := by
  exact ⟨fun _ => rfl, fun _ _ => rfl, rfl⟩

def envoyCreation : Request :=
  let req := Request.ofStatefulSet [.agent "agent" []] [] []
  { req with pod := { req.pod with
    annotations := (∅ : StringMap).insert annotationAuthBridgeMode "envoy-sidecar" } }

def envoyResponse (labels : StringMap) (url : String) : Response :=
  (resolvingBinary.webhook (withKeycloakURL labels url)).handle envoyCreation

def hasValue (value : String) (pod : Pod) : Bool :=
  pod.spec.containers.any fun c => c.env.any fun e => e.value = value

/-- Another Keycloak in authbridge-config, with the label. -/
theorem configHash_ne_labelled :
    let labels := (∅ : StringMap).insert labelNamespaceDefaults "true"
    resolvingBinary.configHash (withKeycloakURL labels "http://a") "team" ≠
      resolvingBinary.configHash (withKeycloakURL labels "http://b") "team" := by
  intro labels
  have ok : ∀ url ∈ ["http://a", "http://b"],
      ((envoyResponse labels url).output envoyCreation.pod).isSome = true := by decide +kernel
  have written : (envoyResponse labels "http://a").patches (hasValue "http://a") = true ∧
      (envoyResponse labels "http://b").patches (hasValue "http://a") = false := by decide +kernel
  have differs : envoyResponse labels "http://a" ≠ envoyResponse labels "http://b" := by
    intro same
    rw [same, written.2] at written
    exact absurd written.1 Bool.false_ne_true
  exact @configHash_ne_of_response_ne resolvingBinary (withKeycloakURL labels "http://a")
    (withKeycloakURL labels "http://b") envoyCreation id (withKeycloakURL_covered _)
    (withKeycloakURL_covered _) (Option.isSome_iff_ne_none.mp (ok _ (by simp)))
    (Option.isSome_iff_ne_none.mp (ok _ (by simp))) differs

/-- Without the label, the webhook gives the sidecar another Keycloak and the hash stays the
same. -/
theorem unlabelled_settings_unhashed :
    (envoyResponse ∅ "http://a").patches (hasValue "http://a") = true ∧
      (envoyResponse ∅ "http://b").patches (hasValue "http://b") = true ∧
      (envoyResponse ∅ "http://b").patches (hasValue "http://a") = false ∧
      resolvingBinary.configHash (withKeycloakURL ∅ "http://a") "team" =
        resolvingBinary.configHash (withKeycloakURL ∅ "http://b") "team" := by
  refine ⟨?_, ?_, ?_, rfl⟩
  · decide +kernel
  · decide +kernel
  · decide +kernel

end Kagenti.Operator.AgentRuntime
