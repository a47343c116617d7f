import Kagenti.Lib.Outcome
import Kagenti.Operator.Webhook.Handler

/-!
When the handler patches a pod, and what the patched pod is.
-/

namespace Kagenti.Operator.Webhook

open Go AgentRuntime Lib.Outcome Lib.Keyed

namespace PodMutator

variable {m : PodMutator} {p : Posture} {nsConfig : NamespaceConfig} {ns crName : String}
  {labels : Option StringMap} {annotations : StringMap} {spec spec' : PodSpec} {i : Injection}

/-- What `i` is in proxy-sidecar mode. -/
def ProxyInjected (m : PodMutator) (ns crName : String) (annotations : StringMap) (spec : PodSpec)
    (p : Posture) (nsConfig : NamespaceConfig) (i : Injection) : Prop :=
  ∃ ports cm, choosePorts spec.containers = .ok ports ∧
    m.ensurePerAgentConfigMap ns crName nsConfig (proxyOverrides p ports) = .ok cm ∧
    ⟨placeProxySidecar (m.builder nsConfig) p annotations (m.proxyVolumes p cm.name) crName
      ports spec, [cm]⟩ = i

def EnvoyInjected (m : PodMutator) (ns crName : String) (annotations : StringMap) (spec : PodSpec)
    (p : Posture) (nsConfig : NamespaceConfig) (i : Injection) : Prop :=
  ∃ cm envoyCM, m.ensurePerAgentConfigMap ns crName nsConfig (envoyOverrides p) = .ok cm ∧
    m.ensurePerAgentEnvoyConfigMap ns crName p.mtlsMode = .ok envoyCM ∧
    ⟨placeEnvoySidecar (m.builder nsConfig) p annotations
      (m.envoyVolumes p cm.name envoyCM.name) spec, [cm, envoyCM]⟩ = i

section

variable {writes : List Write} (account : writes.filterMap Write.configMap? = [])

include account

theorem outcome_injectProxySidecar :
    (m.injectProxySidecar ns crName annotations spec p nsConfig writes).outcome = .ok (some i) ↔
      m.ProxyInjected ns crName annotations spec p nsConfig i := by
  unfold injectProxySidecar ProxyInjected
  cases choosePorts spec.containers with
  | error e => simp [Returned.outcome, Except.map]
  | ok ports =>
    cases applied : m.ensurePerAgentConfigMap ns crName nsConfig (proxyOverrides p ports) <;>
      simp [Returned.outcome, Except.map, account, Write.configMap?, applied]

theorem outcome_injectEnvoySidecar :
    (m.injectEnvoySidecar ns crName annotations spec p nsConfig writes).outcome = .ok (some i) ↔
      m.EnvoyInjected ns crName annotations spec p nsConfig i := by
  unfold injectEnvoySidecar EnvoyInjected
  cases m.ensurePerAgentConfigMap ns crName nsConfig (envoyOverrides p) with
  | error e => simp [Returned.outcome, Except.map]
  | ok cm =>
    cases m.ensurePerAgentEnvoyConfigMap ns crName p.mtlsMode <;>
      simp [Returned.outcome, Except.map, account, Write.configMap?]

end

theorem outcome_injectProxySidecar_ne_none {writes : List Write} :
    (m.injectProxySidecar ns crName annotations spec p nsConfig writes).outcome ≠ .ok none := by
  unfold injectProxySidecar
  split
  · simp [Returned.outcome, Except.map]
  · split <;> simp [Returned.outcome, Except.map]

theorem outcome_injectEnvoySidecar_ne_none {writes : List Write} :
    (m.injectEnvoySidecar ns crName annotations spec p nsConfig writes).outcome ≠ .ok none := by
  unfold injectEnvoySidecar
  split
  · simp [Returned.outcome, Except.map]
  · split <;> simp [Returned.outcome, Except.map]

theorem dedicateServiceAccount_eq_ok {context : String} :
    m.dedicateServiceAccount context ns crName spec = .ok spec' ↔
      if spec.serviceAccountName = "" ∨ spec.serviceAccountName = "default" then
        m.ensureServiceAccount ns crName = .ok () ∧
          { spec with serviceAccountName := crName } = spec'
      else spec = spec' := by
  unfold dedicateServiceAccount
  split
  · simp only [bind_eq_ok, mapError_eq_ok, pure_eq_ok]
    exact ⟨fun ⟨_, created, eq⟩ => ⟨created, eq⟩, fun ⟨created, eq⟩ => ⟨(), created, eq⟩⟩
  · exact pure_eq_ok

theorem settleServiceAccount_eq_ok :
    m.settleServiceAccount p ns crName spec = .ok spec' ↔
      if p.spireEnabled = true ∧
          (spec.serviceAccountName = "" ∨ spec.serviceAccountName = "default") then
        m.ensureServiceAccount ns crName = .ok () ∧
          { spec with serviceAccountName := crName } = spec'
      else spec = spec' := by
  unfold settleServiceAccount Posture.spireEnabled
  cases hspiffe : p.decision.spiffeHelper with
  | true => simp [dedicateServiceAccount_eq_ok]
  | false =>
    by_cases hmtls : p.mtlsMode = .disabled
    · simp [hmtls, pure_eq_ok]
    · simp [hmtls, dedicateServiceAccount_eq_ok]

theorem settleServiceAccount_spec (h : m.settleServiceAccount p ns crName spec = .ok spec') :
    { spec with serviceAccountName := spec'.serviceAccountName } = spec' := by
  rw [settleServiceAccount_eq_ok] at h
  split at h
  · rw [← h.2]
  · rw [← h]

theorem filterMap_accountWrites :
    (m.accountWrites ns crName spec p).filterMap Write.configMap? = [] := by
  unfold accountWrites
  split <;> rfl

theorem injectAuthBridge_eq_some :
    m.injectAuthBridge ns crName labels annotations spec = .ok (some i) ↔
      injectable m.featureGates labels = true ∧
        ∃ settled, m.settleServiceAccount (m.posture ns labels annotations) ns crName spec =
            .ok settled ∧
          (((m.posture ns labels annotations).mode = .proxySidecar ∨
                (m.posture ns labels annotations).mode = .lite) ∧
              m.ProxyInjected ns crName annotations settled (m.posture ns labels annotations)
                (readNamespaceConfig m.apiReader ns) i ∨
            (m.posture ns labels annotations).mode = .envoySidecar ∧
              m.EnvoyInjected ns crName annotations settled (m.posture ns labels annotations)
                (readNamespaceConfig m.apiReader ns) i) := by
  have account := @filterMap_accountWrites m (m.posture ns labels annotations) ns crName spec
  unfold injectAuthBridge call
  split
  next on =>
    simp only [on, true_and]
    cases m.settleServiceAccount (m.posture ns labels annotations) ns crName spec with
    | error e => simp [Returned.outcome, Except.map]
    | ok settled =>
      simp only [Except.ok.injEq, exists_eq_left', ← outcome_injectProxySidecar account,
        ← outcome_injectEnvoySidecar account]
      cases (m.posture ns labels annotations).mode <;> simp [Returned.outcome, Except.map]
  next off => simp [Returned.outcome, Except.map, off]

theorem injectAuthBridge_eq_none :
    m.injectAuthBridge ns crName labels annotations spec = .ok none ↔
      (injectable m.featureGates labels = true →
        (m.posture ns labels annotations).mode = .waypoint ∧
          ∃ settled, m.settleServiceAccount (m.posture ns labels annotations) ns crName spec =
            .ok settled) := by
  unfold injectAuthBridge call
  split
  next on =>
    simp only [on, forall_const]
    cases m.settleServiceAccount (m.posture ns labels annotations) ns crName spec with
    | error e => simp [Returned.outcome, Except.map]
    | ok settled =>
      grind [Returned.outcome, Except.map, outcome_injectProxySidecar_ne_none,
        outcome_injectEnvoySidecar_ne_none]
  next off => simp [Returned.outcome, Except.map, off]

end PodMutator

namespace AuthBridgeWebhook

variable {w : AuthBridgeWebhook} {req : Request} {pod : Pod} {cms : List AgentConfigMap}

/-- The annotations of the pod as the handler goes on with them. -/
def annotations (w : AuthBridgeWebhook) (req : Request) : StringMap :=
  w.prepopulate req.ns (deriveWorkloadName req.pod) req.pod

def posture (w : AuthBridgeWebhook) (req : Request) : Posture :=
  w.mutator.posture req.ns req.pod.labels (w.annotations req)

theorem handle_of_pod (hpod : req.kind = "Pod" ∧ req.group = "") :
    w.handle req =
      if isAlreadyInjected req.pod.spec then
        if needsKeycloakClientCredentialsVolumePatch req.pod.spec (w.annotations req) then
          .patched { req.pod with
            annotations := w.annotations req
            spec := applyKeycloakClientCredentialsSecretVolumes (w.annotations req)
              req.pod.spec } []
        else .allowed "already injected"
      else
        match w.mutator.injectAuthBridge req.ns (deriveWorkloadName req.pod) req.pod.labels
            (w.annotations req) req.pod.spec with
        | .error e => .errored 500 e
        | .ok none => .allowed "injection not enabled"
        | .ok (some i) =>
          .patched { req.pod with annotations := w.annotations req, spec := i.spec }
            i.configMaps := by
  have : ¬ (req.kind ≠ "Pod" ∨ req.group ≠ "") := by simpa [not_or] using hpod
  exact if_neg this

theorem pod_of_handle (h : w.handle req = .patched pod cms) :
    req.kind = "Pod" ∧ req.group = "" := by
  by_contra hpod
  have : req.kind ≠ "Pod" ∨ req.group ≠ "" := by rwa [not_and_or] at hpod
  unfold handle at h
  rw [if_pos this] at h
  cases h

theorem handle_eq_patched :
    w.handle req = .patched pod cms ↔
      (req.kind = "Pod" ∧ req.group = "") ∧
        { req.pod with annotations := w.annotations req, spec := pod.spec } = pod ∧
        (isAlreadyInjected req.pod.spec = true ∧
            needsKeycloakClientCredentialsVolumePatch req.pod.spec (w.annotations req) = true ∧
            applyKeycloakClientCredentialsSecretVolumes (w.annotations req) req.pod.spec =
              pod.spec ∧ [] = cms ∨
          isAlreadyInjected req.pod.spec = false ∧
            w.mutator.injectAuthBridge req.ns (deriveWorkloadName req.pod) req.pod.labels
              (w.annotations req) req.pod.spec = .ok (some ⟨pod.spec, cms⟩)) := by
  constructor
  · intro h
    have hpod := pod_of_handle h
    refine ⟨hpod, ?_⟩
    rw [handle_of_pod hpod] at h
    generalize w.annotations req = annotations at h ⊢
    generalize applyKeycloakClientCredentialsSecretVolumes annotations req.pod.spec = applied at h ⊢
    cases injected : isAlreadyInjected req.pod.spec with
    | true => grind
    | false =>
      rw [injected, if_neg Bool.false_ne_true] at h
      split at h
      · cases h
      · cases h
      · next i injection =>
        cases h
        exact ⟨rfl, .inr ⟨rfl, injection⟩⟩
  · grind [handle_of_pod]

end AuthBridgeWebhook

end Kagenti.Operator.Webhook
