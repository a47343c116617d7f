import Kagenti.Operator.ClientRegistration.Controller
import Kagenti.Operator.Webhook.Idempotence
import Kagenti.Operator.Webhook.Owner

/-!
Where the client registration controller and the webhook meet: the Secret of a workload and the
Secret that its pods mount, and the client id in it and the identity of the pods.
-/

namespace Kagenti.Operator.ClientRegistration

open Go AgentRuntime Webhook
open Keycloak (resolveKeycloakClientID isDNS1123Subdomain)

/-! Names -/

theorem hexChar_not_space : ∀ n < 16, isUnicodeSpace (hexChar n) = false := by decide

variable {c : Char}

theorem hexEncode_not_space {b : Bytes} (h : c ∈ (hexEncode b).toList) :
    isUnicodeSpace c = false := by
  rw [hexEncode, String.toList_ofList, List.mem_flatMap] at h
  obtain ⟨x, -, hc⟩ := h
  have bound := x.toNat_lt
  simp only [List.mem_cons, List.not_mem_nil, or_false] at hc
  rcases hc with rfl | rfl
  · exact hexChar_not_space _ (by omega)
  · exact hexChar_not_space _ (by omega)

theorem trimSpace_credentialsName (sha256 : Bytes → Bytes) (ns workload : String) :
    trimSpace (keycloakClientCredentialsSecretName sha256 ns workload) =
      keycloakClientCredentialsSecretName sha256 ns workload := by
  refine trimSpace_of_forall fun c hc => ?_
  unfold keycloakClientCredentialsSecretName at hc
  rw [String.toList_append, List.mem_append] at hc
  rcases hc with hc | hc
  · have plain : ("kagenti-keycloak-client-credentials-".toList.all fun c =>
        !isUnicodeSpace c) = true := by decide
    simpa using List.all_eq_true.mp plain c hc
  · exact hexEncode_not_space hc

theorem isUnicodeSpace_of_name (h : (c.isLower || c.isDigit || c = '-' || c = '.') = true) :
    isUnicodeSpace c = false := by
  delta Char.isLower Char.isDigit at h
  simp only [Bool.or_eq_true, decide_eq_true_eq, or_assoc, Bool.and_eq_true, ge_iff_le,
    UInt32.le_iff_toNat_le] at h
  rcases h with ⟨low, high⟩ | ⟨low, high⟩ | rfl | rfl
  · have low : 97 ≤ c.toNat := low
    have high : c.toNat ≤ 122 := high
    simp only [isUnicodeSpace, decide_eq_false_iff_not]
    omega
  · have low : 48 ≤ c.toNat := low
    have high : c.toNat ≤ 57 := high
    simp only [isUnicodeSpace, decide_eq_false_iff_not]
    omega
  · decide
  · decide

theorem trimSpace_name {s : String} (h : s = "" ∨ isDNS1123Subdomain s = true) :
    trimSpace s = s := by
  rcases h with rfl | valid
  · rfl
  · exact trimSpace_of_forall fun c hc =>
      isUnicodeSpace_of_name (Keycloak.isDNS1123Subdomain_char valid hc)

/-! Workloads and their pods -/

inductive Kind where
  | deployment
  | statefulSet
  | sandbox
  deriving DecidableEq

structure Deployed where
  kind : Kind
  workload : Keycloak.Workload
  template : Template
  account_valid : template.serviceAccountName = "" ∨
    isDNS1123Subdomain template.serviceAccountName = true

def controllerOf (pod : Pod) : Option OwnerReference :=
  pod.ownerReferences.find? fun ref => ref.controller = some true

namespace Deployed

variable (d : Deployed)

def Owns (pod : Pod) : Prop :=
  match d.kind with
  | .deployment => ∃ hash, hash ≠ "" ∧ labelValue pod.labels podTemplateHashLabel = hash ∧
      controllerOf pod = some ⟨"ReplicaSet", d.workload.workloadName ++ "-" ++ hash, some true⟩
  | .statefulSet => controllerOf pod = some ⟨"StatefulSet", d.workload.workloadName, some true⟩
  | .sandbox => controllerOf pod = some ⟨"Sandbox", d.workload.workloadName, some true⟩

structure Creates (req : Request) : Prop where
  pod : req.kind = "Pod" ∧ req.group = ""
  ns : req.ns = d.workload.ns
  owner : d.Owns req.pod
  labels : ∀ key, "kagenti.io/".toList <+: key.toList →
    labelValue req.pod.labels key = labelValue d.template.labels key
  annotations : req.pod.annotations = d.template.annotations
  account : req.pod.spec.serviceAccountName = d.template.serviceAccountName ∨
    d.template.serviceAccountName = "" ∧ req.pod.spec.serviceAccountName = "default"

end Deployed

variable {labels : Option StringMap}

theorem workloadName_ne_empty (w : Keycloak.Workload) : w.workloadName ≠ "" := by
  intro empty
  have valid := w.workloadName_valid
  rw [empty] at valid
  exact absurd valid (by decide)

variable {d : Deployed}

theorem Deployed.deriveWorkloadName_of_owns {pod : Pod} (h : d.Owns pod) :
    deriveWorkloadName pod = d.workload.workloadName := by
  have named {info : OwnerInfo} (name : info.name = d.workload.workloadName)
      (found : pod.ownerReferences.findSome? (ownerOfReference pod.labels) = some info) :
      deriveWorkloadName pod = d.workload.workloadName := by
    unfold deriveWorkloadName resolveOwner
    rw [found, Option.getD_some]
    dsimp only
    rw [name, if_pos (workloadName_ne_empty d.workload)]
  unfold Owns at h
  split at h
  · obtain ⟨hash, some, label, controller⟩ := h
    have replicaSet : ownerOfReference pod.labels
        ⟨"ReplicaSet", d.workload.workloadName ++ "-" ++ hash, .some true⟩ =
          .some ⟨d.workload.workloadName, "Deployment"⟩ := by
      have named := workloadName_ne_empty d.workload
      have cut := (deploymentName_eq_iff named).mpr ⟨by rwa [label], congrArg _ label.symm⟩
      simp [ownerOfReference, cut, named]
    exact named rfl (findSome_of_controller controller replicaSet)
  · exact named rfl (findSome_of_controller h rfl)
  · exact named rfl (findSome_of_controller h rfl)

variable {injectTools : Bool}

theorem wants_iff : workloadWantsOperatorClientReg labels injectTools = true ↔
      labelValue labels labelAgentType = "agent" ∨
        labelValue labels labelAgentType = "tool" ∧ injectTools = true := by
  unfold workloadWantsOperatorClientReg skipReason
  cases labels with
  | none => simp [labelValue, StringMap.value]
  | some labels =>
    simp only [labelValue, Option.getD_some]
    split
    · simp [*]
    · split
      · cases injectTools <;> simp [*]
      · split
        · simp [*]
        · simp [*]

theorem Deployed.Creates.wants {req : Request} (h : d.Creates req)
    (eligible : workloadWantsOperatorClientReg d.template.labels injectTools = true) :
    workloadWantsOperatorClientReg req.pod.labels injectTools = true := by
  rw [wants_iff] at eligible ⊢
  rwa [h.labels labelAgentType (by decide)]

/-! The runs of the controller -/

section Runs

variable {r : Reconciler} {answers : Answers} {injectTools : Bool} {ns name clientID : String}
  {template : Template}

theorem register_clientID (ab : AuthbridgeConfig) (token : String) :
    (∀ p ∈ (r.register answers ab token ns name clientID).registered, p.clientID = clientID) ∧
      ∀ s ∈ (r.register answers ab token ns name clientID).secrets,
        s.ns = ns ∧ s.name = keycloakClientCredentialsSecretName r.sha256 ns name ∧
          s.clientID = clientID := by
  fun_cases Reconciler.register r answers ab token ns name clientID <;>
    simp +zetaDelta [Reconciler.params]

theorem register_written {ab : AuthbridgeConfig} {token : String}
    (clients : ∀ url token p, ∃ client, answers.registerOrFetchClient url token p = .ok client)
    (secrets : ∀ s, answers.createOrUpdateSecret s = .ok ()) :
    (r.register answers ab token ns name clientID).secrets ≠ [] := by
  unfold Reconciler.register
  dsimp only
  obtain ⟨client, registered⟩ := clients ab.keycloakURL token
    (Reconciler.params ab ns name clientID)
  rw [registered]
  dsimp only
  rw [secrets]
  dsimp only
  split
  · simp
  · simp

theorem reconcileOne_of_error {e : String}
    (h : resolveKeycloakClientID ns name template.serviceAccountName (r.spireTrustDomain ≠ "")
      r.spireTrustDomain = .error e) :
    (r.reconcileOne answers injectTools ns name template).registered = [] ∧
      (r.reconcileOne answers injectTools ns name template).secrets = [] := by
  fun_cases Reconciler.reconcileOne r answers injectTools ns name template <;> simp_all [Run.stop]

theorem reconcileOne_clientID
    (h : resolveKeycloakClientID ns name template.serviceAccountName (r.spireTrustDomain ≠ "")
      r.spireTrustDomain = .ok clientID) :
    (∀ p ∈ (r.reconcileOne answers injectTools ns name template).registered,
        p.clientID = clientID) ∧
      ∀ s ∈ (r.reconcileOne answers injectTools ns name template).secrets,
        s.ns = ns ∧ s.name = keycloakClientCredentialsSecretName r.sha256 ns name ∧
          s.clientID = clientID := by
  fun_cases Reconciler.reconcileOne r answers injectTools ns name template with
  | case6 _ _ _ _ _ resolved =>
    cases resolved.symm.trans h
    exact register_clientID _ _
  | _ => exact ⟨List.forall_mem_nil _, List.forall_mem_nil _⟩

end Runs

/-! Agreement -/

structure Answers.InStep (answers : Answers) (r : Reconciler) (d : Deployed) (injectTools : Bool) :
    Prop where
  gates : readClusterFeatureGates r.yaml answers.featureGates = .ok ⟨true, true, injectTools⟩
  found : Reconciler.findWorkload answers d.workload.ns d.workload.workloadName = .ok d.template

structure Answers.Healthy (answers : Answers) (r : Reconciler) (ns : String) : Prop where
  config : ∃ ab token, readAuthbridgeConfigMap (answers.authbridgeConfig ns) = .ok ab ∧
    (ab.keycloakURL ≠ "" ∧ ab.keycloakRealm ≠ "") ∧ r.authenticate answers ab = .ok token
  clients : ∀ url token p, ∃ client, answers.registerOrFetchClient url token p = .ok client
  secrets : ∀ s, answers.createOrUpdateSecret s = .ok ()

def spiffeID (trustDomain ns serviceAccount : String) : String :=
  "spiffe://" ++ trustDomain ++ "/ns/" ++ ns ++ "/sa/" ++ serviceAccount

def runsAs (pod : Pod) : String :=
  if pod.spec.serviceAccountName = "" then "default" else pod.spec.serviceAccountName

namespace Reconciler

def identity (r : Reconciler) (d : Deployed) (pod : Pod) : String :=
  if r.spireTrustDomain = "" then d.workload.ns ++ "/" ++ d.workload.workloadName
  else spiffeID r.spireTrustDomain d.workload.ns (runsAs pod)

structure Agrees (r : Reconciler) (d : Deployed) (injectTools : Bool) (pod : Pod) : Prop where
  clients : ∀ answers : Answers, answers.InStep r d injectTools →
    ∀ p ∈ (r.reconcile answers d.workload.ns d.workload.workloadName).registered,
      p.clientID = r.identity d pod
  secrets : ∀ answers : Answers, answers.InStep r d injectTools →
    ∀ s ∈ (r.reconcile answers d.workload.ns d.workload.workloadName).secrets,
      s.ns = d.workload.ns ∧ s.clientID = r.identity d pod ∧
        s.name = credentialsSecretName pod.annotations ∧ Mounted s.name pod.spec
  written : ∀ answers : Answers, answers.InStep r d injectTools →
    answers.Healthy r d.workload.ns →
      (r.reconcile answers d.workload.ns d.workload.workloadName).secrets ≠ []

end Reconciler

section Agreement

variable {w : AuthBridgeWebhook} {r : Reconciler} {d : Deployed} {req : Request} {pod : Pod}
  {cms : List AgentConfigMap} {answers : Answers} {injectTools : Bool}

theorem reconcile_of_inStep (h : answers.InStep r d injectTools) :
    r.reconcile answers d.workload.ns d.workload.workloadName =
      r.reconcileOne answers injectTools d.workload.ns d.workload.workloadName d.template := by
  unfold Reconciler.reconcile
  rw [h.gates]
  rw [h.found]
  simp

theorem reconcileOne_written (eligible : workloadWantsOperatorClientReg d.template.labels
      injectTools = true) {clientID : String}
    (h : resolveKeycloakClientID d.workload.ns d.workload.workloadName
      d.template.serviceAccountName (r.spireTrustDomain ≠ "") r.spireTrustDomain = .ok clientID)
    (healthy : answers.Healthy r d.workload.ns) :
    (r.reconcileOne answers injectTools d.workload.ns d.workload.workloadName
      d.template).secrets ≠ [] := by
  obtain ⟨ab, token, config, ⟨url, realm⟩, authenticated⟩ := healthy.config
  have proceeds : ¬ skipReason d.template.labels injectTools ≠ "" := by
    simpa [workloadWantsOperatorClientReg] using eligible
  unfold Reconciler.reconcileOne
  rw [if_neg proceeds, config]
  dsimp only
  rw [if_neg (not_or.mpr ⟨url, realm⟩), h]
  rw [authenticated]
  exact register_written healthy.clients healthy.secrets

theorem credentialsSecretName_of_admitted (created : d.Creates req)
    (admitted : w.handle req = .patched pod cms)
    (eligible : workloadWantsOperatorClientReg d.template.labels
      w.mutator.featureGates.injectTools = true)
    (named : d.template.annotations.value annotationKeycloakClientSecretName = "" ∨
      credentialsSecretName d.template.annotations =
        keycloakClientCredentialsSecretName w.sha256 d.workload.ns d.workload.workloadName) :
    credentialsSecretName pod.annotations =
      keycloakClientCredentialsSecretName w.sha256 d.workload.ns d.workload.workloadName := by
  obtain ⟨-, same, -⟩ := AuthBridgeWebhook.handle_eq_patched.mp admitted
  have written : pod.annotations = w.annotations req := by rw [← same]
  rw [written, AuthBridgeWebhook.annotations, Deployed.deriveWorkloadName_of_owns created.owner,
    created.ns]
  unfold AuthBridgeWebhook.prepopulate
  rw [created.annotations]
  split
  · unfold credentialsSecretName
    simp only [StringMap.value, AList.lookup_insert, Option.getD_some]
    exact trimSpace_credentialsName _ _ _
  · next present =>
    exact named.resolve_left fun empty => present ⟨empty, created.wants eligible⟩

theorem resolve_of_dedicated
    (created : d.Creates req) (admitted : w.handle req = .patched pod cms)
    (dedicated : r.spireTrustDomain = "" ∨ d.template.serviceAccountName ∉ ["", "default"]) :
    resolveKeycloakClientID d.workload.ns d.workload.workloadName d.template.serviceAccountName
      (r.spireTrustDomain ≠ "") r.spireTrustDomain = .ok (r.identity d pod) := by
  unfold Reconciler.identity resolveKeycloakClientID
  by_cases off : r.spireTrustDomain = ""
  · simp [off]
  · have given := dedicated.resolve_left off
    have kept : req.pod.spec.serviceAccountName = d.template.serviceAccountName :=
      created.account.resolve_right fun missing => given (by simp [missing.1])
    have account : pod.spec.serviceAccountName = d.template.serviceAccountName := by
      rw [← kept] at given ⊢
      exact AuthBridgeWebhook.serviceAccountName_of_handle admitted given
    rw [List.mem_cons, List.mem_singleton, not_or] at given
    simp [off, trimSpace_name d.account_valid, given, runsAs, account, spiffeID]

theorem secrets_of_default_account (inStep : answers.InStep r d injectTools)
    (spire : r.spireTrustDomain ≠ "") (shared : d.template.serviceAccountName ∈ ["", "default"]) :
    (r.reconcile answers d.workload.ns d.workload.workloadName).secrets = [] := by
  rw [reconcile_of_inStep inStep]
  rw [List.mem_cons, List.mem_singleton] at shared
  have refused : ∃ e, resolveKeycloakClientID d.workload.ns d.workload.workloadName
      d.template.serviceAccountName (r.spireTrustDomain ≠ "") r.spireTrustDomain = .error e := by
    unfold resolveKeycloakClientID
    simp only [trimSpace_name d.account_valid]
    rcases shared with none | default
    · simp [none, spire]
    · simp [default, spire]
  obtain ⟨e, refused⟩ := refused
  exact (reconcileOne_of_error refused).2

/-- The controller and the webhook agree on every eligible workload that has a ServiceAccount of its
own, or that needs none. -/
theorem agrees_of_dedicated (created : d.Creates req) (admitted : w.handle req = .patched pod cms)
    (eligible : workloadWantsOperatorClientReg d.template.labels
      w.mutator.featureGates.injectTools = true)
    (digest : r.sha256 = w.sha256)
    (named : d.template.annotations.value annotationKeycloakClientSecretName = "" ∨
      credentialsSecretName d.template.annotations =
        keycloakClientCredentialsSecretName w.sha256 d.workload.ns d.workload.workloadName)
    (dedicated : r.spireTrustDomain = "" ∨ d.template.serviceAccountName ∉ ["", "default"]) :
    r.Agrees d w.mutator.featureGates.injectTools pod := by
  have clientID := resolve_of_dedicated created admitted dedicated
  have secretName := credentialsSecretName_of_admitted created admitted eligible named
  have mounted : Mounted (credentialsSecretName pod.annotations) pod.spec := by
    obtain ⟨-, same, -⟩ := AuthBridgeWebhook.handle_eq_patched.mp admitted
    have written : pod.annotations = w.annotations req := by rw [← same]
    have some : credentialsSecretName (w.annotations req) ≠ "" := by
      rw [← written, secretName]
      exact AuthBridgeWebhook.credentialsName_ne_empty _ _ _
    rw [written]
    exact AuthBridgeWebhook.mounted_of_handle admitted some
  constructor
  · intro answers inStep
    rw [reconcile_of_inStep inStep]
    exact (reconcileOne_clientID clientID).1
  · intro answers inStep s hs
    rw [reconcile_of_inStep inStep] at hs
    obtain ⟨ns, name, id⟩ := (reconcileOne_clientID clientID).2 s hs
    have same : s.name = credentialsSecretName pod.annotations := by rw [name, secretName, digest]
    exact ⟨ns, id, same, same ▸ mounted⟩
  · intro answers inStep healthy
    rw [reconcile_of_inStep inStep]
    exact reconcileOne_written eligible clientID healthy

def Deployed.agent (serviceAccountName : String)
    (valid : serviceAccountName = "" ∨ isDNS1123Subdomain serviceAccountName = true) :
    Deployed where
  kind := .statefulSet
  workload := ⟨"team", "agent", Keycloak.ClientRegistration.teamAB.ns_valid, by decide⟩
  template := ⟨some ((∅ : StringMap).insert labelAgentType "agent"), ∅, serviceAccountName⟩
  account_valid := valid

def creation (serviceAccountName : String) : Request :=
  let req := Request.ofStatefulSet [.agent "agent" []] [] []
  { req with pod := { req.pod with
    spec := { req.pod.spec with serviceAccountName := serviceAccountName } } }

theorem Deployed.agent_creates (serviceAccountName : String)
    (valid : serviceAccountName = "" ∨ isDNS1123Subdomain serviceAccountName = true) :
    (Deployed.agent serviceAccountName valid).Creates (creation serviceAccountName) :=
  ⟨⟨rfl, rfl⟩, rfl, rfl, fun _ _ => rfl, rfl, .inl rfl⟩

def Reconciler.withSpire : Reconciler where
  spireTrustDomain := "example.org"
  useSpiffeAuth := false
  jwtSVIDPath := ""
  operatorClientID := ""
  sha256 := AuthBridgeWebhook.inEmptyCluster.sha256
  yaml _ := none

/-- Answers without an error, with the StatefulSet of the template. -/
def Answers.working (template : Template) : Answers where
  featureGates := .error .notFound
  deployment _ _ := .error .notFound
  statefulSet _ _ := .ok template
  sandbox _ _ := .error .notFound
  authbridgeConfig _ := .ok ⟨∅, some (((∅ : StringMap).insert "KEYCLOAK_URL"
    "http://keycloak.example.org").insert "KEYCLOAK_REALM" "kagenti")⟩
  adminSecret := .ok ("admin", "admin")
  readFile _ := .ok ""
  jwtSVIDGrantToken _ _ _ _ := .ok ""
  passwordGrantToken _ _ _ := .ok ""
  registerOrFetchClient _ _ _ := .ok ("", "")
  createOrUpdateSecret _ := .ok ()
  patchTemplate _ := .ok ()

theorem Answers.working_inStep (serviceAccountName : String)
    (valid : serviceAccountName = "" ∨ isDNS1123Subdomain serviceAccountName = true) :
    (Answers.working (Deployed.agent serviceAccountName valid).template).InStep .withSpire
      (.agent serviceAccountName valid) false :=
  ⟨rfl, rfl⟩

theorem Answers.working_healthy (template : Template) (ns : String) :
    (Answers.working template).Healthy .withSpire ns :=
  ⟨⟨_, _, rfl, by decide, rfl⟩, fun _ _ _ => ⟨_, rfl⟩, fun _ => rfl⟩

/-- A workload with the ServiceAccount agent-sa. -/
theorem agrees_agent_sa : ∃ pod cms,
    AuthBridgeWebhook.inEmptyCluster.handle (creation "agent-sa") = .patched pod cms ∧
      Reconciler.withSpire.Agrees (.agent "agent-sa" (by decide)) false pod ∧
      (Reconciler.withSpire.reconcile
        (.working (Deployed.agent "agent-sa" (by decide)).template) "team" "agent").secrets ≠ [] := by
  obtain ⟨pod, cms, admitted, -⟩ : ∃ pod cms,
      AuthBridgeWebhook.inEmptyCluster.handle (creation "agent-sa") = .patched pod cms ∧ True := by
    decide +kernel
  have agrees : Reconciler.withSpire.Agrees (.agent "agent-sa" (by decide)) false pod :=
    agrees_of_dedicated (Deployed.agent_creates _ _) admitted (by decide) rfl (.inl (by decide))
      (.inr (by decide))
  exact ⟨pod, cms, admitted, agrees,
    agrees.written _ (Answers.working_inStep _ _) (Answers.working_healthy _ _)⟩

/-- A workload with the default ServiceAccount: its pods run as agent and must have a Secret that
the controller does not write, even though nothing fails. -/
theorem default_account_waits :
    let d := Deployed.agent "" (.inl rfl)
    let secretName := keycloakClientCredentialsSecretName
      AuthBridgeWebhook.inEmptyCluster.sha256 "team" "agent"
    (∃ pod cms, AuthBridgeWebhook.inEmptyCluster.handle (creation "") = .patched pod cms ∧
      pod.spec.serviceAccountName = "agent" ∧ credentialsVolume secretName ∈ pod.spec.volumes) ∧
    (∃ answers : Answers, answers.InStep .withSpire d false ∧ answers.Healthy .withSpire "team") ∧
    ∀ answers : Answers, answers.InStep .withSpire d false →
      (Reconciler.withSpire.reconcile answers "team" "agent").secrets = [] := by
  intro d secretName
  refine ⟨by decide +kernel, ⟨_, Answers.working_inStep _ _, Answers.working_healthy _ _⟩, ?_⟩
  intro answers inStep
  exact secrets_of_default_account inStep (by decide) (by decide)

end Agreement

end Kagenti.Operator.ClientRegistration
