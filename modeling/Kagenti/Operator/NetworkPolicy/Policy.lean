import Kagenti.Lib.Fallible
import Kagenti.Operator.AgentCards.Labels

/-!
The NetworkPolicy controller of AgentCards (`agentcard_networkpolicy_controller.go`). An access to
the API server is accepted or refused as a whole, with its retries. Logging is left out.
-/

namespace Kagenti.Operator.NetworkPolicy

open Go Lib AgentCards

/-! The policies -/

inductive PolicyType where
  | ingress
  | egress
  deriving DecidableEq

inductive Peer where
  | namespaceSelector (matchLabels : StringMap)
  | podSelector (matchLabels : StringMap)
  | ipBlock (cidr : String)

structure IngressRule where
  peers : List Peer

structure EgressRule where
  ports : List Int
  destinations : List Peer

structure PolicySpec where
  podSelector : StringMap
  policyTypes : List PolicyType
  ingress : List IngressRule
  egress : List EgressRule

structure Policy where
  labels : StringMap
  -- the card that is the controller of the policy
  owner : String
  spec : PolicySpec

abbrev Policies := AList fun _ : String × String => Policy

structure PolicyReconciler where
  enforceNetworkPolicies : Bool
  operatorNamespace : String
  kubeAPIServerCIDRs : List String
  clusterDefaultsNamespace : String

namespace PolicyReconciler

variable (r : PolicyReconciler)

def namespacePeer (ns : String) : Peer :=
  .namespaceSelector [⟨"kubernetes.io/metadata.name", ns⟩].toAList

def operatorIngressRule : IngressRule where
  peers := namespacePeer r.operatorNamespace ::
    if r.operatorNamespace ≠ r.clusterDefaultsNamespace then
      [namespacePeer r.clusterDefaultsNamespace]
    else []

/-- Without any CIDR there is no rule, which denies all egress. -/
def kubeAPIEgressRules : List EgressRule :=
  if r.kubeAPIServerCIDRs = [] then []
  else [⟨[6443], r.kubeAPIServerCIDRs.map .ipBlock⟩]

/-- `createPermissivePolicy`: ingress from verified pods too, and all egress. -/
def permissiveSpec (podSelectorLabels : StringMap) : PolicySpec where
  podSelector := podSelectorLabels
  policyTypes := [.ingress, .egress]
  ingress := [⟨r.operatorIngressRule.peers ++
    [.podSelector [⟨labelSignatureVerified, "true"⟩].toAList]⟩]
  egress := [⟨[], []⟩]

/-- `createRestrictivePolicy`. -/
def restrictiveSpec (podSelectorLabels : StringMap) : PolicySpec where
  podSelector := podSelectorLabels
  policyTypes := [.ingress, .egress]
  ingress := [r.operatorIngressRule]
  egress := r.kubeAPIEgressRules

/-- The spec that `manageNetworkPolicy` calls for. -/
def policySpec (status : AgentCardStatus) (podSelectorLabels : StringMap) : PolicySpec :=
  if status.isVerified then r.permissiveSpec podSelectorLabels
  else r.restrictiveSpec podSelectorLabels

end PolicyReconciler

def PolicySpec.isPermissive (spec : PolicySpec) : Bool :=
  spec.egress.any fun rule => rule.ports.isEmpty && rule.destinations.isEmpty

theorem isPermissive_policySpec (r : PolicyReconciler) (status : AgentCardStatus)
    (podSelectorLabels : StringMap) :
    (r.policySpec status podSelectorLabels).isPermissive = status.isVerified := by
  unfold PolicyReconciler.policySpec
  split_ifs with hverified
  · rw [hverified]
    rfl
  · rw [Bool.not_eq_true] at hverified
    rw [hverified]
    unfold PolicyReconciler.restrictiveSpec PolicyReconciler.kubeAPIEgressRules
    split_ifs <;> rfl

/-! The reconcile -/

inductive Access where
  | addFinalizer
  | removeFinalizer
  | getWorkload
  | getPolicy
  | putPolicy
  | deletePolicy
  deriving DecidableEq

/-- For each access the text of the error if it is refused. -/
structure Env where
  answer : Access → Option String

structure World where
  card : AgentCard
  workloads : Workloads
  policies : Policies

abbrev Op (α : Type) := Fallible String World α

def getCard : Op AgentCard := Fallible.access fun w => (.ok w.card, w)

def write (env : Env) (access : Access) (f : World → World) : Op Unit :=
  Fallible.access fun w =>
    match env.answer access with
    | some err => (.error err, w)
    | none => (.ok (), f w)

def read {α : Type} (env : Env) (access : Access) (f : World → Except String α) : Op α :=
  Fallible.access fun w =>
    match env.answer access with
    | some err => (.error err, w)
    | none => (f w, w)

def setFinalizers (env : Env) (access : Access) (f : List String → List String) : Op Unit :=
  write env access fun w => { w with card := { w.card with finalizers := f w.card.finalizers } }

def networkPolicyFinalizer : String := "agentcard.kagenti.dev/network-policy"

def policyName (workloadName : String) : String := workloadName ++ "-signature-policy"

def getPodTemplateLabels (env : Env) (ns : String) (ref : TargetRef) : Op StringMap :=
  match podKind ref.kind with
  | some kind =>
    read env .getWorkload fun w =>
      match w.workloads.lookup ⟨kind, ns, ref.name⟩ with
      | some workload => .ok workload.templateLabels
      | none => .error (ref.name ++ " not found")
  | none => return [⟨labelAgentType, labelValueAgent⟩, ⟨"app", ref.name⟩].toAList

def resolveWorkload (env : Env) (card : AgentCard) : Op (String × StringMap) := do
  match card.spec.targetRef with
  | none => throw "spec.targetRef is required: specify the workload backing this agent"
  | some ref =>
    let podLabels ← getPodTemplateLabels env card.ns ref
    return (ref.name, podLabels)

/-- `upsertNetworkPolicy`: the labels of a policy that is there stay as they are. -/
def upserted (card : AgentCard) (spec : PolicySpec) : Option Policy → Policy
  | none =>
    { labels := [⟨"managed-by", "kagenti-operator"⟩, ⟨"kagenti.dev/agentcard", card.name⟩,
        ⟨"kagenti.dev/policy-type", "identity-verification"⟩].toAList
      owner := card.name
      spec := spec }
  | some existing => { existing with owner := card.name, spec := spec }

def getPolicy (env : Env) (ns name : String) : Op (Option Policy) :=
  read env .getPolicy fun w => .ok (w.policies.lookup (ns, name))

def upsertNetworkPolicy (env : Env) (card : AgentCard) (name : String) (spec : PolicySpec) :
    Op Unit := do
  let existing ← getPolicy env card.ns name
  write env .putPolicy fun w =>
    { w with policies := w.policies.insert (card.ns, name) (upserted card spec existing) }

def manageNetworkPolicy (r : PolicyReconciler) (env : Env) (card : AgentCard) (workloadName : String)
    (podSelectorLabels : StringMap) : Op Unit :=
  upsertNetworkPolicy env card (policyName workloadName) (r.policySpec card.status podSelectorLabels)

/-- The name that `handleDeletion` finds the policy by. -/
def deletedWorkloadName (card : AgentCard) : String :=
  match card.spec.targetRef, card.status.targetRef with
  | some ref, _ => ref.name
  | none, some ref => ref.name
  | none, none => card.name

def handleDeletion (env : Env) (card : AgentCard) : Op Unit := do
  if card.finalizers.contains networkPolicyFinalizer then
    let name := policyName (deletedWorkloadName card)
    let existing ← getPolicy env card.ns name
    if existing.isSome then
      write env .deletePolicy fun w => { w with policies := w.policies.erase (card.ns, name) }
    setFinalizers env .removeFinalizer (·.filter (· ≠ networkPolicyFinalizer))

def reconcile (r : PolicyReconciler) (env : Env) : Op Unit := do
  if r.enforceNetworkPolicies then
    let card ← getCard
    if card.deleting then handleDeletion env card
    else if !card.finalizers.contains networkPolicyFinalizer then
      setFinalizers env .addFinalizer (· ++ [networkPolicyFinalizer])
    else
      -- a workload that cannot be resolved is only logged
      match ← (resolveWorkload env card).attempt with
      | .error _ => return
      | .ok (workloadName, podLabels) => manageNetworkPolicy r env card workloadName podLabels

/-! What a reconcile does -/

def podLabels (workloads : Workloads) (ns : String) (ref : TargetRef) : Option StringMap :=
  match podKind ref.kind with
  | some kind => (workloads.lookup ⟨kind, ns, ref.name⟩).map (·.templateLabels)
  | none => some [⟨labelAgentType, labelValueAgent⟩, ⟨"app", ref.name⟩].toAList

inductive PolicyEffect (r : PolicyReconciler) (w : World) : Policies → Prop where
  | unchanged : PolicyEffect r w w.policies
  | put {ref : TargetRef} {labels : StringMap} {policy : Policy} :
      w.card.deleting = false → w.card.spec.targetRef = some ref →
      podLabels w.workloads w.card.ns ref = some labels →
      policy.spec = r.policySpec w.card.status labels →
      PolicyEffect r w (w.policies.insert (w.card.ns, policyName ref.name) policy)
  | removed :
      w.card.deleting = true → w.card.finalizers.contains networkPolicyFinalizer = true →
      PolicyEffect r w (w.policies.erase (w.card.ns, policyName (deletedWorkloadName w.card)))

/-- Of the card and the workloads only the finalizers change. -/
def OnlyFinalizers (w w' : World) : Prop :=
  w'.workloads = w.workloads ∧ ∃ finalizers, w'.card = { w.card with finalizers := finalizers }

section Effect

variable {r : PolicyReconciler} {env : Env} {w : World}

open Fallible

theorem OnlyFinalizers.refl (w : World) : OnlyFinalizers w w := ⟨rfl, w.card.finalizers, rfl⟩

theorem effect_setFinalizers {w' : World} (h : OnlyFinalizers w w') (access : Access)
    (f : List String → List String) :
    ((setFinalizers env access f).runFrom w').2.policies = w'.policies ∧
      OnlyFinalizers w ((setFinalizers env access f).runFrom w').2 := by
  obtain ⟨hworkloads, finalizers, hcard⟩ := h
  rw [setFinalizers, write, runFrom_access]
  cases env.answer access with
  | some err => exact ⟨rfl, hworkloads, finalizers, hcard⟩
  | none =>
    refine ⟨rfl, hworkloads, f w'.card.finalizers, ?_⟩
    rw [hcard]

theorem effect_handleDeletion (hdeleting : w.card.deleting = true) :
    PolicyEffect r w ((handleDeletion env w.card).runFrom w).2.policies ∧
      OnlyFinalizers w ((handleDeletion env w.card).runFrom w).2 := by
  unfold handleDeletion
  split
  next hfinalizer =>
    rw [runFrom_bind, getPolicy, read, runFrom_access]
    cases env.answer .getPolicy with
    | some err => exact ⟨.unchanged, .refl w⟩
    | none =>
      dsimp only
      split
      · rw [runFrom_bind, write, runFrom_access]
        cases env.answer .deletePolicy with
        | some err => exact ⟨.unchanged, .refl w⟩
        | none =>
          obtain ⟨hpolicies, honly⟩ := @effect_setFinalizers env w
            { w with policies := w.policies.erase (w.card.ns, policyName (deletedWorkloadName w.card)) }
            (OnlyFinalizers.refl w) .removeFinalizer (·.filter (· ≠ networkPolicyFinalizer))
          refine ⟨?_, honly⟩
          rw [hpolicies]
          exact .removed hdeleting hfinalizer
      · obtain ⟨hpolicies, honly⟩ := @effect_setFinalizers env w w (OnlyFinalizers.refl w)
          .removeFinalizer (·.filter (· ≠ networkPolicyFinalizer))
        refine ⟨?_, honly⟩
        rw [hpolicies]
        exact .unchanged
  · exact ⟨.unchanged, .refl w⟩

theorem runFrom_getPodTemplateLabels (ns : String) (ref : TargetRef) :
    ((getPodTemplateLabels env ns ref).runFrom w).2 = w ∧
      ∀ labels, ((getPodTemplateLabels env ns ref).runFrom w).1 = .ok labels →
        podLabels w.workloads ns ref = some labels := by
  unfold getPodTemplateLabels podLabels
  cases podKind ref.kind with
  | none =>
    refine ⟨rfl, fun labels hlabels => ?_⟩
    cases hlabels
    rfl
  | some kind => grind [read, runFrom_access]

theorem runFrom_resolveWorkload :
    ((resolveWorkload env w.card).runFrom w).2 = w ∧
      ∀ workloadName labels, ((resolveWorkload env w.card).runFrom w).1 = .ok (workloadName, labels) →
        ∃ ref, w.card.spec.targetRef = some ref ∧ ref.name = workloadName ∧
          podLabels w.workloads w.card.ns ref = some labels := by
  unfold resolveWorkload
  cases w.card.spec.targetRef with
  | none => exact ⟨rfl, fun _ _ h => by cases h⟩
  | some ref =>
    obtain ⟨hstate, hfound⟩ := @runFrom_getPodTemplateLabels env w w.card.ns ref
    rw [runFrom_bind]
    rcases hrun : (getPodTemplateLabels env w.card.ns ref).runFrom w with ⟨err | labels, w'⟩
    · rw [hrun] at hstate
      exact ⟨hstate, fun _ _ h => by cases h⟩
    · simp_all

theorem effect_manageNetworkPolicy (hdeleting : w.card.deleting = false) {ref : TargetRef}
    {labels : StringMap} (href : w.card.spec.targetRef = some ref)
    (hlabels : podLabels w.workloads w.card.ns ref = some labels) :
    PolicyEffect r w ((manageNetworkPolicy r env w.card ref.name labels).runFrom w).2.policies ∧
      OnlyFinalizers w ((manageNetworkPolicy r env w.card ref.name labels).runFrom w).2 := by
  rw [manageNetworkPolicy, upsertNetworkPolicy, runFrom_bind, getPolicy, read, runFrom_access]
  cases env.answer .getPolicy with
  | some err => exact ⟨.unchanged, .refl w⟩
  | none =>
    dsimp only
    rw [write, runFrom_access]
    cases env.answer .putPolicy with
    | some err => exact ⟨.unchanged, .refl w⟩
    | none =>
      refine ⟨.put hdeleting href hlabels ?_, rfl, w.card.finalizers, rfl⟩
      unfold upserted
      split <;> rfl

theorem runFrom_getCard {α : Type} (f : AgentCard → Op α) (w : World) :
    (getCard >>= f).runFrom w = (f w.card).runFrom w :=
  rfl

theorem reconcile_effect :
    PolicyEffect r w ((reconcile r env).runFrom w).2.policies ∧
      OnlyFinalizers w ((reconcile r env).runFrom w).2 := by
  unfold reconcile
  split
  · rw [runFrom_getCard]
    split
    next hdeleting => exact effect_handleDeletion hdeleting
    next hdeleting =>
      split
      · obtain ⟨hpolicies, honly⟩ := @effect_setFinalizers env w w (OnlyFinalizers.refl w)
          .addFinalizer (· ++ [networkPolicyFinalizer])
        rw [hpolicies]
        exact ⟨.unchanged, honly⟩
      · obtain ⟨hstate, hfound⟩ := @runFrom_resolveWorkload env w
        rw [runFrom_bind, runFrom_attempt]
        rw [hstate]
        rcases hrun : ((resolveWorkload env w.card).runFrom w).1 with err | ⟨workloadName, labels⟩
        · exact ⟨.unchanged, .refl w⟩
        · obtain ⟨ref, href, rfl, hlabels⟩ := hfound workloadName labels hrun
          exact effect_manageNetworkPolicy (by simpa using hdeleting) href hlabels
  · exact ⟨.unchanged, .refl w⟩

end Effect

/-! Cards of one workload, for runs on fixed answers -/

def weatherRef : TargetRef := ⟨"apps/v1", "Deployment", "weather"⟩

def cardOfWeather (name : String) (verified : Bool) : AgentCard where
  name := name
  ns := "default"
  deleting := false
  finalizers := [networkPolicyFinalizer]
  spec := ⟨"", some weatherRef, none, none⟩
  status := { AgentCardStatus.empty with
    conditions := if verified then [⟨conditionVerified, .conditionTrue, "", "", 0⟩] else [] }

def enforcingReconciler : PolicyReconciler := ⟨true, "kagenti-system", [], "kagenti-system"⟩

def acceptingEnv : Env := ⟨fun _ => none⟩

end Kagenti.Operator.NetworkPolicy
