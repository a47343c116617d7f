import Kagenti.Lib.Transition
import Kagenti.Operator.NetworkPolicy.Policy

/-!
Whether the policy of a workload selects its pods, which have the labels of the revision that they
were started from. Only reconciles of cards of this workload are considered.
-/

namespace Kagenti.Operator.NetworkPolicy

open Go Lib Lib.Transition AgentCards

/-- A selector by labels selects a pod that has all of them. -/
def selects (selector labels : StringMap) : Bool :=
  selector.entries.all fun e => labels.lookup e.1 = some e.2

theorem selects_iff {selector labels : StringMap} :
    selects selector labels = true ↔
      ∀ key value, selector.lookup key = some value → labels.lookup key = some value := by
  simp only [selects, List.all_eq_true, decide_eq_true_eq]
  constructor
  · intro h key value hlookup
    exact h ⟨key, value⟩ (AList.mem_lookup_iff.mp hlookup)
  · rintro h ⟨key, value⟩ hmem
    exact h key value (AList.mem_lookup_iff.mpr hmem)

theorem selects_trans {a b c : StringMap} (hab : selects a b = true) (hbc : selects b c = true) :
    selects a c = true :=
  selects_iff.mpr fun key value h => selects_iff.mp hbc key value (selects_iff.mp hab key value h)

structure Pod where
  revision : StringMap
  labels : StringMap
  labelled : selects revision labels = true

structure Rollout where
  workloads : Workloads
  policies : Policies
  revisions : List StringMap
  pods : List Pod

namespace Rollout

variable (ns : String) (ref : TargetRef)

inductive Action where
  -- by its owner
  | setTemplate (labels : StringMap)
  -- by the AgentCard controller, for one of its cards
  | propagateLabel (cardName : String) (verified : Bool)
  | cleanup (cardName : String)
  | startPod (pod : Pod)
  | stopPod (i : Nat)
  | reconcile (r : PolicyReconciler) (env : Env) (card : AgentCard)

def key : Option WorkloadKey := (podKind ref.kind).map fun kind => ⟨kind, ns, ref.name⟩

def policyKey : String × String := (ns, policyName ref.name)

def write (s : Rollout) (f : PodWorkload → PodWorkload) : Option Rollout := do
  let key ← key ns ref
  let workload ← s.workloads.lookup key
  return { s with
    workloads := s.workloads.insert key (f workload)
    revisions := (f workload).templateLabels :: s.revisions }

def setTemplate (s : Rollout) (labels : StringMap) : Rollout :=
  { s with
    workloads :=
      match key ns ref with
      | none => s.workloads
      | some key =>
        s.workloads.insert key
          ⟨((s.workloads.lookup key).map (·.annotations)).getD ∅, labels⟩
    revisions := labels :: s.revisions }

def isCardOf (card : AgentCard) : Bool :=
  card.ns = ns && card.spec.targetRef.any fun r => r.kind = ref.kind && r.name = ref.name

def reconciled (s : Rollout) (r : PolicyReconciler) (env : Env) (card : AgentCard) : World :=
  ((reconcile r env).runFrom ⟨card, s.workloads, s.policies⟩).2

def step (s : Rollout) : Action → Option Rollout
  | .setTemplate labels => some (setTemplate ns ref s labels)
  | .propagateLabel cardName verified => write ns ref s (propagatedTo cardName verified)
  | .cleanup cardName => write ns ref s (cleanedOf cardName)
  | .startPod pod =>
    if s.revisions.any (·.entries = pod.revision.entries) then
      some { s with pods := pod :: s.pods }
    else none
  | .stopPod i => some { s with pods := s.pods.eraseIdx i }
  | .reconcile r env card =>
    if isCardOf ns ref card then some { s with policies := (s.reconciled r env card).policies }
    else none

def system : System Rollout Action := ⟨⟨∅, ∅, [], []⟩, step ns ref⟩

def Covered (s : Rollout) : Prop :=
  ∀ policy, s.policies.lookup (policyKey ns ref) = some policy →
    ∀ pod ∈ s.pods, selects policy.spec.podSelector pod.labels = true

def Allowed (s : Rollout) : Action → Prop
  | .startPod pod =>
    ∀ policy ∈ s.policies.lookup (policyKey ns ref),
      selects policy.spec.podSelector pod.revision = true
  | .reconcile _ _ card =>
    card.deleting = false → ∀ labels ∈ podLabels s.workloads ns ref,
      ∀ pod ∈ s.pods, selects labels pod.revision = true
  | _ => True

instance (s : Rollout) : DecidablePred (Allowed ns ref s) := by
  intro action
  unfold Allowed
  split <;> infer_instance

variable {ns ref}

theorem podSelector_policySpec (r : PolicyReconciler) (status : AgentCardStatus)
    (labels : StringMap) : (r.policySpec status labels).podSelector = labels := by
  unfold PolicyReconciler.policySpec
  split_ifs <;> rfl

theorem podLabels_of_isCardOf {card : AgentCard} {target : TargetRef}
    (hcard : isCardOf ns ref card = true) (htarget : card.spec.targetRef = some target)
    (workloads : Workloads) :
    podLabels workloads card.ns target = podLabels workloads ns ref := by
  simp only [isCardOf, htarget, Option.any_some, Bool.and_eq_true, decide_eq_true_eq] at hcard
  obtain ⟨rfl, hkind, hname⟩ := hcard
  unfold podLabels
  rw [hkind, hname]

section Step

variable {s : Rollout}

theorem Covered.startPod (hcovered : s.Covered ns ref) {pod : Pod}
    (hallowed : Allowed ns ref s (.startPod pod)) :
    Covered ns ref { s with pods := pod :: s.pods } := by
  intro policy hlookup pod' hmem
  rcases List.mem_cons.mp hmem with rfl | hmem
  · exact selects_trans (hallowed policy hlookup) pod'.labelled
  · exact hcovered policy hlookup pod' hmem

theorem Covered.reconcile (hcovered : s.Covered ns ref) {r : PolicyReconciler} {env : Env}
    {card : AgentCard} (hcard : isCardOf ns ref card = true)
    (hallowed : Allowed ns ref s (.reconcile r env card)) :
    Covered ns ref { s with policies := (s.reconciled r env card).policies } := by
  have heffect := (@reconcile_effect r env ⟨card, s.workloads, s.policies⟩).1
  change PolicyEffect r _ (s.reconciled r env card).policies at heffect
  intro policy hlookup pod hmem
  generalize (s.reconciled r env card).policies = policies at heffect hlookup
  cases heffect with
  | unchanged => exact hcovered policy hlookup pod hmem
  | @put target labels written hlive htarget hlabels hspec =>
    rw [Entries.lookup_insert] at hlookup
    split_ifs at hlookup with heq
    · cases hlookup
      rw [hspec, podSelector_policySpec]
      have hcurrent := (podLabels_of_isCardOf hcard htarget s.workloads).symm.trans hlabels
      exact selects_trans (hallowed hlive labels hcurrent pod hmem) pod.labelled
    · exact hcovered policy hlookup pod hmem
  | removed => exact hcovered policy (Entries.lookup_of_erase hlookup) pod hmem

variable {s' : Rollout}

theorem write_eq_some {f : PodWorkload → PodWorkload} (h : write ns ref s f = some s') :
    s'.policies = s.policies ∧ s'.pods = s.pods := by
  simp only [Rollout.write, Option.bind_eq_bind, Option.bind_eq_some_iff, Option.pure_def,
    Option.some.injEq] at h
  obtain ⟨_, _, _, _, rfl⟩ := h
  exact ⟨rfl, rfl⟩

theorem Covered.step {action : Action} (hcovered : s.Covered ns ref)
    (hallowed : Allowed ns ref s action) (hstep : step ns ref s action = some s') :
    s'.Covered ns ref := by
  have hsame (hpolicies : s'.policies = s.policies) (hpods : s'.pods ⊆ s.pods) :
      s'.Covered ns ref := by
    intro policy hlookup pod hmem
    rw [hpolicies] at hlookup
    exact hcovered policy hlookup pod (hpods hmem)
  cases action with
  | setTemplate labels =>
    cases hstep
    exact hsame rfl (List.Subset.refl _)
  | propagateLabel cardName verified =>
    obtain ⟨hpolicies, hpods⟩ := write_eq_some hstep
    exact hsame hpolicies (hpods ▸ List.Subset.refl _)
  | cleanup cardName =>
    obtain ⟨hpolicies, hpods⟩ := write_eq_some hstep
    exact hsame hpolicies (hpods ▸ List.Subset.refl _)
  | startPod pod =>
    simp only [Rollout.step, Option.ite_none_right_eq_some, Option.some.injEq] at hstep
    obtain ⟨-, rfl⟩ := hstep
    exact hcovered.startPod hallowed
  | stopPod i =>
    cases hstep
    exact hsame rfl (List.eraseIdx_subset)
  | reconcile r env card =>
    simp only [Rollout.step, Option.ite_none_right_eq_some, Option.some.injEq] at hstep
    obtain ⟨hcard, rfl⟩ := hstep
    exact hcovered.reconcile hcard hallowed

end Step

def appLabels : StringMap := [⟨"app", "weather"⟩].toAList

def tierLabels : StringMap := appLabels.insert "tier" "backend"

/-- The policy is written while a pod of the only revision runs. -/
def firstRollout : List Action :=
  [.setTemplate appLabels, .startPod ⟨appLabels, appLabels, by decide⟩,
    .reconcile enforcingReconciler acceptingEnv (cardOfWeather "weather-card" true)]

def labelledRollout : List Action :=
  firstRollout ++ [.propagateLabel "weather-card" true,
    .reconcile enforcingReconciler acceptingEnv (cardOfWeather "weather-card" true)]

def secondRollout : List Action :=
  firstRollout ++ [.setTemplate tierLabels, .startPod ⟨tierLabels, tierLabels, by decide⟩]

end Rollout

end Kagenti.Operator.NetworkPolicy
