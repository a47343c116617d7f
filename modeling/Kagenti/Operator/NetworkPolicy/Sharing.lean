import Kagenti.Lib.Transition
import Kagenti.Operator.NetworkPolicy.Policy

/-!
The policy of a workload over all AgentCards that target it, which share it. The statuses of the
cards are fixed: a change takes effect with the next reconcile of its card.
-/

namespace Kagenti.Operator.NetworkPolicy

open Lib Lib.Transition AgentCards

structure Cluster where
  cards : Cards
  workloads : Workloads
  policies : Policies

namespace Cluster

variable (c : Cluster)

inductive Action where
  | requestDeletion (k : CardKey)
  | reconcile (k : CardKey) (r : PolicyReconciler) (env : Env)

def world (card : AgentCard) : World := ⟨card, c.workloads, c.policies⟩

def worldAfter (r : PolicyReconciler) (env : Env) (card : AgentCard) : World :=
  ((reconcile r env).runFrom (c.world card)).2

def reconciled (k : CardKey) (r : PolicyReconciler) (env : Env) (card : AgentCard) : Cluster where
  cards := c.cards.store k (c.worldAfter r env card).card
  workloads := (c.worldAfter r env card).workloads
  policies := (c.worldAfter r env card).policies

def step : Action → Option Cluster
  | .requestDeletion k =>
    (c.cards.lookup k).map fun card =>
      { c with cards := c.cards.store k { card with deleting := true } }
  | .reconcile k r env => (c.cards.lookup k).map (c.reconciled k r env)

/-- The cards and workloads as they are, with no policy written yet. -/
def system (cards : Cards) (workloads : Workloads) : System Cluster Action :=
  ⟨⟨cards, workloads, ∅⟩, step⟩

def Requires (card : AgentCard) (ns name : String) : Prop :=
  (∃ k, c.cards.lookup k = some card) ∧ card.deleting = false ∧ card.ns = ns ∧
    ∃ ref, card.spec.targetRef = some ref ∧ ref.name = name

def Sound : Prop :=
  ∀ card ns name policy, c.Requires card ns name →
    c.policies.lookup (ns, policyName name) = some policy → policy.spec.isPermissive = true →
      card.status.isVerified = true

def KeepsPolicies (c' : Cluster) : Prop :=
  ∀ card ns name, c'.Requires card ns name →
    (c.policies.lookup (ns, policyName name)).isSome = true →
      (c'.policies.lookup (ns, policyName name)).isSome = true

def Allowed : Action → Prop
  | .requestDeletion _ => True
  | .reconcile k _ _ =>
    ∀ card, c.cards.lookup k = some card →
      (card.deleting = false → card.status.isVerified = true →
        ∀ ref, card.spec.targetRef = some ref →
          ∀ other, c.Requires other card.ns ref.name → other.status.isVerified = true) ∧
      (card.deleting = true → card.finalizers.contains networkPolicyFinalizer = true →
        (c.policies.lookup (card.ns, policyName (deletedWorkloadName card))).isSome = true →
          ∀ other, ¬ c.Requires other card.ns (deletedWorkloadName card))

variable {c}

def cardsOf (c : Cluster) (ns name : String) : List AgentCard :=
  (c.cards.entries.map Sigma.snd).filter fun card =>
    !card.deleting && decide (card.ns = ns) && card.spec.targetRef.any (·.name = name)

theorem mem_cardsOf {card : AgentCard} {ns name : String} :
    card ∈ c.cardsOf ns name ↔ c.Requires card ns name := by
  simp only [cardsOf, Requires, List.mem_filter, List.mem_map, Sigma.exists, exists_eq_right,
    ← AList.mem_lookup_iff, Option.mem_def, Option.any_eq_true, Bool.and_eq_true,
    Bool.not_eq_true', decide_eq_true_eq, and_assoc]

instance : DecidablePred c.Allowed
  | .requestDeletion _ => isTrue trivial
  | .reconcile k _ _ =>
    decidable_of_iff
      (∀ card ∈ c.cards.lookup k,
        (card.deleting = false → card.status.isVerified = true → ∀ ref ∈ card.spec.targetRef,
          ∀ other ∈ c.cardsOf card.ns ref.name, other.status.isVerified = true) ∧
        (card.deleting = true → card.finalizers.contains networkPolicyFinalizer = true →
          (c.policies.lookup (card.ns, policyName (deletedWorkloadName card))).isSome = true →
            c.cardsOf card.ns (deletedWorkloadName card) = []))
      (by simp only [mem_cardsOf, List.eq_nil_iff_forall_not_mem]; rfl)

theorem policyName_injective : Function.Injective policyName := by
  intro name name' heq
  have hlist := congrArg String.toList heq
  simp only [policyName, String.toList_append] at hlist
  exact String.toList_injective (List.append_cancel_right hlist)

theorem requires_of_store {k : CardKey} {card card' other : AgentCard} {ns name : String}
    {workloads : Workloads} {policies : Policies}
    (h : Requires ⟨c.cards.store k card', workloads, policies⟩ other ns name)
    (hcard : c.cards.lookup k = some card)
    (hdeleting : card'.deleting = false → card.deleting = false) (hns : card'.ns = card.ns)
    (hspec : card'.spec = card.spec) (hstatus : card'.status = card.status) :
    ∃ before, c.Requires before ns name ∧ before.status = other.status := by
  obtain ⟨⟨k', hlookup⟩, hlive, hother, href⟩ := h
  rw [Cards.lookup_store] at hlookup
  split_ifs at hlookup with heq
  · cases hlookup
    exact ⟨card, ⟨⟨k, hcard⟩, hdeleting hlive, hns ▸ hother, hspec ▸ href⟩, hstatus.symm⟩
  · exact ⟨other, ⟨⟨k', hlookup⟩, hlive, hother, href⟩, rfl⟩

section Step

variable {k : CardKey} {card : AgentCard} {r : PolicyReconciler} {env : Env}

theorem requires_of_reconciled (hcard : c.cards.lookup k = some card) {other : AgentCard}
    {ns name : String} (h : (c.reconciled k r env card).Requires other ns name) :
    ∃ before, c.Requires before ns name ∧ before.status = other.status := by
  obtain ⟨-, -, finalizers, hafter⟩ := @reconcile_effect r env (c.world card)
  change (c.worldAfter r env card).card = _ at hafter
  unfold reconciled at h
  rw [hafter] at h
  exact requires_of_store h hcard id rfl rfl rfl

theorem effect_worldAfter :
    PolicyEffect r (c.world card) (c.worldAfter r env card).policies := reconcile_effect.1

theorem Sound.reconciled (hsound : c.Sound) (hcard : c.cards.lookup k = some card)
    (hallowed : c.Allowed (.reconcile k r env)) : (c.reconciled k r env card).Sound := by
  intro other ns name policy hrequires hlookup hpermissive
  obtain ⟨before, hbefore, hstatus⟩ := requires_of_reconciled hcard hrequires
  rw [← hstatus]
  have hkept (hlookup : c.policies.lookup (ns, policyName name) = some policy) :
      before.status.isVerified = true :=
    hsound before ns name policy hbefore hlookup hpermissive
  have heffect := @effect_worldAfter c card r env
  change (c.worldAfter r env card).policies.lookup _ = _ at hlookup
  generalize (c.worldAfter r env card).policies = policies at heffect hlookup
  cases heffect with
  | unchanged => exact hkept hlookup
  | @put ref labels written hlive href hlabels hspec =>
    rw [Entries.lookup_insert] at hlookup
    split_ifs at hlookup with heq
    · -- the policy is the one of the card, so all cards that share it are verified
      cases hlookup
      rw [hspec, isPermissive_policySpec] at hpermissive
      obtain ⟨rfl, hname⟩ := Prod.mk.inj heq
      obtain rfl := policyName_injective hname
      exact (hallowed card hcard).1 hlive hpermissive ref href before hbefore
    · exact hkept hlookup
  | removed => exact hkept (Entries.lookup_of_erase hlookup)

theorem keepsPolicies_reconciled (hcard : c.cards.lookup k = some card)
    (hallowed : c.Allowed (.reconcile k r env)) :
    c.KeepsPolicies (c.reconciled k r env card) := by
  intro other ns name hrequires hthere
  obtain ⟨before, hbefore, -⟩ := requires_of_reconciled hcard hrequires
  have heffect := @effect_worldAfter c card r env
  change ((c.worldAfter r env card).policies.lookup _).isSome = true
  generalize (c.worldAfter r env card).policies = policies at heffect
  cases heffect with
  | unchanged => exact hthere
  | put =>
    rw [Entries.lookup_insert]
    split_ifs
    · rfl
    · exact hthere
  | removed hdeleting hfinalizer =>
    rw [Entries.lookup_erase]
    split_ifs with heq
    · -- the card would remove a policy that another one requires
      obtain ⟨rfl, hname⟩ := Prod.mk.inj heq
      obtain rfl := policyName_injective hname
      exact absurd hbefore ((hallowed card hcard).2 hdeleting hfinalizer hthere before)
    · exact hthere

theorem Sound.step {c' : Cluster} {action : Action} (hsound : c.Sound) (hallowed : c.Allowed action)
    (hstep : c.step action = some c') : c'.Sound ∧ c.KeepsPolicies c' := by
  cases action with
  | requestDeletion k =>
    simp only [Cluster.step, Option.map_eq_some_iff] at hstep
    obtain ⟨card, hcard, rfl⟩ := hstep
    refine ⟨fun other ns name policy hrequires hlookup hpermissive => ?_, fun _ _ _ _ h => h⟩
    obtain ⟨before, hbefore, hstatus⟩ :=
      requires_of_store hrequires hcard (by simp) rfl rfl rfl
    rw [← hstatus]
    exact hsound before ns name policy hbefore hlookup hpermissive
  | reconcile k r env =>
    simp only [Cluster.step, Option.map_eq_some_iff] at hstep
    obtain ⟨card, hcard, rfl⟩ := hstep
    exact ⟨hsound.reconciled hcard hallowed, keepsPolicies_reconciled hcard hallowed⟩

end Step

/-- In every run in which a verified card is reconciled only while the cards that share its policy
are verified too, and no deletion removes a policy that another card requires, the policies are
permissive only for workloads all of whose cards are verified, and no step loses one that is
required. -/
theorem policies_sound {cards : Cards} {workloads : Workloads} {c : Cluster}
    (h : (system cards workloads).Reachable Allowed c) :
    c.Sound ∧ ∀ action c', c.Allowed action → c.step action = some c' → c.KeepsPolicies c' := by
  have hsound : c.Sound := by
    refine h.invariant ?_ fun c action c' hsound hallowed hstep => (hsound.step hallowed hstep).1
    intro card ns name policy _ hlookup
    simp [system] at hlookup
  exact ⟨hsound, fun action c' hallowed hstep => (hsound.step hallowed hstep).2⟩

/-! Runs with cards of one workload -/

def sharedPolicy : String × String := ("default", policyName "weather")

def sharedWorkloads : Workloads :=
  [⟨⟨.deployment, "default", "weather"⟩, ⟨∅, [⟨"app", "weather"⟩].toAList⟩⟩].toAList

def verifiedKey : CardKey := ("default", "verified")

def unverifiedKey : CardKey := ("default", "unverified")

def secondKey : CardKey := ("default", "second")

def verifiedCards : Cards :=
  [⟨verifiedKey, cardOfWeather "verified" true⟩, ⟨secondKey, cardOfWeather "second" true⟩].toAList

def mixedCards : Cards :=
  [⟨verifiedKey, cardOfWeather "verified" true⟩,
    ⟨unverifiedKey, cardOfWeather "unverified" false⟩].toAList

def accepted (k : CardKey) : Action := .reconcile k enforcingReconciler acceptingEnv

def hasPermissivePolicy (c : Cluster) : Bool :=
  (c.policies.lookup sharedPolicy).any fun policy => policy.spec.isPermissive

/-- Two verified cards of one workload, and the deletion of both. -/
theorem policies_sound_for_verified_cards :
    ∃ c, (system verifiedCards sharedWorkloads).Reachable Allowed c ∧
      hasPermissivePolicy c = true ∧ c.Sound ∧
      ∃ d d', (system verifiedCards sharedWorkloads).Reachable Allowed d ∧
        hasPermissivePolicy d = true ∧ d.step (accepted verifiedKey) = some d' ∧
        hasPermissivePolicy d' = false ∧ d.KeepsPolicies d' := by
  let reconciles := [accepted verifiedKey, accepted secondKey]
  obtain ⟨c, run, permissive, d, run', permissive', allowed, d', step, removed⟩ :
      ∃ c ∈ (system verifiedCards sharedWorkloads).run Allowed reconciles,
        hasPermissivePolicy c = true ∧
      ∃ d ∈ (system verifiedCards sharedWorkloads).run Allowed
          (reconciles ++ [.requestDeletion verifiedKey, .requestDeletion secondKey]),
        hasPermissivePolicy d = true ∧ d.Allowed (accepted verifiedKey) ∧
        ∃ d' ∈ d.step (accepted verifiedKey), hasPermissivePolicy d' = false := by
    decide +kernel
  have reach := System.reachable_of_run _ run
  have reach' := System.reachable_of_run _ run'
  exact ⟨c, reach, permissive, (policies_sound reach).1, d, d', reach', permissive', step, removed,
    (policies_sound reach').2 _ d' allowed step⟩

def hasUnverifiedCard (c : Cluster) : Bool :=
  (c.cards.lookup unverifiedKey).any fun card =>
    !card.deleting && !card.status.isVerified && card.ns = "default" &&
      card.spec.targetRef = some weatherRef

theorem requires_of_hasUnverifiedCard {c : Cluster} (h : hasUnverifiedCard c = true) :
    ∃ card, c.Requires card "default" "weather" ∧ card.status.isVerified = false := by
  simp only [hasUnverifiedCard, Option.any_eq_true, Bool.and_eq_true, Bool.not_eq_true',
    decide_eq_true_eq] at h
  obtain ⟨card, hcard, ⟨⟨hlive, hunverified⟩, hns⟩, href⟩ := h
  exact ⟨card, ⟨⟨unverifiedKey, hcard⟩, hlive, hns, _, href, rfl⟩, hunverified⟩

/-- A verified card opens the policy that it shares with an unverified one, and its deletion removes
the policy of the other. -/
theorem shared_policy_follows_last_card :
    (∃ c, (system mixedCards sharedWorkloads).Reachable System.anyAction c ∧ ¬ c.Sound) ∧
      ∃ c action c', (system mixedCards sharedWorkloads).Reachable System.anyAction c ∧
        c.step action = some c' ∧ ¬ c.KeepsPolicies c' := by
  constructor
  · obtain ⟨c, hrun, hcard, policy, hlookup, hpermissive⟩ :
        ∃ c ∈ (system mixedCards sharedWorkloads).run System.anyAction
          [accepted unverifiedKey, accepted verifiedKey], hasUnverifiedCard c = true ∧
        ∃ policy ∈ c.policies.lookup sharedPolicy, policy.spec.isPermissive = true := by
      decide +kernel
    obtain ⟨card, hrequires, hunverified⟩ := requires_of_hasUnverifiedCard hcard
    refine ⟨c, System.reachable_of_run _ hrun, fun hsound => ?_⟩
    rw [hsound card "default" "weather" policy hrequires hlookup hpermissive] at hunverified
    cases hunverified
  · obtain ⟨c, hrun, hthere, c', hstep, hcard, hgone⟩ :
        ∃ c ∈ (system mixedCards sharedWorkloads).run System.anyAction
          [accepted unverifiedKey, .requestDeletion verifiedKey],
          (c.policies.lookup sharedPolicy).isSome = true ∧
        ∃ c' ∈ c.step (accepted verifiedKey), hasUnverifiedCard c' = true ∧
          (c'.policies.lookup sharedPolicy).isSome = false := by
      decide +kernel
    obtain ⟨card, hrequires, -⟩ := requires_of_hasUnverifiedCard hcard
    refine ⟨c, _, c', System.reachable_of_run _ hrun, hstep, fun hkeeps => ?_⟩
    have hkept := hkeeps card "default" "weather" hrequires hthere
    rw [show (c'.policies.lookup ("default", policyName "weather")).isSome = _ from hgone] at hkept
    cases hkept

end Cluster

end Kagenti.Operator.NetworkPolicy
