import Kagenti.Operator.AgentCards.Rounds

/-!
Freshness of the trust in an AgentCard: whether the identity and the condition Verified that a
completed reconcile leaves in the status were established by this reconcile.
-/

namespace Kagenti.Operator.AgentCards

open AgentCardStatus

namespace Round

structure Fresh (a : Round) (status : AgentCardStatus) : Prop where
  attested : status.attestedAgentSpiffeID ≠ "" → ∃ x fetched, a.fetched = some (x, fetched) ∧
    fetchMode a.reconciler x = .authenticated ∧
    fetched.agentSpiffeID = status.attestedAgentSpiffeID ∧
    status.card = some (storedCard a.card x fetched)
  verified : status.isVerified = true → ∃ x fetched, a.fetched = some (x, fetched) ∧
    (a.trust fetched).isVerified = true ∧ status.card = some (storedCard a.card x fetched)

structure Renews (a : Round) (s : AgentCardStatus) : Prop where
  identity : s.attestedAgentSpiffeID ≠ "" → a.Attests ∨ a.Clears
  condition : s.isVerified = true → a.Decides ∨ a.Clears ∨ a.Denies

section Rounds

variable {a : Round} {s : AgentCardStatus}

theorem fresh_iff_of_not_fetched (h : a.fetched = none) : a.Fresh (a.after s) ↔ a.Renews s := by
  obtain ⟨hattested, hverified⟩ := @after_of_not_fetched a s h
  have hnone {p : Reached → FetchResult → Prop} :
      ¬ ∃ x fetched, a.fetched = some (x, fetched) ∧ p x fetched := by
    rintro ⟨x, fetched, hfetched, -⟩
    rw [h] at hfetched
    cases hfetched
  have hdecides : ¬ a.Decides := hnone
  have hclears : ¬ a.Clears := hnone
  have hattests : ¬ a.Attests := hnone
  constructor
  · rintro ⟨hidentity, hcondition⟩
    constructor
    · intro hs
      exact absurd (hidentity (hattested ▸ hs)) hnone
    · grind
  · rintro ⟨hidentity, hcondition⟩
    constructor
    · grind
    · grind

section Fetched

variable {x : Reached} {fetched : FetchResult}

theorem attested_fresh_iff (h : a.fetched = some (x, fetched))
    (hstatus : a.env.answer .status = none) :
    ((a.after s).attestedAgentSpiffeID ≠ "" → ∃ x' fetched', a.fetched = some (x', fetched') ∧
        fetchMode a.reconciler x' = .authenticated ∧
        fetched'.agentSpiffeID = (a.after s).attestedAgentSpiffeID ∧
        (a.after s).card = some (storedCard a.card x' fetched')) ↔
      (s.attestedAgentSpiffeID ≠ "" → a.Attests ∨ a.Clears) := by
  rw [attests_iff h, clears_iff h, exists_fetched_iff h fun x' fetched' =>
    fetchMode a.reconciler x' = .authenticated ∧
      fetched'.agentSpiffeID = (a.after s).attestedAgentSpiffeID ∧
      (a.after s).card = some (storedCard a.card x' fetched'), attested_after h hstatus]
  by_cases hid : fetched.agentSpiffeID = ""
  · -- without an identity of its own the round must clear the one that it finds
    by_cases hclears : fetchMode a.reconciler x = .plain ∧ a.env.answer .cleanup = none
    · simp [hid, hclears]
    · simp only [ne_eq, hid, not_true_eq_false, if_false, if_neg hclears, false_or]
      refine imp_congr_right fun hfound => iff_of_false ?_ hclears
      rintro ⟨-, heq, -⟩
      exact hfound heq.symm
  · have hauthenticated := authenticated_of_identity (fetched_eq_some.mp h).2.2 hid
    simp [hid, hauthenticated, card_after h hstatus]

theorem verified_fresh_iff (h : a.fetched = some (x, fetched))
    (hstatus : a.env.answer .status = none) :
    ((a.after s).isVerified = true → ∃ x' fetched', a.fetched = some (x', fetched') ∧
        (a.trust fetched').isVerified = true ∧
        (a.after s).card = some (storedCard a.card x' fetched')) ↔
      (s.isVerified = true → a.Decides ∨ a.Clears ∨ a.Denies) := by
  rw [decides_iff h, clears_iff h, exists_fetched_iff h fun x' fetched' =>
    (a.trust fetched').isVerified = true ∧
      (a.after s).card = some (storedCard a.card x' fetched'), isVerified_after h hstatus]
  by_cases hreason : (a.trust fetched).verifiedReason = ""
  · -- nothing is decided, so the round must clear the condition that it finds
    have hunverified : (a.trust fetched).isVerified = false :=
      AgentCardReconciler.decideVerified_unwritten hreason
    by_cases hclears : fetchMode a.reconciler x = .plain ∧ a.env.answer .cleanup = none
    · simp [hreason, hclears]
    · simp [hreason, hclears, hunverified, not_denies h]
  · simp [hreason, card_after h hstatus]

end Fetched

theorem fresh_iff_of_fetched {x : Reached} {fetched : FetchResult}
    (h : a.fetched = some (x, fetched)) (hstatus : a.env.answer .status = none) :
    a.Fresh (a.after s) ↔ a.Renews s := by
  constructor
  · rintro ⟨hattested, hverified⟩
    exact ⟨(attested_fresh_iff h hstatus).mp hattested, (verified_fresh_iff h hstatus).mp hverified⟩
  · rintro ⟨hidentity, hcondition⟩
    exact ⟨(attested_fresh_iff h hstatus).mpr hidentity,
      (verified_fresh_iff h hstatus).mpr hcondition⟩

theorem fresh_iff (hcompleted : a.completed s = true) : a.Fresh (a.after s) ↔ a.Renews s := by
  rcases h : a.fetched with _ | ⟨x, fetched⟩
  · exact fresh_iff_of_not_fetched h
  · exact fresh_iff_of_fetched h (status_accepted h hcompleted)

end Rounds

/-- In a run from any status, the completed rounds leave only fresh trust exactly if each of them
renews or takes back the trust that it finds. -/
theorem trust_fresh_iff (s₀ : AgentCardStatus) (rounds : List Round) :
    (∀ v ∈ visits s₀ rounds, v.1.completed v.2 = true → v.1.Fresh (v.1.after v.2)) ↔
      ∀ v ∈ visits s₀ rounds, v.1.completed v.2 = true → v.1.Renews v.2 :=
  forall₂_congr fun _ _ => forall_congr' fun hcompleted => fresh_iff hcompleted

def mTLSRound (answer : Except String FetchResult) : Round where
  reconciler := verifiedFetchReconciler answer
  env := readyEnv
  card := weatherCard weatherSpec
  workloads := weatherWorkloads

/-- The first round attests the identity of the agent. The fetch of the second one fails, and the
identity stays in the status. -/
theorem attested_identity_outlives_fetch :
    ∃ v ∈ visits .empty
      [mTLSRound (.ok ⟨weatherCardData, "spiffe://cluster.local/ns/default/sa/weather", []⟩),
        mTLSRound (.error "connection refused")],
      v.1.completed v.2 = true ∧ ¬ v.1.Fresh (v.1.after v.2) := by
  refine ⟨_, .tail _ (.head _), by decide +kernel, fun hfresh => ?_⟩
  have hstays : ((mTLSRound (.error "connection refused")).after
      ((mTLSRound (.ok ⟨weatherCardData, "spiffe://cluster.local/ns/default/sa/weather", []⟩)).after
        .empty)).attestedAgentSpiffeID ≠ "" := by decide +kernel
  have hnone : (mTLSRound (.error "connection refused")).fetched.isSome = false := by
    decide +kernel
  obtain ⟨x, fetched, hfetched, -⟩ := hfresh.attested hstays
  rw [hfetched] at hnone
  cases hnone

end Round

end Kagenti.Operator.AgentCards
