import Kagenti.Operator.AgentCards.Rounds

/-!
Strict identity binding: whether a reconcile sets Verified only for an identity in the trust domain
of the binding.
-/

namespace Kagenti.Operator.AgentCards

open AgentCardStatus AgentCardReconciler

namespace AgentCardStatus

/-- The identity that the condition Verified stands for. -/
def TrustFields.verifiedIdentity (t : TrustFields) : String :=
  match t.verified with
  | none => ""
  | some c => if c.reason = "mTLSVerified" then t.attestedAgentSpiffeID else t.signatureSpiffeID

end AgentCardStatus

structure BoundTo (r : AgentCardReconciler) (spec : AgentCardSpec) (b : IdentityBinding)
    (spiffeID : String) : Prop where
  inDomain : inTrustDomain (r.trustDomain b) spiffeID = true
  bound : ∃ result, r.computeBinding spec spiffeID = some result ∧ result.bound = true

def StrictlyBound (r : AgentCardReconciler) (spec : AgentCardSpec) (t : TrustFields) : Prop :=
  ∀ b, spec.identityBinding = some b → b.strict = true → t.isVerified = true →
    BoundTo r spec b t.verifiedIdentity

section Binding

variable {r : AgentCardReconciler} {spec : AgentCardSpec} {t : TrustFields}

theorem strictlyBound_of_not_verified (h : t.isVerified = false) : StrictlyBound r spec t := by
  intro b _ _ hverified
  rw [h] at hverified
  cases hverified

theorem strictlyBound_card (card : Option Signature.AgentCardData) :
    StrictlyBound r spec { t with card := card } ↔ StrictlyBound r spec t := Iff.rfl

theorem boundTo_of_bound {b : IdentityBinding} {spiffeID : String}
    (hspec : spec.identityBinding = some b)
    (hbound : (r.computeBinding spec spiffeID).any (·.bound) = true) :
    BoundTo r spec b spiffeID := by
  cases hresult : r.computeBinding spec spiffeID with
  | none =>
    rw [hresult] at hbound
    cases hbound
  | some result =>
    rw [hresult] at hbound
    exact ⟨inTrustDomain_of_bound hspec hresult hbound, result, hresult, hbound⟩

end Binding

namespace Round

def Judges (a : Round) : Prop := a.Decides ∧ a.env.answer .status = none

def PeerBound (a : Round) : Prop :=
  ∀ x fetched b, a.fetched = some (x, fetched) → fetched.agentSpiffeID ≠ "" →
    a.card.spec.identityBinding = some b → b.strict = true →
    BoundTo a.reconciler a.card.spec b fetched.agentSpiffeID

section Rounds

variable {a : Round} {s : AgentCardStatus}

section Fetched

variable {x : Reached} {fetched : FetchResult} (h : a.fetched = some (x, fetched))

include h

theorem trustFields_after_of_undecided (hundecided : ¬ a.Judges) :
    ∃ card, (a.after s).trustFields =
      { trustAfterFetch a.reconciler a.env x s.trustFields with card := card } := by
  by_cases hstatus : a.env.answer .status = none
  · have hdecides : ¬ a.Decides := fun hdecides => hundecided ⟨hdecides, hstatus⟩
    have hinactive : ¬ (fetched.agentSpiffeID ≠ "" ∨ a.reconciler.requireSignature = true ∨
        a.reconciler.verifiedFetch = true) := fun hactive => hdecides ⟨x, fetched, h, hactive⟩
    simp only [not_or, not_not, Bool.not_eq_true] at hinactive
    obtain ⟨hid, hrequired, -⟩ := hinactive
    have hreason : (ownTrust a.reconciler a.card fetched).verifiedReason = "" :=
      not_not.mp (mt (decides_iff h).mpr hdecides)
    have hattested : (ownTrust a.reconciler a.card fetched).attestedSpiffeID = "" :=
      decideVerified_attested.trans hid
    have hresult : (ownTrust a.reconciler a.card fetched).verificationResult = none :=
      if_neg (by simp [hrequired])
    refine ⟨some (storedCard a.card x fetched), (trustFields_after_of_fetched h hstatus).trans ?_⟩
    simp only [trustAfterSync, hreason, hattested, hresult, ne_eq, not_true_eq_false, if_false]
  · exact ⟨_, trustFields_after_of_refused h hstatus⟩

variable (hstatus : a.env.answer .status = none)

include hstatus

theorem verified_after (hreason : (a.trust fetched).verifiedReason ≠ "") :
    (a.after s).trustFields.verified =
      some ⟨conditionVerified, (a.trust fetched).verifiedStatus, (a.trust fetched).verifiedReason,
        (a.trust fetched).verifiedMessage⟩ := by
  rw [trustFields_after_of_fetched h hstatus]
  exact if_pos hreason

theorem signer_after {v : Signature.VerificationResult}
    (hresult : (a.trust fetched).verificationResult = some v) (hv : v.verified = true) :
    (a.after s).trustFields.signatureSpiffeID = v.spiffeID := by
  rw [trustFields_after_of_fetched h hstatus]
  unfold trustAfterSync
  dsimp only
  rw [show (ownTrust a.reconciler a.card fetched).verificationResult = some v from hresult]
  exact if_pos hv

theorem strictlyBound_of_peer (hid : fetched.agentSpiffeID ≠ "") :
    StrictlyBound a.reconciler a.card.spec (a.after s).trustFields ↔ a.PeerBound := by
  have hdecision : (a.trust fetched).toDecision = _ := decideVerified_of_identity hid
  have hverified := @verified_after a s x fetched h hstatus (by rw [hdecision]; simp)
  rw [hdecision] at hverified
  have hidentity : (a.after s).trustFields.verifiedIdentity = fetched.agentSpiffeID := by
    rw [TrustFields.verifiedIdentity, hverified]
    exact (attested_after h hstatus).trans (if_pos hid)
  have htrue : (a.after s).trustFields.isVerified = true := by
    rw [TrustFields.isVerified, hverified]
    rfl
  rw [StrictlyBound, hidentity, htrue]
  constructor
  · intro hbound x' fetched' b h' _ hspec hstrict
    rw [h] at h'
    cases h'
    exact hbound b hspec hstrict rfl
  · intro hpeer b hspec hstrict _
    exact hpeer x fetched b h hid hspec hstrict

theorem strictlyBound_of_signature (hid : fetched.agentSpiffeID = "") (hdecides : a.Decides) :
    StrictlyBound a.reconciler a.card.spec (a.after s).trustFields := by
  intro b hspec hstrict htrue
  have hreason := (decides_iff h).mp hdecides
  have hverified := @verified_after a s x fetched h hstatus hreason
  have htrust : (a.trust fetched).isVerified = true := by
    rw [← isVerified_eq, isVerified_after h hstatus, if_pos hreason] at htrue
    exact htrue
  rw [Round.trust, ownTrust, hid] at htrust
  obtain ⟨v, hresult, hv, hsigned, hbound⟩ := evaluateTrust_of_signature htrust
  have htrustEq : a.trust fetched = a.reconciler.evaluateTrust a.card.spec fetched.cardData "" := by
    rw [Round.trust, ownTrust, hid]
  rw [← htrustEq] at hresult hsigned
  have hidentity : (a.after s).trustFields.verifiedIdentity = v.spiffeID := by
    rw [TrustFields.verifiedIdentity, hverified, hsigned]
    exact (if_neg (by simp)).trans (signer_after h hstatus hresult hv)
  rw [hidentity]
  exact boundTo_of_bound hspec (hbound b hspec hstrict)

end Fetched

theorem strictlyBound_of_not_judges (hjudges : ¬ a.Judges) :
    StrictlyBound a.reconciler a.card.spec (a.after s).trustFields ↔
      a.Clears ∨ a.Denies ∨ StrictlyBound a.reconciler a.card.spec s.trustFields := by
  rcases h : a.fetched with _ | ⟨x, fetched⟩
  · have hclears : ¬ a.Clears := by
      rintro ⟨x, fetched, hfetched, -⟩
      rw [h] at hfetched
      cases hfetched
    by_cases hdenies : a.Denies
    · obtain ⟨err, hafter⟩ := @trustFields_after_of_denies a s hdenies
      refine iff_of_true (strictlyBound_of_not_verified ?_) (.inr (.inl hdenies))
      rw [hafter]
      rfl
    · rw [trustFields_after_of_not_fetched h hdenies]
      simp [hclears, hdenies]
  · obtain ⟨card, hafter⟩ := @trustFields_after_of_undecided a s x fetched h hjudges
    rw [hafter, strictlyBound_card, clears_iff h]
    by_cases hclears : fetchMode a.reconciler x = .plain ∧ a.env.answer .cleanup = none
    · refine iff_of_true (strictlyBound_of_not_verified ?_) (.inl hclears)
      rw [trustAfterFetch, if_pos hclears]
      rfl
    · rw [trustAfterFetch, if_neg hclears]
      simp [hclears, not_denies h]

end Rounds

/-- A reconcile leaves the condition Verified with the status True only for an identity that a
strict binding admits, exactly if a decision that it writes is not for a peer outside of it, and
the status that it finds meets the binding where the reconcile neither decides nor takes back the
trust. -/
theorem strict_binding_iff (a : Round) (s : AgentCardStatus) :
    StrictlyBound a.reconciler a.card.spec (a.after s).trustFields ↔
      (a.Judges → a.PeerBound) ∧
        (¬ a.Judges → a.Clears ∨ a.Denies ∨
          StrictlyBound a.reconciler a.card.spec s.trustFields) := by
  by_cases hjudges : a.Judges
  · obtain ⟨hdecides, hstatus⟩ := id hjudges
    obtain ⟨x, fetched, h, -⟩ := id hdecides
    simp only [hjudges, true_imp_iff, not_true_eq_false, false_imp_iff, and_true]
    by_cases hid : fetched.agentSpiffeID = ""
    · refine iff_of_true (strictlyBound_of_signature h hstatus hid hdecides) ?_
      intro x' fetched' b h' hid'
      rw [h] at h'
      cases h'
      exact absurd hid hid'
    · exact strictlyBound_of_peer h hstatus hid
  · simp only [hjudges, false_imp_iff, not_false_eq_true, true_imp_iff, true_and]
    exact strictlyBound_of_not_judges hjudges

def foreignPeerRound : Round where
  reconciler := verifiedFetchReconciler
    (.ok ⟨weatherCardData, "spiffe://cluster.local/ns/default/sa/weather", []⟩)
  env := readyEnv
  card := weatherCard { weatherSpec with identityBinding := some ⟨"prod.example", true⟩ }
  workloads := weatherWorkloads

/-- The condition Verified is True for this peer, though it is not in the trust domain. -/
theorem peer_outside_strict_binding :
    ¬ StrictlyBound foreignPeerRound.reconciler foreignPeerRound.card.spec
      (foreignPeerRound.after .empty).trustFields := by
  intro hbound
  have hverified : (foreignPeerRound.after .empty).trustFields.isVerified = true := by
    decide +kernel
  have houtside : inTrustDomain (foreignPeerRound.reconciler.trustDomain ⟨"prod.example", true⟩)
      (foreignPeerRound.after .empty).trustFields.verifiedIdentity = false := by decide +kernel
  have hinside := (hbound ⟨"prod.example", true⟩ rfl rfl hverified).inDomain
  cases hinside

end Round

end Kagenti.Operator.AgentCards
