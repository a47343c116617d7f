import Kagenti.Operator.AgentCards.Rounds
import Kagenti.Operator.NetworkPolicy.Policy

/-!
Stability of the condition Verified over all statuses that the reconciles of an AgentCard persist,
those in the middle of a reconcile included.
-/

namespace Kagenti.Operator.NetworkPolicy

open AgentCards AgentCards.AgentCardStatus

structure StaysVerified (s s' : AgentCardStatus) : Prop where
  condition : s.isVerified = true → s'.isVerified = true
  policy : ∀ (r : PolicyReconciler) (podSelectorLabels : Go.StringMap),
    (r.policySpec s podSelectorLabels).isPermissive = true →
      (r.policySpec s' podSelectorLabels).isPermissive = true

def Stable (statuses : List AgentCardStatus) : Prop := statuses.Pairwise StaysVerified

section Stable

variable {s s' : AgentCardStatus} {statuses : List AgentCardStatus}

theorem staysVerified_iff :
    StaysVerified s s' ↔ (s.isVerified = true → s'.isVerified = true) := by
  refine ⟨StaysVerified.condition, fun h => ⟨h, fun r podSelectorLabels => ?_⟩⟩
  rw [isPermissive_policySpec, isPermissive_policySpec]
  exact h

theorem stable_iff :
    Stable statuses ↔
      statuses.Pairwise fun s s' => s.isVerified = true → s'.isVerified = true :=
  List.Pairwise.iff fun _ _ => staysVerified_iff

theorem stable_cons_of_not_verified (h : s.isVerified = false) :
    Stable (s :: statuses) ↔ Stable statuses := by
  rw [Stable, List.pairwise_cons]
  refine and_iff_right fun s' _ => staysVerified_iff.mpr ?_
  simp [h]

theorem stable_cons_cons (h : s'.isVerified = true) :
    Stable (s :: s' :: statuses) ↔ Stable (s' :: statuses) := by
  refine ⟨List.Pairwise.tail, fun hstable => List.pairwise_cons.mpr ⟨?_, hstable⟩⟩
  intro t ht
  refine staysVerified_iff.mpr fun _ => ?_
  rcases List.mem_cons.mp ht with rfl | ht
  · exact h
  · exact ((List.pairwise_cons.mp hstable).1 t ht).condition h

theorem not_stable (h : s.isVerified = true) (h' : s'.isVerified = false) :
    ¬ Stable (s :: s' :: statuses) := by
  intro hstable
  have hstays := ((List.pairwise_cons.mp hstable).1 s' (by simp)).condition h
  rw [h'] at hstays
  cases hstays

end Stable

/-! Rounds that find a valid signature -/

/-- The trust domain of each strict binding of the card contains the signer. -/
def SignerAccepted (r : AgentCardReconciler) (spec : AgentCardSpec) (signer : String) : Prop :=
  ∀ b ∈ spec.identityBinding, b.strict = true →
    r.trustDomain b ≠ "" ∧ AgentCardReconciler.inTrustDomain (r.trustDomain b) signer = true

/-- The card is fetched, signatures are required, and the signature of the card is valid, by a
signer that the binding accepts unless the workload has proved its identity by mTLS. -/
def SignatureFound (a : Round) : Prop :=
  ∃ x fetched, a.fetched = some (x, fetched) ∧ a.reconciler.requireSignature = true ∧
    (a.reconciler.verifySignature fetched.cardData).verified = true ∧
    (fetched.agentSpiffeID = "" → SignerAccepted a.reconciler a.card.spec
      (a.reconciler.verifySignature fetched.cardData).spiffeID)

def KeepsCondition (a : Round) : Prop :=
  a.reconciler.verifiedFetch = true ∨ a.env.answer .cleanup ≠ none

def trace (s : AgentCardStatus) : List Round → List AgentCardStatus
  | [] => []
  | a :: as => a.persisted s ++ trace (a.after s) as

section Rounds

variable {a : Round} {s : AgentCardStatus} {x : Reached} {fetched : FetchResult}

def fetchedWorld (a : Round) (x : Reached) (s : AgentCardStatus) : AgentCards.World :=
  afterFetch a.reconciler a.env x ⟨{ a.card with status := s }, a.workloads, []⟩

theorem inTrustDomain_ne_empty {domain signer : String}
    (h : AgentCardReconciler.inTrustDomain domain signer = true) : signer ≠ "" := by
  rintro rfl
  simp [AgentCardReconciler.inTrustDomain] at h

theorem bound_iff {r : AgentCardReconciler} {spec : AgentCardSpec} {b : IdentityBinding}
    {signer : String} (hb : spec.identityBinding = some b) :
    (r.computeBinding spec signer).any (·.bound) = true ↔
      r.trustDomain b ≠ "" ∧ AgentCardReconciler.inTrustDomain (r.trustDomain b) signer = true := by
  simp only [AgentCardReconciler.computeBinding, hb, Option.map_some, Option.any_some]
  have := @inTrustDomain_ne_empty (r.trustDomain b) signer
  grind

/-- Such a card gets the condition Verified. -/
theorem isVerified_of_signature (hrequired : a.reconciler.requireSignature = true)
    (hvalid : (a.reconciler.verifySignature fetched.cardData).verified = true) :
    (a.trust fetched).isVerified = true ↔
      (fetched.agentSpiffeID = "" → SignerAccepted a.reconciler a.card.spec
        (a.reconciler.verifySignature fetched.cardData).spiffeID) := by
  rw [Round.trust, ownTrust]
  unfold AgentCardReconciler.evaluateTrust
  by_cases hid : fetched.agentSpiffeID = ""
  · simp only [hid, forall_const, hrequired, if_true, SignerAccepted]
    cases hb : a.card.spec.identityBinding with
    | none => simp [AgentCardReconciler.decideVerified, hb, hvalid]
    | some b =>
      have hbound := @bound_iff a.reconciler a.card.spec b
        (a.reconciler.verifySignature fetched.cardData).spiffeID hb
      simp only [AgentCardReconciler.decideVerified, hb, hvalid,
        AgentCardReconciler.bindingIdentity]
      grind
  · simp [AgentCardReconciler.decideVerified_of_identity hid, hid]

theorem fetchMode_eq_plain {r : AgentCardReconciler} :
    fetchMode r x = .plain ↔ r.verifiedFetch = false := by
  unfold fetchMode
  split_ifs with hfetch <;> simp [hfetch]

theorem stable_fetch {later : List AgentCardStatus} :
    Stable (s :: ((fetchedWorld a x s).written ++ later)) ↔
      (s.isVerified = true → KeepsCondition a) ∧
        Stable ((fetchedWorld a x s).card.status :: later) := by
  have hcleaned : s.cleanedUp.isVerified = false := by
    rw [isVerified_eq, trustFields_cleanedUp]
    rfl
  unfold fetchedWorld afterFetch
  by_cases hclean : fetchMode a.reconciler x = .plain ∧ s.needsCleanup = true ∧
      a.env.answer .cleanup = none
  · rw [if_pos hclean]
    change Stable (s :: s.cleanedUp :: later) ↔ _ ∧ Stable (s.cleanedUp :: later)
    obtain ⟨hplain, -, haccepted⟩ := hclean
    have hkeeps : ¬ KeepsCondition a := by
      simp [KeepsCondition, fetchMode_eq_plain.mp hplain, haccepted]
    cases hs : s.isVerified with
    | true => exact iff_of_false (not_stable hs hcleaned) fun h => hkeeps (h.1 rfl)
    | false =>
      rw [stable_cons_of_not_verified hs]
      simp
  · rw [if_neg hclean]
    refine (and_iff_right fun hs => ?_).symm
    by_contra hkeeps
    simp only [KeepsCondition, not_or, not_not, Bool.not_eq_true] at hkeeps
    refine hclean ⟨fetchMode_eq_plain.mpr hkeeps.1, ?_, hkeeps.2⟩
    -- a verified status has the condition that the cleanup looks for
    rw [isVerified] at hs
    rw [needsCleanup, findCondition]
    cases hfind : findStatusCondition s.conditions conditionVerified with
    | none =>
      rw [hfind] at hs
      cases hs
    | some c => rfl

/-- The main write restores it. -/
theorem stable_sync (hfound : SignatureFound a) (h : a.fetched = some (x, fetched))
    (later : List AgentCardStatus) :
    ∃ written, a.persisted s = (fetchedWorld a x s).written ++ written ∧
      (Stable ((fetchedWorld a x s).card.status :: (written ++ later)) ↔
        Stable (a.after s :: later)) := by
  cases hstatus : a.env.answer .status with
  | some err =>
    have hrefused : a.run s = (.error err, fetchedWorld a x s) := Round.run_of_refused h hstatus
    refine ⟨[], ?_, ?_⟩
    · rw [Round.persisted, hrefused, List.append_nil]
    · rw [Round.after, hrefused, List.nil_append]
  | none =>
    have hsync := @Round.unwritten_of_accepted a s x fetched h hstatus
    refine ⟨[a.after s], ?_, stable_cons_cons ?_⟩
    · rw [Round.persisted, hsync.2, Round.after, hsync.1]
      rfl
    · obtain ⟨x', fetched', h', hrequired, hvalid, haccepted⟩ := hfound
      rw [h] at h'
      cases h'
      have hdecides : a.Decides := ⟨x, fetched, h, .inr (.inl hrequired)⟩
      rw [Round.isVerified_after h hstatus, if_pos ((Round.decides_iff h).mp hdecides)]
      exact (isVerified_of_signature hrequired hvalid).mpr haccepted

end Rounds

/-- In a run in which every round finds a valid signature, the condition Verified is stable over
all persisted statuses exactly if no round that starts with the condition clears it. -/
theorem verified_stable_iff (s₀ : AgentCardStatus) (rounds : List Round)
    (hfound : ∀ a ∈ rounds, SignatureFound a) :
    Stable (s₀ :: trace s₀ rounds) ↔
      ∀ v ∈ Round.visits s₀ rounds, v.2.isVerified = true → KeepsCondition v.1 := by
  induction rounds generalizing s₀ with
  | nil => simp [trace, Round.visits, Stable]
  | cons a as ih =>
    obtain ⟨x, fetched, h, -⟩ := id (hfound a (by simp))
    obtain ⟨written, hpersisted, hsync⟩ :=
      stable_sync (s := s₀) (hfound a (by simp)) h (trace (a.after s₀) as)
    rw [trace, hpersisted, List.append_assoc, stable_fetch, hsync,
      ih (a.after s₀) fun b hb => hfound b (by simp [hb]), Round.visits, List.forall_mem_cons]

def strictBinding : IdentityBinding := { trustDomain := "cluster.local", strict := true }

/-- A signed card with a strict binding. -/
def signedRound (enabled : Bool) : Round where
  reconciler :=
    { verifiedFetchReconciler (.error "no TLS port") with
      enableVerifiedFetch := enabled
      requireSignature := true
      signatureProvider := some fun _ =>
        (some ⟨true, "key", "spiffe://cluster.local/ns/default/sa/weather", "valid", none⟩, none) }
  env := { readyEnv with service := .ok [⟨"http", 8000⟩] }
  card := weatherCard { weatherSpec with identityBinding := some strictBinding }
  workloads := weatherWorkloads

theorem signedRound_found (enabled : Bool) : SignatureFound (signedRound enabled) := by
  obtain ⟨p, h, hsignature, hsigner⟩ : ∃ p ∈ (signedRound enabled).fetched,
      ((signedRound enabled).reconciler.verifySignature p.2.cardData).verified = true ∧
        ((signedRound enabled).reconciler.verifySignature p.2.cardData).spiffeID =
          "spiffe://cluster.local/ns/default/sa/weather" := by
    cases enabled <;> decide +kernel
  refine ⟨p.1, p.2, h, rfl, hsignature, fun _ b hb _ => ?_⟩
  cases hb
  rw [hsigner]
  cases enabled <;> decide +kernel

/-- Two rounds with a signature found, each with the verified fetch enabled. -/
theorem verified_stable_with_verified_fetch :
    Stable (.empty :: trace .empty [signedRound true, signedRound true]) := by
  refine (verified_stable_iff .empty [signedRound true, signedRound true] ?_).mpr ?_
  · intro a ha
    simp only [List.mem_cons, List.not_mem_nil, or_false, or_self] at ha
    rw [ha]
    exact signedRound_found true
  · intro v hv _
    simp only [Round.visits, List.mem_cons, List.not_mem_nil, or_false] at hv
    rcases hv with rfl | rfl
    · exact .inl rfl
    · exact .inl rfl

/-- The second round takes the condition away before it sets it again. -/
theorem cleanup_interrupts_verified :
    (∀ a ∈ [signedRound false, signedRound false], SignatureFound a) ∧
      ¬ Stable (.empty :: trace .empty [signedRound false, signedRound false]) := by
  constructor
  · intro a ha
    simp only [List.mem_cons, List.not_mem_nil, or_false, or_self] at ha
    rw [ha]
    exact signedRound_found false
  · rw [stable_iff]
    decide +kernel

end Kagenti.Operator.NetworkPolicy
