import Kagenti.Operator.AgentCards.Outcome

/-!
Runs of reconciles of one AgentCard. Between two reconciles everything but the status of the card
can change.
-/

namespace Kagenti.Operator.AgentCards

open Lib Lib.Fallible AgentCardStatus

/-- One reconcile and what it finds, except for the status. -/
structure Round where
  reconciler : AgentCardReconciler
  env : Env
  card : AgentCard
  workloads : Workloads

namespace Round

variable (a : Round) (s : AgentCardStatus)

def run : Except String Result × World :=
  (reconcile a.reconciler a.env).runFrom ⟨{ a.card with status := s }, a.workloads, []⟩

def start : World := ⟨{ a.card with status := s }, a.workloads, []⟩

def after : AgentCardStatus := (a.run s).2.card.status

def persisted : List AgentCardStatus := (a.run s).2.written

def completed : Bool := (a.run s).1.isOk

def fetched : Option (Reached × FetchResult) :=
  if Live a.card then
    (reached a.env a.card).bind fun x =>
      (fetchAnswer a.reconciler a.card x).toOption.map fun fetched => (x, fetched)
  else none

def trust (fetched : FetchResult) : TrustEvaluation := ownTrust a.reconciler a.card fetched

/-- The rounds of a run, each with the status that it starts from. -/
def visits (s : AgentCardStatus) : List Round → List (Round × AgentCardStatus)
  | [] => []
  | a :: as => (a, s) :: visits (a.after s) as

/-! What a round does about the trust that it finds -/

def Denies : Prop :=
  Live a.card ∧ ∃ x err, reached a.env a.card = some x ∧
    fetchAnswer a.reconciler a.card x = .error err ∧ fetchMode a.reconciler x = .authenticated ∧
    a.env.answer .synced = none ∧ a.env.answer .verified = none

def Attests : Prop :=
  ∃ x fetched, a.fetched = some (x, fetched) ∧ fetched.agentSpiffeID ≠ ""

def Decides : Prop :=
  ∃ x fetched, a.fetched = some (x, fetched) ∧
    (fetched.agentSpiffeID ≠ "" ∨ a.reconciler.requireSignature = true ∨
      a.reconciler.verifiedFetch = true)

def Clears : Prop :=
  ∃ x fetched, a.fetched = some (x, fetched) ∧ fetchMode a.reconciler x = .plain ∧
    a.env.answer .cleanup = none

variable {a s} {x : Reached}

theorem fetched_eq_some {fetched : FetchResult} : a.fetched = some (x, fetched) ↔
      Live a.card ∧ reached a.env a.card = some x ∧
        fetchAnswer a.reconciler a.card x = .ok fetched := by
  unfold Round.fetched
  split_ifs with hlive
  · simp only [hlive, true_and, Option.bind_eq_some_iff, Option.map_eq_some_iff, Prod.mk.injEq]
    constructor
    · rintro ⟨x', hx, fetched', hanswer, rfl, rfl⟩
      refine ⟨hx, ?_⟩
      cases h : fetchAnswer a.reconciler a.card x' <;> simp_all [Except.toOption]
    · rintro ⟨hx, hanswer⟩
      exact ⟨x, hx, fetched, by simp [hanswer, Except.toOption], rfl, rfl⟩
  · simp [hlive]

theorem trustFields_after (hlive : Live a.card) :
    (a.after s).trustFields = trustAfter a.reconciler a.env a.card s.trustFields :=
  @holds_reconcile a.reconciler a.env (a.start s) hlive

theorem after_of_not_live (hlive : ¬ Live a.card) : a.after s = s :=
  (@reconcile_not_live a.reconciler a.env (a.start s) hlive).1

section Fetched

variable {fetched : FetchResult} (h : a.fetched = some (x, fetched))

include h

theorem run_of_fetched :
    a.run s =
      (syncCard a.reconciler a.env { a.card with status := s } x.protocol (x.serviceURL a.card)
        x.workload fetched).runFrom (afterFetch a.reconciler a.env x (a.start s)) := by
  obtain ⟨hlive, hx, hanswer⟩ := fetched_eq_some.mp h
  exact @reconcile_fetched a.reconciler a.env x (a.start s) fetched hlive hx hanswer

theorem run_of_refused {err : String} (hstatus : a.env.answer .status = some err) :
    a.run s = (.error err, afterFetch a.reconciler a.env x (a.start s)) := by
  rw [run_of_fetched h]
  exact syncCard_refused hstatus fetched _

theorem trustFields_after_of_refused (hstatus : a.env.answer .status ≠ none) :
    (a.after s).trustFields = trustAfterFetch a.reconciler a.env x s.trustFields := by
  obtain ⟨hlive, hx, hanswer⟩ := fetched_eq_some.mp h
  rw [trustFields_after hlive]
  simp only [trustAfter, hx, hanswer, if_neg hstatus]

theorem status_accepted (hcompleted : a.completed s = true) : a.env.answer .status = none := by
  by_contra hrefused
  obtain ⟨err, herr⟩ := Option.ne_none_iff_exists'.mp hrefused
  rw [completed, run_of_refused h herr] at hcompleted
  cases hcompleted

theorem exists_fetched_iff (P : Reached → FetchResult → Prop) :
    (∃ x' fetched', a.fetched = some (x', fetched') ∧ P x' fetched') ↔ P x fetched := by
  constructor
  · grind
  · intro hP
    exact ⟨x, fetched, h, hP⟩

theorem attests_iff : a.Attests ↔ fetched.agentSpiffeID ≠ "" :=
  exists_fetched_iff h fun _ fetched => fetched.agentSpiffeID ≠ ""

theorem clears_iff : a.Clears ↔ fetchMode a.reconciler x = .plain ∧ a.env.answer .cleanup = none :=
  exists_fetched_iff h fun x _ => fetchMode a.reconciler x = .plain ∧ a.env.answer .cleanup = none

theorem decides_iff : a.Decides ↔ (a.trust fetched).verifiedReason ≠ "" := by
  have hresult : (a.trust fetched).verificationResult.isSome = true ↔
      a.reconciler.requireSignature = true := by
    simp [Round.trust, ownTrust, AgentCardReconciler.evaluateTrust]
  have hactive := exists_fetched_iff h fun _ fetched => fetched.agentSpiffeID ≠ "" ∨
    a.reconciler.requireSignature = true ∨ a.reconciler.verifiedFetch = true
  refine hactive.trans ?_
  rw [← hresult]
  exact AgentCardReconciler.decideVerified_reason.symm

theorem not_denies : ¬ a.Denies := by
  rintro ⟨-, x', err, hx', herr, -⟩
  obtain ⟨-, hx, hanswer⟩ := fetched_eq_some.mp h
  rw [hx] at hx'
  cases hx'
  rw [hanswer] at herr
  cases herr

variable (hstatus : a.env.answer .status = none)

include hstatus

theorem unwritten_of_accepted :
    Unwritten (afterSync a.reconciler a.env { a.card with status := s } x fetched
      (afterFetch a.reconciler a.env x (a.start s))) (a.run s).2 := by
  rw [run_of_fetched h]
  exact syncCard_accepted hstatus fetched _

theorem trustFields_after_of_fetched :
    (a.after s).trustFields =
      trustAfterSync a.reconciler a.card x fetched
        (trustAfterFetch a.reconciler a.env x s.trustFields) := by
  obtain ⟨hlive, hx, hanswer⟩ := fetched_eq_some.mp h
  rw [trustFields_after hlive]
  simp only [trustAfter, hx, hanswer, hstatus, if_true]

theorem attested_after :
    (a.after s).attestedAgentSpiffeID =
      if fetched.agentSpiffeID ≠ "" then fetched.agentSpiffeID
      else if fetchMode a.reconciler x = .plain ∧ a.env.answer .cleanup = none then ""
      else s.attestedAgentSpiffeID := by
  have hafter := congrArg TrustFields.attestedAgentSpiffeID
    (@trustFields_after_of_fetched a s x fetched h hstatus)
  have hid : (ownTrust a.reconciler a.card fetched).attestedSpiffeID = fetched.agentSpiffeID :=
    AgentCardReconciler.decideVerified_attested
  refine hafter.trans ?_
  simp only [trustAfterSync, hid, trustAfterFetch]
  split_ifs <;> rfl

theorem isVerified_after :
    (a.after s).isVerified =
      if (a.trust fetched).verifiedReason ≠ "" then (a.trust fetched).isVerified
      else if fetchMode a.reconciler x = .plain ∧ a.env.answer .cleanup = none then false
      else s.isVerified := by
  have hafter := congrArg TrustFields.verified
    (@trustFields_after_of_fetched a s x fetched h hstatus)
  have hdecided : decide ((a.trust fetched).verifiedStatus = .conditionTrue) =
      (a.trust fetched).isVerified := by
    rw [Bool.eq_iff_iff, decide_eq_true_iff]
    exact AgentCardReconciler.decideVerified_status
  rw [isVerified_eq, isVerified_eq, TrustFields.isVerified, hafter, ← hdecided]
  change Option.any _ (if (a.trust fetched).verifiedReason ≠ "" then _ else _) = _
  rw [trustAfterFetch]
  split_ifs <;> rfl

theorem card_after : (a.after s).card = some (storedCard a.card x fetched) :=
  congrArg TrustFields.card (@trustFields_after_of_fetched a s x fetched h hstatus)

end Fetched

theorem trustFields_after_of_denies (h : a.Denies) :
    ∃ err, (a.after s).trustFields =
      { s.trustFields with
        verified := some ⟨conditionVerified, .conditionFalse, "FetchFailed", err⟩ } := by
  obtain ⟨hlive, x, err, hx, hanswer, hdenied⟩ := h
  refine ⟨err, ?_⟩
  rw [trustFields_after hlive]
  simp only [trustAfter, hx, hanswer]
  exact if_pos hdenied

theorem trustFields_after_of_not_fetched (h : a.fetched = none) (hdenies : ¬ a.Denies) :
    (a.after s).trustFields = s.trustFields := by
  by_cases hlive : Live a.card
  · rw [trustFields_after hlive]
    rcases hx : reached a.env a.card with _ | x
    · simp only [trustAfter, hx]
    · rcases hanswer : fetchAnswer a.reconciler a.card x with err | fetched
      · simp only [trustAfter, hx, hanswer]
        exact if_neg fun hdenied => hdenies ⟨hlive, x, err, hx, hanswer, hdenied⟩
      · rw [fetched_eq_some.mpr ⟨hlive, hx, hanswer⟩] at h
        cases h
  · rw [after_of_not_live hlive]

theorem after_of_not_fetched (h : a.fetched = none) :
    (a.after s).attestedAgentSpiffeID = s.attestedAgentSpiffeID ∧
      ((a.after s).isVerified = true ↔ s.isVerified = true ∧ ¬ a.Denies) := by
  by_cases hdenies : a.Denies
  · obtain ⟨err, hafter⟩ := @trustFields_after_of_denies a s hdenies
    refine ⟨congrArg TrustFields.attestedAgentSpiffeID hafter, ?_⟩
    simp [isVerified_eq, hafter, TrustFields.isVerified, hdenies]
  · have hafter := @trustFields_after_of_not_fetched a s h hdenies
    refine ⟨congrArg TrustFields.attestedAgentSpiffeID hafter, ?_⟩
    rw [isVerified_eq, hafter, ← isVerified_eq]
    exact (and_iff_left hdenies).symm

end Round

/-! A card of a workload that is ready, for runs on fixed answers -/

def weatherCardData : Signature.AgentCardData where
  name := "weather"

def weatherSpec : AgentCardSpec where
  syncPeriod := "30s"
  targetRef := some ⟨"apps/v1", "Deployment", "weather"⟩
  identityBinding := none
  sigstoreVerification := none

def weatherCard (spec : AgentCardSpec) : AgentCard where
  name := "weather-card"
  ns := "default"
  deleting := false
  finalizers := [agentCardFinalizer]
  spec := spec
  status := .empty

def readyEnv : Env where
  now := 0
  target := .ok
    { labels := [⟨labelAgentType, labelValueAgent⟩, ⟨"protocol.kagenti.io/a2a", ""⟩].toAList
      conditions := [("Available", "True")]
      readyReplicas := none
      replicas := none }
  service := .ok [⟨"http", 8000⟩, ⟨agentTLSPortName, 8443⟩]
  answer := fun _ => none

def weatherWorkloads : Workloads := [⟨⟨.deployment, "default", "weather"⟩, ⟨∅, ∅⟩⟩].toAList

def verifiedFetchReconciler (answer : Except String FetchResult) : AgentCardReconciler where
  agentFetcher := fun _ _ _ _ => .ok (weatherCardData, [])
  authenticatedFetcher := some fun _ _ => answer
  enableVerifiedFetch := true
  signatureProvider := none
  requireSignature := false
  signatureAuditMode := false
  bundleVerifier := none
  enableSigstoreVerification := false
  sigstoreAuditMode := false
  spireTrustDomain := "cluster.local"
  computeCardID := fun _ => "id"
  parseDuration := fun _ => none

end Kagenti.Operator.AgentCards
