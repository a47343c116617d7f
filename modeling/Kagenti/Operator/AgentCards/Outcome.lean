import Kagenti.Operator.AgentCards.Reconcile

/-!
What one reconcile of an AgentCard leaves in the trust fields of the status.
-/

namespace Kagenti.Operator.AgentCards

open Lib Lib.Fallible

/-! How far a reconcile gets -/

structure Reached where
  workload : WorkloadInfo
  protocol : String
  service : List ServicePort

def Reached.serviceURL (x : Reached) (card : AgentCard) : String :=
  getServiceURL x.workload.serviceName card.ns (getServicePort x.service)

/-- The reconcile of this card gets as far as the fetch. -/
def reached (env : Env) (card : AgentCard) : Option Reached :=
  match getWorkload env card with
  | .error _ => none
  | .ok workload =>
    if !workload.ready then none
    else if getWorkloadProtocol workload.labels = "" then none
    else
      match env.service with
      | .error _ => none
      | .ok service => some ⟨workload, getWorkloadProtocol workload.labels, service⟩

/-- The card is not being deleted and has the finalizer. -/
def Live (card : AgentCard) : Prop :=
  card.deleting = false ∧ card.finalizers.contains agentCardFinalizer = true

instance (card : AgentCard) : Decidable (Live card) := inferInstanceAs (Decidable (_ ∧ _))

/-- Which of its three ways a reconcile fetches by. -/
inductive FetchMode where
  | authenticated
  | fallback
  | plain
  deriving DecidableEq

def fetchMode (r : AgentCardReconciler) (x : Reached) : FetchMode :=
  if r.verifiedFetch then
    if getAgentTLSPort x.service > 0 then .authenticated else .fallback
  else .plain

def fetchAnswer (r : AgentCardReconciler) (card : AgentCard) (x : Reached) :
    Except String FetchResult :=
  match r.enableVerifiedFetch, r.authenticatedFetcher with
  | true, some fetchAuthenticated =>
    if getAgentTLSPort x.service > 0 then
      fetchAuthenticated x.protocol
        (getSecureServiceURL x.workload.serviceName card.ns (getAgentTLSPort x.service))
    else plainFetch r x.protocol (x.serviceURL card) x.workload.serviceName card.ns
  | _, _ => plainFetch r x.protocol (x.serviceURL card) x.workload.serviceName card.ns

def ownTrust (r : AgentCardReconciler) (card : AgentCard) (fetched : FetchResult) :
    TrustEvaluation :=
  r.evaluateTrust card.spec fetched.cardData fetched.agentSpiffeID

def storedCard (card : AgentCard) (x : Reached) (fetched : FetchResult) : Signature.AgentCardData :=
  { fetched.cardData with url := x.serviceURL card }

variable {x : Reached} {card : AgentCard}

theorem authenticated_of_identity {r : AgentCardReconciler} {fetched : FetchResult}
    (hanswer : fetchAnswer r card x = .ok fetched) (hid : fetched.agentSpiffeID ≠ "") :
    fetchMode r x = .authenticated := by
  have hplain (protocol serviceURL agentName ns : String)
      (h : plainFetch r protocol serviceURL agentName ns = .ok fetched) : False := by
    unfold plainFetch at h
    rcases hfetch : r.agentFetcher protocol serviceURL agentName ns with _ | ⟨cardData, raw⟩
    · rw [hfetch] at h
      cases h
    · rw [hfetch] at h
      cases h
      exact hid rfl
  revert hanswer
  fun_cases fetchAnswer with
  | case1 _ hfetcher henabled htls =>
    simp [fetchMode, AgentCardReconciler.verifiedFetch, henabled, hfetcher, htls]
  | _ => exact fun hanswer => (hplain _ _ _ _ hanswer).elim

def failFetch (r : AgentCardReconciler) (env : Env) (x : Reached) (err : String) : Op FetchResult := do
  updateCondition env .synced ⟨"Synced", .conditionFalse, "FetchFailed", err⟩
  if fetchMode r x = .authenticated then
    updateCondition env .verified ⟨conditionVerified, .conditionFalse, "FetchFailed", err⟩
  throw err

def finishFetch (r : AgentCardReconciler) (env : Env) (x : Reached) (fetched : FetchResult) :
    Op FetchResult := do
  if fetchMode r x = .plain then
    let _ ← (cleanupVerifiedFetchFields env).attempt
  return fetched

theorem fetchCardData_eq (r : AgentCardReconciler) (env : Env) (card : AgentCard) (x : Reached) :
    fetchCardData r env card x.protocol (x.serviceURL card) x.workload x.service =
      match fetchAnswer r card x with
      | .error err => failFetch r env x err
      | .ok fetched => finishFetch r env x fetched := by
  rcases henabled : r.enableVerifiedFetch with _ | _
  · have hmode : fetchMode r x = .plain := by simp [fetchMode, AgentCardReconciler.verifiedFetch, henabled]
    simp only [fetchCardData, fetchAnswer, failFetch, finishFetch, henabled, hmode]
    rfl
  · rcases hfetcher : r.authenticatedFetcher with _ | fetchAuthenticated
    · have hmode : fetchMode r x = .plain := by
        simp [fetchMode, AgentCardReconciler.verifiedFetch, hfetcher]
      simp only [fetchCardData, fetchAnswer, failFetch, finishFetch, henabled, hfetcher, hmode]
      rfl
    · by_cases htls : getAgentTLSPort x.service > 0
      · have hmode : fetchMode r x = .authenticated := by
          simp [fetchMode, AgentCardReconciler.verifiedFetch, henabled, hfetcher, htls]
        simp only [fetchCardData, fetchAnswer, failFetch, finishFetch, henabled, hfetcher, hmode,
          if_pos htls]
        rfl
      · have hmode : fetchMode r x = .fallback := by
          simp [fetchMode, AgentCardReconciler.verifiedFetch, henabled, hfetcher, htls]
        simp only [fetchCardData, fetchAnswer, failFetch, finishFetch, henabled, hfetcher, hmode,
          if_neg htls]
        rfl

def afterAttempt (r : AgentCardReconciler) (env : Env) (card : AgentCard) (x : Reached) :
    Except String FetchResult → Op Result
  | .error _ => do
      updateCondition env .ready ⟨"Ready", .conditionFalse, "SyncFailed", "Agent card fetch failed"⟩
      return ⟨minute⟩
  | .ok fetched => syncCard r env card x.protocol (x.serviceURL card) x.workload fetched

theorem of_reached {env : Env} (hx : reached env card = some x) :
    getWorkload env card = .ok x.workload ∧ x.workload.ready = true ∧ x.protocol ≠ "" ∧
      env.service = .ok x.service ∧ x.protocol = getWorkloadProtocol x.workload.labels := by
  revert hx
  fun_cases reached <;> rintro ⟨⟩
  next workload hworkload hready hprotocol service hservice =>
    exact ⟨hworkload, by simpa using hready, hprotocol, hservice, rfl⟩

theorem reconcileCard_of_reached (r : AgentCardReconciler) {env : Env}
    (hx : reached env card = some x) : reconcileCard r env card =
      (fetchCardData r env card x.protocol (x.serviceURL card) x.workload x.service).attempt >>=
        afterAttempt r env card x := by
  obtain ⟨hworkload, hready, hprotocol, hservice, hlabel⟩ := of_reached hx
  simp only [reconcileCard, hworkload, hready, hprotocol, hservice, ← hlabel]
  refine bind_congr fun answer => ?_
  cases answer <;> rfl

/-! Writes that leave the status or its trust fields alone -/

/-- The status is that of `w₀`, and none was persisted since. -/
def Unwritten (w₀ w : World) : Prop := w.card.status = w₀.card.status ∧ w.written = w₀.written

def Holds (t : AgentCardStatus.TrustFields) (w : World) : Prop := w.card.status.trustFields = t

section Keeps

variable {r : AgentCardReconciler} {env : Env} {card : AgentCard} {w₀ : World}
  {t : AgentCardStatus.TrustFields}

variable (write : Write)

theorem keeps_setFinalizers (f : List String → List String) :
    Keeps (Unwritten w₀) (setFinalizers env write f) := by
  refine .access fun w hw => ?_
  cases env.answer write <;> exact hw

theorem keeps_writeWorkload (key : WorkloadKey)
    (f : PodWorkload → Option PodWorkload) (missing : Except String Unit) :
    Keeps (Unwritten w₀) (writeWorkload env write key f missing) := by
  refine .access fun w hw => ?_
  split
  · exact hw
  · exact hw
  · split <;> exact hw

theorem keeps_propagateSignatureLabel (cardName : String) (workload : WorkloadInfo)
    (verified : Bool) :
    Keeps (Unwritten w₀) (propagateSignatureLabel env cardName workload verified) := by
  unfold propagateSignatureLabel
  split
  · exact .pure ()
  · exact keeps_writeWorkload _ _ _ _

theorem keeps_cleanupPerCardAnno :
    Keeps (Unwritten w₀) (cleanupPerCardAnno env card) := by
  unfold cleanupPerCardAnno
  split
  · exact .pure ()
  · split
    · exact .pure ()
    · exact .bind (keeps_writeWorkload _ _ _ _).attempt fun _ => Keeps.pure ()

theorem keeps_handleDeletion : Keeps (Unwritten w₀) (handleDeletion env card) := by
  unfold handleDeletion
  split
  · exact .bind keeps_cleanupPerCardAnno fun _ =>
      Keeps.bind (keeps_setFinalizers _ _) fun _ => Keeps.pure _
  · exact .pure _

theorem keeps_writeStatus {f : AgentCardStatus → AgentCardStatus}
    (hf : ∀ s, (f s).trustFields = s.trustFields) : Keeps (Holds t) (writeStatus env write f) := by
  refine .access fun w hw => ?_
  cases env.answer write with
  | none => exact (hf _).trans hw
  | some err => exact hw

theorem keeps_updateCondition {new : NewCondition}
    (hne : conditionVerified ≠ new.type) : Keeps (Holds t) (updateCondition env write new) :=
  keeps_writeStatus write fun _ => AgentCardStatus.trustFields_setCondition hne

theorem satisfies_reconcileCard {P I : World → Prop} (hx : reached env card = none)
    (hsynced : ∀ reason message, Satisfies P
      (updateCondition env .synced ⟨"Synced", .conditionFalse, reason, message⟩) (fun _ => I) I)
    (hbinding : ∀ binding, Keeps I (writeStatus env .binding (·.applyBinding env.now binding))) :
    Satisfies P (reconcileCard r env card) (fun _ => I) I := by
  have hstop (reason message : String) (result : Result) : Satisfies P (do
      updateCondition env .synced ⟨"Synced", .conditionFalse, reason, message⟩
      return result : Op Result) (fun _ => I) I :=
    Satisfies.bind (hsynced reason message) fun _ => Keeps.pure _
  revert hx
  unfold reconcileCard
  fun_cases reached with
  | case1 err hworkload =>
    intro _
    rw [hworkload]
    refine Satisfies.bind (hsynced _ _) fun _ => ?_
    split
    · exact Keeps.bind (hbinding _) fun _ => Keeps.pure _
    · exact Keeps.pure _
  | case5 => exact nofun
  | _ =>
    intro _
    simp only [*, if_true, if_false, Bool.false_eq_true]

theorem holds_reconcileCard (hx : reached env card = none) :
    Keeps (Holds t) (reconcileCard r env card) := by
  refine satisfies_reconcileCard hx ?_ ?_
  · exact fun _ _ => keeps_updateCondition .synced (by simp [conditionVerified])
  · exact fun _ => keeps_writeStatus .binding fun _ => AgentCardStatus.trustFields_applyBinding _

end Keeps

/-! The trust fields after a reconcile -/

section Trust

variable (r : AgentCardReconciler) (env : Env) (card : AgentCard) (x : Reached)

open AgentCardStatus

def trustAfterFailure (err : String) (t : TrustFields) : TrustFields :=
  if fetchMode r x = .authenticated ∧ env.answer .synced = none ∧ env.answer .verified = none then
    { t with verified := some ⟨conditionVerified, .conditionFalse, "FetchFailed", err⟩ }
  else t

def trustAfterFetch (t : TrustFields) : TrustFields :=
  if fetchMode r x = .plain ∧ env.answer .cleanup = none then
    { t with verified := none, attestedAgentSpiffeID := "" }
  else t

def trustAfterSync (fetched : FetchResult) (t : TrustFields) : TrustFields :=
  let trust := ownTrust r card fetched
  { card := some (storedCard card x fetched)
    verified :=
      if trust.verifiedReason ≠ "" then
        some ⟨conditionVerified, trust.verifiedStatus, trust.verifiedReason, trust.verifiedMessage⟩
      else t.verified
    attestedAgentSpiffeID :=
      if trust.attestedSpiffeID ≠ "" then trust.attestedSpiffeID else t.attestedAgentSpiffeID
    signatureSpiffeID :=
      match trust.verificationResult with
      | none => t.signatureSpiffeID
      | some v => if v.verified then v.spiffeID else "" }

def trustAfter (t : TrustFields) : TrustFields :=
  match reached env card with
  | none => t
  | some x =>
    match fetchAnswer r card x with
    | .error err => trustAfterFailure r env x err t
    | .ok fetched =>
      if env.answer .status = none then
        trustAfterSync r card x fetched (trustAfterFetch r env x t)
      else trustAfterFetch r env x t

variable {r env card x} {write : Write} {err : String}

theorem writeStatus_refused (hrefused : env.answer write = some err)
    (f : AgentCardStatus → AgentCardStatus) (w : World) :
    (writeStatus env write f).runFrom w = (.error err, w) := by
  rw [writeStatus, runFrom_access]
  simp only [hrefused]

theorem writeStatus_accepted (haccepted : env.answer write = none)
    (f : AgentCardStatus → AgentCardStatus) (w : World) :
    (writeStatus env write f).runFrom w = (.ok (), w.persist (f w.card.status)) := by
  rw [writeStatus, runFrom_access]
  simp only [haccepted]

theorem runFrom_getCard {α : Type} (f : AgentCard → Op α) (w : World) :
    (getCard >>= f).runFrom w = (f w.card).runFrom w :=
  rfl

theorem runFrom_cleanup (w : World) :
    ((cleanupVerifiedFetchFields env).runFrom w).2 =
      if w.card.status.needsCleanup ∧ env.answer .cleanup = none then
        w.persist w.card.status.cleanedUp
      else w := by
  rw [cleanupVerifiedFetchFields, runFrom_getCard]
  by_cases hneeds : w.card.status.needsCleanup
  · rw [if_pos hneeds, writeStatus, runFrom_access]
    cases env.answer .cleanup <;> simp [hneeds]
  · rw [if_neg hneeds, runFrom_pure]
    simp [hneeds]

def afterFetch (r : AgentCardReconciler) (env : Env) (x : Reached) (w : World) : World :=
  if fetchMode r x = .plain ∧ w.card.status.needsCleanup ∧ env.answer .cleanup = none then
    w.persist w.card.status.cleanedUp
  else w

variable (fetched : FetchResult)

theorem runFrom_finishFetch (w : World) :
    (finishFetch r env x fetched).runFrom w = (.ok fetched, afterFetch r env x w) := by
  unfold finishFetch
  by_cases hmode : fetchMode r x = .plain
  · rw [if_pos hmode, afterFetch]
    simp only [hmode, true_and]
    rw [← runFrom_cleanup]
    rfl
  · rw [if_neg hmode, afterFetch, if_neg fun h => hmode h.1]
    rfl

theorem holds_afterFetch (w : World) :
    Holds (trustAfterFetch r env x w.card.status.trustFields) (afterFetch r env x w) := by
  by_cases hclean : fetchMode r x = .plain ∧ env.answer .cleanup = none
  · obtain ⟨hmode, haccepted⟩ := hclean
    by_cases hneeds : w.card.status.needsCleanup
    · rw [trustAfterFetch, if_pos ⟨hmode, haccepted⟩, afterFetch, if_pos ⟨hmode, hneeds, haccepted⟩]
      exact trustFields_cleanedUp
    · rw [trustAfterFetch, if_pos ⟨hmode, haccepted⟩, afterFetch, if_neg fun h => hneeds h.2.1]
      -- nothing is there that the write would have cleared
      simp only [needsCleanup, Bool.or_eq_true, not_or, Bool.not_eq_true, Option.isSome_eq_false_iff,
        Option.isNone_iff_eq_none, decide_eq_true_eq, not_not] at hneeds
      obtain ⟨hverified, hattested⟩ := hneeds
      simp only [Holds, trustFields, hverified, hattested, Option.map_none]
  · rw [trustAfterFetch, if_neg hclean, afterFetch, if_neg fun h => hclean ⟨h.1, h.2.2⟩]
    rfl

theorem runFrom_failFetch (err : String) (w : World) :
    ∃ e w', (failFetch r env x err).runFrom w = (.error e, w') ∧
      Holds (trustAfterFailure r env x err w.card.status.trustFields) w' := by
  have hsame (hnot : ¬ (fetchMode r x = .authenticated ∧ env.answer .synced = none ∧
      env.answer .verified = none)) (t : TrustFields) : trustAfterFailure r env x err t = t :=
    if_neg hnot
  have hfield : ∀ s : AgentCardStatus, (s.setCondition env.now
      ⟨"Synced", .conditionFalse, "FetchFailed", err⟩).trustFields = s.trustFields :=
    fun _ => trustFields_setCondition (by simp [conditionVerified])
  unfold failFetch updateCondition
  cases hsynced : env.answer .synced with
  | some e =>
    rw [runFrom_bind, writeStatus_refused hsynced, hsame (by simp [hsynced])]
    exact ⟨e, w, rfl, rfl⟩
  | none =>
    rw [runFrom_bind, writeStatus_accepted hsynced]
    by_cases hmode : fetchMode r x = .authenticated
    · simp only [if_pos hmode]
      cases hverified : env.answer .verified with
      | some e =>
        rw [runFrom_bind, writeStatus_refused hverified, hsame (by simp [hverified])]
        exact ⟨e, _, rfl, hfield _⟩
      | none =>
        rw [runFrom_bind, writeStatus_accepted hverified, trustAfterFailure,
          if_pos ⟨hmode, hsynced, hverified⟩]
        refine ⟨err, _, rfl, ?_⟩
        refine (trustFields_setCondition_verified _ _ _).trans ?_
        rw [World.persist, hfield]
    · simp only [if_neg hmode]
      rw [hsame (by simp [hmode])]
      exact ⟨err, _, rfl, hfield _⟩

def afterSync (r : AgentCardReconciler) (env : Env) (card : AgentCard) (x : Reached)
    (fetched : FetchResult) (w : World) : World :=
  let cardData := storedCard card x fetched
  w.persist (w.card.status.updated env.now r cardData x.protocol (r.computeCardID cardData)
    ⟨x.workload.apiVersion, x.workload.kind, x.workload.name⟩ (ownTrust r card fetched)
    (verifyBundle r card.spec fetched))

variable {w : World}

theorem holds_afterSync {t : TrustFields} (hw : Holds t w) :
    Holds (trustAfterSync r card x fetched t) (afterSync r env card x fetched w) := by
  rw [Holds, afterSync, World.persist, trustFields_updated, hw]
  rfl

theorem syncCard_refused (hrefused : env.answer .status = some err) (fetched : FetchResult)
    (w : World) :
    (syncCard r env card x.protocol (x.serviceURL card) x.workload fetched).runFrom w =
      (.error err, w) := by
  unfold syncCard
  rw [runFrom_bind, writeStatus_refused hrefused]

theorem syncCard_eq (haccepted : env.answer .status = none) (fetched : FetchResult) (w : World) :
    (syncCard r env card x.protocol (x.serviceURL card) x.workload fetched).runFrom w =
      (labelWorkload r env card x.workload (ownTrust r card fetched)).runFrom
        (afterSync r env card x fetched w) := by
  unfold syncCard
  rw [runFrom_bind, writeStatus_accepted haccepted]
  rfl

theorem syncCard_accepted (haccepted : env.answer .status = none) (fetched : FetchResult)
    (w : World) :
    Unwritten (afterSync r env card x fetched w)
      ((syncCard r env card x.protocol (x.serviceURL card) x.workload fetched).runFrom w).2 := by
  rw [syncCard_eq haccepted]
  refine Keeps.runFrom ?_ ⟨rfl, rfl⟩
  unfold labelWorkload
  have hlabel := @keeps_propagateSignatureLabel env
  split
  · exact .bind (hlabel _ _ _) fun _ => Keeps.pure _
  · split
    · refine .bind (hlabel _ _ _) fun _ => ?_
      split
      · exact .pure _
      · exact .pure _
    · split
      · exact .bind (hlabel _ _ _) fun _ => Keeps.pure _
      · exact .pure _

theorem reconcile_live (hlive : Live w.card) :
    (reconcile r env).runFrom w = (reconcileCard r env w.card).runFrom w := by
  rw [reconcile, runFrom_getCard, hlive.1, hlive.2]
  rfl

theorem reconcile_not_live {w : World} (hlive : ¬ Live w.card) :
    Unwritten w ((reconcile r env).runFrom w).2 := by
  rw [reconcile, runFrom_getCard]
  split_ifs with hdeleting hfinalizer
  · exact keeps_handleDeletion.runFrom ⟨rfl, rfl⟩
  · exact (Keeps.bind (keeps_setFinalizers _ _) fun _ => Keeps.pure _).runFrom ⟨rfl, rfl⟩
  · exact absurd ⟨by simpa using hdeleting, by simpa using hfinalizer⟩ hlive

theorem reconcile_fetched {w : World} {fetched : FetchResult} (hlive : Live w.card)
    (hx : reached env w.card = some x) (hfetched : fetchAnswer r w.card x = .ok fetched) :
    (reconcile r env).runFrom w =
      (syncCard r env w.card x.protocol (x.serviceURL w.card) x.workload fetched).runFrom
        (afterFetch r env x w) := by
  rw [reconcile_live hlive, reconcileCard_of_reached r hx, runFrom_bind, runFrom_attempt,
    fetchCardData_eq, hfetched]
  simp only [runFrom_finishFetch]
  rfl

theorem holds_reconcile {w : World} (hlive : Live w.card) :
    Holds (trustAfter r env w.card w.card.status.trustFields) ((reconcile r env).runFrom w).2 := by
  rcases hx : reached env w.card with _ | x
  · rw [reconcile_live hlive]
    simp only [trustAfter, hx]
    exact (holds_reconcileCard hx).runFrom rfl
  · rcases hanswer : fetchAnswer r w.card x with err | fetched
    · obtain ⟨e, w', hrun, hw'⟩ := @runFrom_failFetch r env x err w
      rw [reconcile_live hlive, reconcileCard_of_reached r hx, runFrom_bind, runFrom_attempt,
        fetchCardData_eq, hanswer]
      simp only [hrun, trustAfter, hx, hanswer]
      refine Keeps.runFrom ?_ hw'
      exact .bind (keeps_updateCondition .ready (by simp [conditionVerified])) fun _ =>
        Keeps.pure _
    · rw [reconcile_fetched hlive hx hanswer]
      simp only [trustAfter, hx, hanswer]
      cases hstatus : env.answer .status with
      | some err =>
        rw [syncCard_refused hstatus, if_neg (by simp)]
        exact holds_afterFetch w
      | none =>
        rw [if_pos rfl, Holds, (syncCard_accepted hstatus fetched (afterFetch r env x w)).1]
        exact holds_afterSync fetched (holds_afterFetch w)

section Unfetched

variable {P I : World → Prop}

theorem satisfies_failFetch
    (hsynced : Satisfies P (updateCondition env .synced ⟨"Synced", .conditionFalse, "FetchFailed",
      err⟩) (fun _ => I) I)
    (hverified : env.answer .synced = none → Keeps I (updateCondition env .verified
      ⟨conditionVerified, .conditionFalse, "FetchFailed", err⟩))
    : Satisfies P (failFetch r env x err) (fun _ _ => False) I := by
  have hthrow : Satisfies I (throw err : Op FetchResult) (fun _ _ => False) I :=
    Satisfies.throw fun _ hw => hw
  cases haccepted : env.answer .synced with
  | none =>
    refine .bind hsynced fun _ => ?_
    split
    · exact .bind (hverified haccepted) fun _ => hthrow
    · exact hthrow
  | some e =>
    refine ⟨fun w hw => ?_⟩
    have hrun := hsynced.run w hw
    unfold updateCondition at hrun
    rw [writeStatus_refused haccepted] at hrun
    unfold failFetch updateCondition
    rw [runFrom_bind, writeStatus_refused haccepted]
    exact hrun

/-- What a reconcile that fetches no card establishes, from what its first write establishes. -/
theorem satisfies_unfetched
    (hnone : ∀ x fetched, reached env card = some x → fetchAnswer r card x ≠ .ok fetched)
    (hsynced : ∀ reason message, Satisfies P
      (updateCondition env .synced ⟨"Synced", .conditionFalse, reason, message⟩) (fun _ => I) I)
    (hbinding : ∀ binding, Keeps I (writeStatus env .binding (·.applyBinding env.now binding)))
    (hverified : ∀ reason message, env.answer .synced = none → Keeps I
      (updateCondition env .verified ⟨conditionVerified, .conditionFalse, reason, message⟩))
    (hready : ∀ reason message, Keeps I
      (updateCondition env .ready ⟨"Ready", .conditionFalse, reason, message⟩)) :
    Satisfies P (reconcileCard r env card) (fun _ => I) I := by
  rcases hx : reached env card with _ | x
  · exact satisfies_reconcileCard hx hsynced hbinding
  · rcases hanswer : fetchAnswer r card x with err | fetched
    · rw [reconcileCard_of_reached r hx, fetchCardData_eq, hanswer]
      refine .bind (satisfies_failFetch (hsynced _ err) (hverified _ err)).attempt ?_
      intro answer
      cases answer with
      | error e => exact .bind (hready _ _) fun _ => Keeps.pure _
      | ok fetched => exact ⟨fun _ hw => hw.elim⟩
    · exact absurd hanswer (hnone x fetched hx)

end Unfetched

end Trust

end Kagenti.Operator.AgentCards
