import Kagenti.Operator.AgentCards.Trust

/-!
What the AgentCard controller puts into a status (`updateAgentCardStatus`, `applyBindingToStatus`,
`updateCondition` and `cleanupVerifiedFetchFields` in `agentcard_controller.go`), as functions of
the status that is there. All times of one reconcile are one instant.
-/

namespace Kagenti.Operator.AgentCards

open Signature

namespace AgentCardStatus

variable (now : Int)

def setCondition (new : NewCondition) (s : AgentCardStatus) : AgentCardStatus :=
  { s with conditions := setStatusCondition now s.conditions new }

def removeCondition (type : String) (s : AgentCardStatus) : AgentCardStatus :=
  { s with conditions := removeStatusCondition s.conditions type }

def findCondition (s : AgentCardStatus) (type : String) : Option Condition :=
  findStatusCondition s.conditions type

def setCard (cardData : AgentCardData) (protocol cardID : String) (targetRef : TargetRef)
    (s : AgentCardStatus) : AgentCardStatus :=
  let changed := decide (cardID ≠ "" ∧ cardID ≠ s.cardId)
  { s with
    card := some cardData
    protocol := protocol
    targetRef := some targetRef
    lastSyncTime := if changed then some now else s.lastSyncTime.or (some now)
    cardId := if changed then cardID else s.cardId }

def setSignature (auditMode : Bool) (result : Option VerificationResult) (s : AgentCardStatus) :
    AgentCardStatus :=
  match result with
  | none => s
  | some v =>
    let new : NewCondition :=
      if v.verified then ⟨"SignatureVerified", .conditionTrue, "SignatureValid", v.details⟩
      else if auditMode then
        ⟨"SignatureVerified", .conditionFalse, "SignatureInvalidAudit",
          v.details ++ " (audit mode: allowed)"⟩
      else ⟨"SignatureVerified", .conditionFalse, "SignatureInvalid", v.details⟩
    setCondition now new
      { s with
        validSignature := some v.verified
        signatureVerificationDetails := v.details
        signatureKeyID := v.keyID
        signatureSpiffeID := if v.verified then v.spiffeID else "" }

def setSigstoreFields (verified : Option Bool) (result : Option BundleVerificationResult)
    (s : AgentCardStatus) : AgentCardStatus :=
  { s with
    sigstoreBundleVerified := verified
    sigstoreIdentity := (result.map (·.identity)).getD ""
    rekorLogIndex := (result.map (·.rekorLogIndex)).getD ""
    slsaRepository := (result.map (·.slsaRepository)).getD ""
    slsaCommitSHA := (result.map (·.slsaCommitSHA)).getD "" }

def setSigstore (enabled auditMode : Bool) (result : Option BundleVerificationResult)
    (s : AgentCardStatus) : AgentCardStatus :=
  match enabled, result with
  | true, some b =>
    if b.absent then
      setCondition now ⟨"SigstoreVerified", .conditionFalse, "SigstoreBundleNotFound", b.details⟩
        (setSigstoreFields (some false) none s)
    else if b.verified then
      setCondition now ⟨"SigstoreVerified", .conditionTrue, "SigstoreVerified", b.details⟩
        (setSigstoreFields (some true) (some b) s)
    else
      let new : NewCondition :=
        if auditMode then
          ⟨"SigstoreVerified", .conditionFalse, "SigstoreVerificationFailedAudit",
            b.details ++ " (audit mode: allowed)"⟩
        else ⟨"SigstoreVerified", .conditionFalse, "SigstoreVerificationFailed", b.details⟩
      setCondition now new (setSigstoreFields (some false) none s)
  | _, _ => removeCondition "SigstoreVerified" (setSigstoreFields none none s)

def syncedCondition (signatureAuditMode sigstoreAuditMode mTLSVerified : Bool) (cardName : String)
    (signature : Option VerificationResult) (sigstore : Option BundleVerificationResult) :
    NewCondition :=
  let signatureFailed := signature.filter fun v => !v.verified
  let sigstoreFailed := sigstore.filter fun b => !b.absent && !b.verified
  match signatureFailed with
  | some v =>
    if !signatureAuditMode && !mTLSVerified then
      ⟨"Synced", .conditionFalse, "SignatureInvalid", v.details⟩
    else synced sigstoreFailed <|
      if signatureAuditMode then
        "Fetched agent card for " ++ cardName ++
          " (signature verification failed but audit mode enabled)"
      else
        "Successfully fetched agent card for " ++ cardName ++ " (mTLS verified, no JWS signature)"
  | none =>
    synced sigstoreFailed ("Successfully fetched agent card for " ++ cardName)
where
  synced (sigstoreFailed : Option BundleVerificationResult) (message : String) : NewCondition :=
    match sigstoreFailed with
    | none => ⟨"Synced", .conditionTrue, "SyncSucceeded", message⟩
    | some b =>
      if sigstoreAuditMode then
        ⟨"Synced", .conditionTrue, "SyncSucceeded", message ++
          " (Sigstore bundle failed audit mode)"⟩
      else ⟨"Synced", .conditionFalse, "SigstoreVerificationFailed", b.details⟩

/-- The condition Verified, set only by an evaluation with a reason. -/
def setVerified (trust : TrustEvaluation) (s : AgentCardStatus) : AgentCardStatus :=
  if trust.verifiedReason ≠ "" then
    setCondition now ⟨conditionVerified, trust.verifiedStatus, trust.verifiedReason,
      trust.verifiedMessage⟩ s
  else s

def setAttested (trust : TrustEvaluation) (s : AgentCardStatus) : AgentCardStatus :=
  if trust.attestedSpiffeID ≠ "" then { s with attestedAgentSpiffeID := trust.attestedSpiffeID }
  else s

/-- Ready is Synced, and Verified if it is there. -/
def readyCondition (s : AgentCardStatus) : NewCondition :=
  if (s.findCondition "Synced").any fun c => c.status = .conditionTrue then
    if (s.findCondition conditionVerified).all fun c => c.status = .conditionTrue then
      ⟨"Ready", .conditionTrue, "ReadyToServe", "Agent index is ready for queries"⟩
    else
      ⟨"Ready", .conditionFalse, "VerificationFailed", "Agent synced but identity verification failed"⟩
  else ⟨"Ready", .conditionFalse, "SyncFailed", "Agent card fetch failed"⟩

/-- `applyBindingToStatus`. The time of the evaluation is kept while the result stays the same. -/
def applyBinding (binding : BindingResult) (s : AgentCardStatus) : AgentCardStatus :=
  let unchanged := s.bindingStatus.filter fun b =>
    b.bound = binding.bound && b.reason = binding.reason && b.message = binding.message
  let evalTime := (unchanged.bind (·.lastEvaluationTime)).or (some now)
  setCondition now
    ⟨"Bound", if binding.bound then .conditionTrue else .conditionFalse, binding.reason,
      binding.message⟩
    { s with
      bindingStatus := some ⟨binding.bound, binding.reason, binding.message, evalTime⟩
      expectedSpiffeID := if binding.spiffeID ≠ "" then binding.spiffeID else s.expectedSpiffeID }

def updated (r : AgentCardReconciler) (cardData : AgentCardData) (protocol cardID : String)
    (targetRef : TargetRef) (trust : TrustEvaluation) (sigstore : Option BundleVerificationResult)
    (s : AgentCardStatus) : AgentCardStatus :=
  let s := setCard now cardData protocol cardID targetRef s
  let s := setSignature now r.signatureAuditMode trust.verificationResult s
  let s := setSigstore now r.enableSigstoreVerification r.sigstoreAuditMode sigstore s
  let s := setCondition now (syncedCondition r.signatureAuditMode r.sigstoreAuditMode
    trust.isMTLSVerified cardData.name trust.verificationResult sigstore) s
  let s := setAttested trust (setVerified now trust s)
  let s := setCondition now (readyCondition s) s
  let s := match trust.binding with
    | none => s
    | some binding => applyBinding now binding s
  { s with signatureIdentityMatch := trust.identityMatch }

def needsCleanup (s : AgentCardStatus) : Bool :=
  (s.findCondition conditionVerified).isSome || s.attestedAgentSpiffeID ≠ ""

def cleanedUp (s : AgentCardStatus) : AgentCardStatus :=
  { s.removeCondition conditionVerified with attestedAgentSpiffeID := "" }

/-! What the writes do to the fields on which trust is read off -/

structure TrustFields where
  card : Option AgentCardData
  verified : Option NewCondition
  attestedAgentSpiffeID : String
  signatureSpiffeID : String

def trustFields (s : AgentCardStatus) : TrustFields where
  card := s.card
  verified := (s.findCondition conditionVerified).map Condition.untimed
  attestedAgentSpiffeID := s.attestedAgentSpiffeID
  signatureSpiffeID := s.signatureSpiffeID

def TrustFields.isVerified (t : TrustFields) : Bool :=
  t.verified.any fun c => c.status = .conditionTrue

theorem isVerified_eq (s : AgentCardStatus) : s.isVerified = s.trustFields.isVerified := by
  rw [isVerified, TrustFields.isVerified, trustFields, findCondition]
  cases findStatusCondition s.conditions conditionVerified <;> rfl

section Writes

variable {now : Int} {s : AgentCardStatus}

theorem trustFields_setCondition {new : NewCondition} (hne : conditionVerified ≠ new.type) :
    (s.setCondition now new).trustFields = s.trustFields := by
  have hfind : (s.setCondition now new).findCondition conditionVerified =
      s.findCondition conditionVerified := find_set_ne hne
  simp only [trustFields, hfind]
  rfl

theorem trustFields_setCondition_verified (status : ConditionStatus) (reason message : String) :
    (s.setCondition now ⟨conditionVerified, status, reason, message⟩).trustFields =
      { s.trustFields with verified := some ⟨conditionVerified, status, reason, message⟩ } := by
  have hfind : ((s.setCondition now ⟨conditionVerified, status, reason, message⟩).findCondition
      conditionVerified).map Condition.untimed =
      some ⟨conditionVerified, status, reason, message⟩ := find_set_self
  simp only [trustFields, hfind]
  rfl

theorem trustFields_setCard (cardData : AgentCardData) (protocol cardID : String)
    (targetRef : TargetRef) :
    (s.setCard now cardData protocol cardID targetRef).trustFields =
      { s.trustFields with card := some cardData } := rfl

theorem trustFields_removeCondition {type : String} (hne : conditionVerified ≠ type) :
    (s.removeCondition type).trustFields = s.trustFields := by
  have hfind : (s.removeCondition type).findCondition conditionVerified =
      s.findCondition conditionVerified := find_remove_ne hne
  simp only [trustFields, hfind]
  rfl

theorem trustFields_setSignature (auditMode : Bool) (result : Option VerificationResult) :
    (s.setSignature now auditMode result).trustFields =
      { s.trustFields with
        signatureSpiffeID :=
          match result with
          | none => s.trustFields.signatureSpiffeID
          | some v => if v.verified then v.spiffeID else "" } := by
  cases result with
  | none => rfl
  | some v =>
    rw [setSignature, trustFields_setCondition]
    · rfl
    · split_ifs <;> simp [conditionVerified]

theorem trustFields_setSigstore (enabled auditMode : Bool)
    (result : Option BundleVerificationResult) :
    (s.setSigstore now enabled auditMode result).trustFields = s.trustFields := by
  unfold setSigstore
  split
  · split_ifs <;> exact trustFields_setCondition (by simp [conditionVerified])
  · exact trustFields_removeCondition (by simp [conditionVerified])

theorem trustFields_setVerified (trust : TrustEvaluation) :
    (s.setVerified now trust).trustFields =
      { s.trustFields with
        verified :=
          if trust.verifiedReason ≠ "" then
            some ⟨conditionVerified, trust.verifiedStatus, trust.verifiedReason,
              trust.verifiedMessage⟩
          else s.trustFields.verified } := by
  unfold setVerified
  split_ifs
  · exact trustFields_setCondition_verified _ _ _
  · rfl

theorem trustFields_setAttested (trust : TrustEvaluation) :
    (s.setAttested trust).trustFields =
      { s.trustFields with
        attestedAgentSpiffeID :=
          if trust.attestedSpiffeID ≠ "" then trust.attestedSpiffeID
          else s.trustFields.attestedAgentSpiffeID } := by
  unfold setAttested
  split_ifs <;> rfl

theorem trustFields_applyBinding (binding : BindingResult) :
    (s.applyBinding now binding).trustFields = s.trustFields := by
  rw [applyBinding, trustFields_setCondition (by simp [conditionVerified])]
  rfl

theorem trustFields_cleanedUp :
    s.cleanedUp.trustFields = ⟨s.card, none, "", s.signatureSpiffeID⟩ := by
  have hfind : s.cleanedUp.findCondition conditionVerified = none := find_remove_self
  simp only [trustFields, hfind]
  rfl

theorem syncedCondition_type (signatureAuditMode sigstoreAuditMode mTLSVerified : Bool)
    (cardName : String) (signature : Option VerificationResult)
    (sigstore : Option BundleVerificationResult) :
    (syncedCondition signatureAuditMode sigstoreAuditMode mTLSVerified cardName signature
      sigstore).type = "Synced" := by
  have hsynced (failed : Option BundleVerificationResult) (message : String) :
      (syncedCondition.synced sigstoreAuditMode failed message).type = "Synced" := by
    fun_cases syncedCondition.synced <;> rfl
  fun_cases syncedCondition with
  | case1 => rfl
  | _ => exact hsynced _ _

theorem readyCondition_type (s : AgentCardStatus) : s.readyCondition.type = "Ready" := by
  unfold readyCondition
  split_ifs <;> rfl

theorem trustFields_updated (r : AgentCardReconciler) (cardData : AgentCardData)
    (protocol cardID : String) (targetRef : TargetRef) (trust : TrustEvaluation)
    (sigstore : Option BundleVerificationResult) :
    (s.updated now r cardData protocol cardID targetRef trust sigstore).trustFields =
      { card := some cardData
        verified :=
          if trust.verifiedReason ≠ "" then
            some ⟨conditionVerified, trust.verifiedStatus, trust.verifiedReason,
              trust.verifiedMessage⟩
          else s.trustFields.verified
        attestedAgentSpiffeID :=
          if trust.attestedSpiffeID ≠ "" then trust.attestedSpiffeID
          else s.trustFields.attestedAgentSpiffeID
        signatureSpiffeID :=
          match trust.verificationResult with
          | none => s.trustFields.signatureSpiffeID
          | some v => if v.verified then v.spiffeID else "" } := by
  unfold updated
  extract_lets s₁ s₂ s₃ s₄ s₅ s₆ s₇
  have hsigstore : s₃.trustFields = s₂.trustFields := trustFields_setSigstore _ _ _
  have hsynced : s₄.trustFields = s₃.trustFields := by
    refine trustFields_setCondition ?_
    rw [syncedCondition_type]
    decide
  have hready : s₆.trustFields = s₅.trustFields := by
    refine trustFields_setCondition ?_
    rw [readyCondition_type]
    decide
  have hbinding : s₇.trustFields = s₆.trustFields := by
    cases hb : trust.binding with
    | none => simp only [s₇, hb]
    | some binding =>
      simp only [s₇, hb]
      exact trustFields_applyBinding binding
  have hfetched : s₄.trustFields = s₂.trustFields := hsynced.trans hsigstore
  change s₇.trustFields = _
  rw [hbinding, hready, trustFields_setAttested, trustFields_setVerified, hfetched,
    trustFields_setSignature, trustFields_setCard]

end Writes

end AgentCardStatus

end Kagenti.Operator.AgentCards
