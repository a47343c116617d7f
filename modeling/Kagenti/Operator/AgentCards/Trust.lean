import Kagenti.Operator.AgentCards.Status
import Kagenti.Operator.Signature.Jws

/-!
The trust evaluation of the AgentCard controller (`agentcard_controller.go`): its configuration, the
identity binding and the decision on the condition Verified. Logging, events and metrics are left
out.
-/

namespace Kagenti.Operator.AgentCards

open Go Signature

/-- The identity is empty unless the card was fetched over mTLS. -/
structure FetchResult where
  cardData : AgentCardData
  agentSpiffeID : String
  rawSignedAgentCardJSON : Bytes

structure BundleVerificationResult where
  verified : Bool
  details : String
  -- no attestations were present
  absent : Bool
  identity : String
  rekorLogIndex : String
  slsaRepository : String
  slsaCommitSHA : String
  deriving DecidableEq

structure AgentCardReconciler where
  -- by protocol, service URL, agent name and namespace; a card that comes over HTTP or from a
  -- ConfigMap has no identity, so there is only the card and the signed document
  agentFetcher : String → String → String → String → Except String (AgentCardData × Bytes)
  -- by protocol and service URL
  authenticatedFetcher : Option (String → String → Except String FetchResult)
  enableVerifiedFetch : Bool
  -- the result, which can be nil, and the error
  signatureProvider : Option (AgentCardData → Option VerificationResult × Option String)
  requireSignature : Bool
  signatureAuditMode : Bool
  bundleVerifier : Option
    (Bytes → Option SigstoreVerification → Except String (Option BundleVerificationResult))
  enableSigstoreVerification : Bool
  sigstoreAuditMode : Bool
  spireTrustDomain : String
  -- the hash of the marshalled card, or the empty string if it cannot be marshalled
  computeCardID : AgentCardData → String
  parseDuration : String → Option Int

def hasPrefix (s pre : String) : Bool := pre.toList.isPrefixOf s.toList

structure BindingResult where
  bound : Bool
  reason : String
  message : String
  spiffeID : String
  deriving DecidableEq

structure Decision where
  isVerified : Bool
  verifiedStatus : ConditionStatus
  verifiedReason : String
  verifiedMessage : String
  attestedSpiffeID : String
  deriving DecidableEq

structure TrustEvaluation extends Decision where
  verificationResult : Option VerificationResult
  binding : Option BindingResult
  identityMatch : Option Bool
  isMTLSVerified : Bool
  deriving DecidableEq

namespace AgentCardReconciler

variable (r : AgentCardReconciler)

def verifiedFetch : Bool := r.enableVerifiedFetch && r.authenticatedFetcher.isSome

/-- The trust domain of a binding: its own, or else the operator's. -/
def trustDomain (binding : IdentityBinding) : String :=
  if binding.trustDomain = "" then r.spireTrustDomain else binding.trustDomain

/-- The identity is a SPIFFE ID with a path in the trust domain. -/
def inTrustDomain (trustDomain spiffeID : String) : Bool :=
  let pre := "spiffe://" ++ trustDomain ++ "/"
  hasPrefix spiffeID pre && decide (spiffeID.toList.length > pre.toList.length)

def computeBinding (spec : AgentCardSpec) (verifiedSpiffeID : String) : Option BindingResult :=
  spec.identityBinding.map fun binding =>
    if verifiedSpiffeID = "" then
      ⟨false, "NotBound", "No verified SPIFFE ID available: ensure the card is signed with a SPIRE-issued SVID or served over mTLS", ""⟩
    else if r.trustDomain binding = "" then
      ⟨false, "NotBound", "No trust domain configured (set --spire-trust-domain or spec.identityBinding.trustDomain)", ""⟩
    else if inTrustDomain (r.trustDomain binding) verifiedSpiffeID then
      ⟨true, "Bound", "SPIFFE ID " ++ verifiedSpiffeID ++ " belongs to trust domain " ++
        r.trustDomain binding, verifiedSpiffeID⟩
    else
      ⟨false, "NotBound", "SPIFFE ID " ++ verifiedSpiffeID ++ " does not belong to trust domain " ++
        r.trustDomain binding, verifiedSpiffeID⟩

/-- The error of the provider is only logged. -/
def verifySignature (cardData : AgentCardData) : VerificationResult :=
  match r.signatureProvider with
  | none => ⟨false, "", "", "no signature provider configured", none⟩
  | some provider =>
    (provider cardData).1.getD ⟨false, "", "", "Verification returned null result", none⟩

def bindingIdentity (result : Option VerificationResult) (agentSpiffeID : String) : String :=
  if agentSpiffeID ≠ "" then agentSpiffeID
  else
    match result with
    | some v => if v.verified then v.spiffeID else ""
    | none => ""

/-- The last part of `evaluateTrust`: mTLS comes before the signature, and only the signature is
subject to a strict binding. -/
def decideVerified (spec : AgentCardSpec) (verificationResult : Option VerificationResult)
    (bindingPassed : Bool) (agentSpiffeID : String) : Decision :=
  if agentSpiffeID ≠ "" then
    ⟨true, .conditionTrue, "mTLSVerified", "Agent SPIFFE ID: " ++ agentSpiffeID, agentSpiffeID⟩
  else
    -- there is a result exactly if a signature is required
    match verificationResult with
    | some v =>
      let isVerified :=
        match spec.identityBinding with
        | none => v.verified
        | some b => v.verified && (bindingPassed || !b.strict)
      if isVerified then
        ⟨true, .conditionTrue, "SignatureVerified", "JWS signature valid (keyID=" ++ v.keyID ++ ")",
          ""⟩
      else if v.verified then
        ⟨false, .conditionFalse, "NotVerified", "No trust mechanism verified this agent", ""⟩
      else ⟨false, .conditionFalse, "SignatureInvalid", v.details, ""⟩
    | none =>
      if r.verifiedFetch then
        ⟨false, .conditionFalse, "NotVerified", "No trust mechanism verified this agent", ""⟩
      else ⟨false, .conditionUnknown, "", "", ""⟩

def evaluateTrust (spec : AgentCardSpec) (cardData : AgentCardData) (agentSpiffeID : String) :
    TrustEvaluation :=
  let verificationResult := if r.requireSignature then some (r.verifySignature cardData) else none
  let sigVerified := verificationResult.any fun v => v.verified
  let isMTLSVerified := decide (agentSpiffeID ≠ "")
  let binding := r.computeBinding spec (bindingIdentity verificationResult agentSpiffeID)
  let bindingPassed := binding.any fun b => b.bound
  let identityMatch := spec.identityBinding.map fun _ =>
    (sigVerified || isMTLSVerified) && bindingPassed
  { toDecision := r.decideVerified spec verificationResult bindingPassed agentSpiffeID,
    verificationResult, binding, identityMatch, isMTLSVerified }

/-! What a decision says -/

section Decision

variable {r} {spec : AgentCardSpec} {result : Option VerificationResult} {passed : Bool}
  {agentSpiffeID : String}

theorem decideVerified_attested :
    (r.decideVerified spec result passed agentSpiffeID).attestedSpiffeID = agentSpiffeID := by
  fun_cases decideVerified r spec result passed agentSpiffeID with
  | case1 => rfl
  | _ hid => exact (not_not.mp hid).symm

theorem decideVerified_reason :
    (r.decideVerified spec result passed agentSpiffeID).verifiedReason ≠ "" ↔
      agentSpiffeID ≠ "" ∨ result.isSome ∨ r.verifiedFetch := by
  fun_cases decideVerified r spec result passed agentSpiffeID <;> simp [*]

theorem decideVerified_status :
    (r.decideVerified spec result passed agentSpiffeID).verifiedStatus = .conditionTrue ↔
      (r.decideVerified spec result passed agentSpiffeID).isVerified = true := by
  fun_cases decideVerified r spec result passed agentSpiffeID <;> simp

theorem decideVerified_unwritten
    (hreason : (r.decideVerified spec result passed agentSpiffeID).verifiedReason = "") :
    (r.decideVerified spec result passed agentSpiffeID).isVerified = false := by
  revert hreason
  fun_cases decideVerified r spec result passed agentSpiffeID <;> simp

theorem decideVerified_of_identity (hid : agentSpiffeID ≠ "") :
    r.decideVerified spec result passed agentSpiffeID =
      ⟨true, .conditionTrue, "mTLSVerified", "Agent SPIFFE ID: " ++ agentSpiffeID, agentSpiffeID⟩ := by
  unfold decideVerified
  rw [if_pos hid]

theorem decideVerified_of_signature
    (hverified : (r.decideVerified spec result passed "").isVerified = true) :
    (∃ v, result = some v ∧ v.verified = true) ∧
      (∀ b, spec.identityBinding = some b → b.strict = true → passed = true) ∧
      (r.decideVerified spec result passed "").verifiedReason = "SignatureVerified" := by
  unfold decideVerified at hverified ⊢
  rw [if_neg (by simp)] at hverified ⊢
  cases result with
  | none =>
    dsimp only at hverified
    split at hverified <;> cases hverified
  | some v =>
    dsimp only at hverified ⊢
    split_ifs at hverified ⊢ with haccepted
    refine ⟨⟨v, rfl, ?_⟩, ?_, rfl⟩
    · cases hb : spec.identityBinding with
      | none =>
        rw [hb] at haccepted
        exact haccepted
      | some b =>
        rw [hb] at haccepted
        exact (Bool.and_eq_true_iff.mp haccepted).1
    · intro b hb hstrict
      rw [hb] at haccepted
      simpa [hstrict] using (Bool.and_eq_true_iff.mp haccepted).2

theorem evaluateTrust_of_signature {cardData : AgentCardData}
    (hverified : (r.evaluateTrust spec cardData "").isVerified = true) :
    ∃ v, (r.evaluateTrust spec cardData "").verificationResult = some v ∧ v.verified = true ∧
      (r.evaluateTrust spec cardData "").verifiedReason = "SignatureVerified" ∧
      ∀ b, spec.identityBinding = some b → b.strict = true →
        (r.computeBinding spec v.spiffeID).any (·.bound) = true := by
  obtain ⟨⟨v, hresult, hv⟩, hpassed, hreason⟩ := decideVerified_of_signature hverified
  refine ⟨v, hresult, hv, hreason, fun b hspec hstrict => ?_⟩
  have hbound := hpassed b hspec hstrict
  rw [hresult, bindingIdentity, if_neg (by simp)] at hbound
  simpa only [hv, if_true] using hbound

theorem inTrustDomain_of_bound {b : IdentityBinding} {spiffeID : String} {binding : BindingResult}
    (hspec : spec.identityBinding = some b) (hbinding : r.computeBinding spec spiffeID = some binding)
    (hbound : binding.bound = true) : inTrustDomain (r.trustDomain b) spiffeID = true := by
  simp only [computeBinding, hspec, Option.map_some, Option.some.injEq] at hbinding
  subst hbinding
  split_ifs at hbound with hid hdomain hin
  exact hin

end Decision

end AgentCardReconciler

end Kagenti.Operator.AgentCards
