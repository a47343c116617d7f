import Kagenti.Lib.Fallible
import Kagenti.Operator.AgentCards.Labels
import Kagenti.Operator.AgentCards.StatusUpdate

/-!
The reconcile of an AgentCard (`Reconcile` in `agentcard_controller.go`) over the stored card and
the workloads of the cluster. A write is one access that the API server accepts or refuses; the
retries on conflicts are part of it, and so are the reads before it. The state keeps every status
that was persisted. Logging, events and metrics are left out.
-/

namespace Kagenti.Operator.AgentCards

open Go Lib Signature

/-! What a reconcile reads -/

inductive GetError where
  | notFound
  | other (text : String)
  deriving DecidableEq

structure TargetObject where
  labels : StringMap
  -- types and statuses
  conditions : List (String × String)
  readyReplicas : Option Int
  replicas : Option Int

structure ServicePort where
  name : String
  port : Int
  deriving DecidableEq

inductive Write where
  | addFinalizer
  | removeFinalizer
  | synced
  | verified
  | ready
  | binding
  | cleanup
  | status
  | label
  | perCardAnno
  deriving DecidableEq

structure Env where
  now : Int
  target : Except GetError TargetObject
  service : Except String (List ServicePort)
  answer : Write → Option String

/-! The workload and its service -/

def labelAgentProtocol : String := "kagenti.io/agent-protocol"

def labelKagentiProtocol : String := "kagenti.io/protocol"

def protocolLabelPre : String := "protocol.kagenti.io/"

structure WorkloadInfo where
  name : String
  ns : String
  apiVersion : String
  kind : String
  labels : StringMap
  ready : Bool
  serviceName : String

inductive WorkloadFailure where
  | workloadNotFound
  | notAgentWorkload
  | other
  deriving DecidableEq

structure WorkloadError where
  failure : WorkloadFailure
  text : String
  deriving DecidableEq

def isAgentWorkload (labels : StringMap) : Bool := labels.value labelAgentType = labelValueAgent

def isWorkloadReady (obj : TargetObject) (kind : String) : Bool :=
  if kind = "Deployment" then obj.conditions.contains ("Available", "True")
  else if kind = "StatefulSet" then
    match obj.readyReplicas, obj.replicas with
    | some readyReplicas, some replicas => decide (readyReplicas > 0) && readyReplicas = replicas
    | _, _ => false
  else obj.conditions.contains ("Ready", "True") || obj.conditions.contains ("Available", "True")

/-- `schema.ParseGroupVersion` has an error for two slashes or more. -/
def groupVersionError (apiVersion : String) : Option String :=
  if apiVersion.toList.count '/' ≤ 1 then none
  else some ("unexpected GroupVersion string: " ++ apiVersion)

def getWorkload (env : Env) (card : AgentCard) : Except WorkloadError WorkloadInfo :=
  match card.spec.targetRef with
  | none =>
    .error ⟨.other, "spec.targetRef is required: specify the workload backing this agent"⟩
  | some ref =>
    match groupVersionError ref.apiVersion with
    | some err => .error ⟨.other, "invalid apiVersion " ++ ref.apiVersion ++ ": " ++ err⟩
    | none =>
      match env.target with
      | .error .notFound =>
        .error ⟨.workloadNotFound, "workload not found: " ++ ref.apiVersion ++ "/" ++ ref.kind ++
          " " ++ ref.name ++ " not found in namespace " ++ card.ns⟩
      | .error (.other text) => .error ⟨.other, text⟩
      | .ok obj =>
        if isAgentWorkload obj.labels then
          .ok
            { name := ref.name, ns := card.ns, apiVersion := ref.apiVersion, kind := ref.kind,
              labels := obj.labels, ready := isWorkloadReady obj ref.kind,
              serviceName := ref.name }
        else
          .error ⟨.notAgentWorkload, "resource is not a Kagenti agent: " ++ ref.kind ++ " " ++
            ref.name ++ " does not have kagenti.io/type=agent label"⟩

def getWorkloadProtocols (labels : StringMap) : List String :=
  let protocols := (labels.entries.filter fun e => hasPrefix e.1 protocolLabelPre).filterMap fun e =>
    let name := String.ofList (e.1.toList.drop protocolLabelPre.toList.length)
    if name ≠ "" then some name else none
  if protocols ≠ [] then protocols
  else if labels.value labelKagentiProtocol ≠ "" then [labels.value labelKagentiProtocol]
  else if labels.value labelAgentProtocol ≠ "" then [labels.value labelAgentProtocol]
  else []

def getWorkloadProtocol (labels : StringMap) : String := (getWorkloadProtocols labels).headD ""

/-- The first port, or 8000. -/
def getServicePort (ports : List ServicePort) : Int := ((ports.head?).map (·.port)).getD 8000

def agentTLSPortName : String := "agent-tls"

/-- The port of the agent's TLS listener, or 0. -/
def getAgentTLSPort (ports : List ServicePort) : Int :=
  ((ports.find? fun p => p.name = agentTLSPortName).map (·.port)).getD 0

def serviceHost (agentName ns : String) (port : Int) : String :=
  agentName ++ "." ++ ns ++ ".svc.cluster.local:" ++ toString port

def getServiceURL (agentName ns : String) (port : Int) : String :=
  "http://" ++ serviceHost agentName ns port

def getSecureServiceURL (agentName ns : String) (port : Int) : String :=
  "https://" ++ serviceHost agentName ns port

/-! The state of a reconcile -/

structure World where
  card : AgentCard
  workloads : Workloads
  -- the persisted statuses, the latest last
  written : List AgentCardStatus

def World.persist (w : World) (status : AgentCardStatus) : World :=
  { w with card := { w.card with status := status }, written := w.written ++ [status] }

abbrev Op (α : Type) := Fallible String World α

def getCard : Op AgentCard := Fallible.access fun w => (.ok w.card, w)

/-- One write to the status, computed from the status that is there. -/
def writeStatus (env : Env) (write : Write) (f : AgentCardStatus → AgentCardStatus) : Op Unit :=
  Fallible.access fun w =>
    match env.answer write with
    | some err => (.error err, w)
    | none => (.ok (), w.persist (f w.card.status))

def updateCondition (env : Env) (write : Write) (new : NewCondition) : Op Unit :=
  writeStatus env write (·.setCondition env.now new)

def setFinalizers (env : Env) (write : Write) (f : List String → List String) : Op Unit :=
  Fallible.access fun w =>
    match env.answer write with
    | some err => (.error err, w)
    | none => (.ok (), { w with card := { w.card with finalizers := f w.card.finalizers } })

/-- Writes the workload that `f` computes from the one that is there, if it computes one. A
workload that is not there is left to the caller. -/
def writeWorkload (env : Env) (write : Write) (key : WorkloadKey)
    (f : PodWorkload → Option PodWorkload) (missing : Except String Unit) : Op Unit :=
  Fallible.access fun w =>
    match env.answer write, w.workloads.lookup key with
    | some err, _ => (.error err, w)
    | none, none => (missing, w)
    | none, some workload =>
      match f workload with
      | none => (.ok (), w)
      | some workload => (.ok (), { w with workloads := w.workloads.insert key workload })

/-! The parts of a reconcile -/

def agentCardFinalizer : String := "agentcard.kagenti.dev/finalizer"

/-- `cleanupPerCardAnnotation`; its errors are only logged. -/
def cleanupPerCardAnno (env : Env) (card : AgentCard) : Op Unit := do
  match card.spec.targetRef with
  | none => return
  | some ref =>
    match podKind ref.kind with
    | none => return
    | some kind =>
      let _ ← (writeWorkload env .perCardAnno ⟨kind, card.ns, ref.name⟩ (cleaned card.name)
        (.ok ())).attempt
      return

structure Result where
  requeueAfter : Int
  deriving DecidableEq

def second : Int := 1000000000

def minute : Int := 60 * second

def handleDeletion (env : Env) (card : AgentCard) : Op Result := do
  if card.finalizers.contains agentCardFinalizer then
    cleanupPerCardAnno env card
    setFinalizers env .removeFinalizer (·.filter (· ≠ agentCardFinalizer))
  return ⟨0⟩

def propagateSignatureLabel (env : Env) (cardName : String) (workload : WorkloadInfo)
    (verified : Bool) : Op Unit := do
  match podKind workload.kind with
  | none => return
  | some kind =>
    writeWorkload env .label ⟨kind, workload.ns, workload.name⟩ (propagated cardName verified)
      (.error (workload.name ++ " not found"))

def cleanupVerifiedFetchFields (env : Env) : Op Unit := do
  let card ← getCard
  if card.status.needsCleanup then writeStatus env .cleanup (·.cleanedUp)

def plainFetch (r : AgentCardReconciler) (protocol serviceURL agentName ns : String) :
    Except String FetchResult :=
  (r.agentFetcher protocol serviceURL agentName ns).map fun (cardData, raw) => ⟨cardData, "", raw⟩

def fetchCardData (r : AgentCardReconciler) (env : Env) (card : AgentCard)
    (protocol serviceURL : String) (workload : WorkloadInfo) (service : List ServicePort) :
    Op FetchResult := do
  let fetchFailed (err : String) : Op Unit :=
    updateCondition env .synced ⟨"Synced", .conditionFalse, "FetchFailed", err⟩
  match r.enableVerifiedFetch, r.authenticatedFetcher with
  | true, some fetchAuthenticated =>
    let tlsPort := getAgentTLSPort service
    if tlsPort > 0 then
      match fetchAuthenticated protocol (getSecureServiceURL workload.serviceName card.ns tlsPort) with
      | .error err =>
        fetchFailed err
        updateCondition env .verified ⟨conditionVerified, .conditionFalse, "FetchFailed", err⟩
        throw err
      | .ok fetched => return fetched
    else
      match plainFetch r protocol serviceURL workload.serviceName card.ns with
      | .error err =>
        fetchFailed err
        throw err
      | .ok fetched => return fetched
  | _, _ =>
    match plainFetch r protocol serviceURL workload.serviceName card.ns with
    | .error err =>
      fetchFailed err
      throw err
    | .ok fetched =>
      let _ ← (cleanupVerifiedFetchFields env).attempt
      return fetched

/-- The verification of the bundle, if it is enabled. -/
def verifyBundle (r : AgentCardReconciler) (spec : AgentCardSpec) (fetched : FetchResult) :
    Option BundleVerificationResult :=
  match r.enableSigstoreVerification, r.bundleVerifier with
  | true, some verifySignedAgentCard =>
    if fetched.rawSignedAgentCardJSON ≠ [] then
      match verifySignedAgentCard fetched.rawSignedAgentCardJSON spec.sigstoreVerification with
      | .error err =>
        some ⟨false, "infrastructure error: " ++ err, false, "", "", "", ""⟩
      | .ok result => result
    else
      some ⟨false, "only plain agent card available (no SignedAgentCard attestations); supply-chain bundle not present",
        true, "", "", "", ""⟩
  | _, _ => none

def getSyncPeriod (r : AgentCardReconciler) (spec : AgentCardSpec) : Int :=
  if spec.syncPeriod = "" then 30 * second
  else (r.parseDuration spec.syncPeriod).getD (30 * second)

/-- The last part of a reconcile: the label of the workload. -/
def labelWorkload (r : AgentCardReconciler) (env : Env) (card : AgentCard) (workload : WorkloadInfo)
    (trust : TrustEvaluation) : Op Result := do
  if trust.isMTLSVerified then
    propagateSignatureLabel env card.name workload true
  else if r.requireSignature then
    propagateSignatureLabel env card.name workload trust.isVerified
    if (trust.verificationResult.any fun v => !v.verified) && !r.signatureAuditMode then
      return ⟨minute⟩
  else if r.verifiedFetch then
    propagateSignatureLabel env card.name workload false
  return ⟨getSyncPeriod r card.spec⟩

def syncCard (r : AgentCardReconciler) (env : Env) (card : AgentCard) (protocol serviceURL : String)
    (workload : WorkloadInfo) (fetched : FetchResult) : Op Result := do
  let sigstore := verifyBundle r card.spec fetched
  let trust := r.evaluateTrust card.spec fetched.cardData fetched.agentSpiffeID
  let cardData := { fetched.cardData with url := serviceURL }
  let cardID := r.computeCardID cardData
  writeStatus env .status (·.updated env.now r cardData protocol cardID
    ⟨workload.apiVersion, workload.kind, workload.name⟩ trust sigstore)
  labelWorkload r env card workload trust

/-- The reason and the message for a workload that cannot be used. -/
def WorkloadError.describe (err : WorkloadError) : String × String :=
  match err.failure with
  | .workloadNotFound => ("WorkloadNotFound", "No matching workload found")
  | .notAgentWorkload => ("NotAgentWorkload", "Referenced resource is not an agent")
  | .other => ("WorkloadError", err.text)

def reconcileCard (r : AgentCardReconciler) (env : Env) (card : AgentCard) : Op Result := do
  match getWorkload env card with
  | .error err =>
    let (reason, message) := err.describe
    updateCondition env .synced ⟨"Synced", .conditionFalse, reason, err.text⟩
    if card.spec.identityBinding.isSome then
      writeStatus env .binding (·.applyBinding env.now ⟨false, "AgentNotFound", message, ""⟩)
    return ⟨minute⟩
  | .ok workload =>
    if !workload.ready then
      updateCondition env .synced ⟨"Synced", .conditionFalse, "WorkloadNotReady",
        workload.kind ++ " " ++ workload.name ++ " is not ready"⟩
      return ⟨10 * second⟩
    else
      let protocol := getWorkloadProtocol workload.labels
      if protocol = "" then
        updateCondition env .synced ⟨"Synced", .conditionFalse, "NoProtocol",
          "Workload does not have a protocol.kagenti.io/<name> label"⟩
        return ⟨minute⟩
      else
        match env.service with
        | .error err =>
          updateCondition env .synced ⟨"Synced", .conditionFalse, "ServiceNotFound",
            "failed to get service " ++ workload.serviceName ++ ": " ++ err⟩
          return ⟨30 * second⟩
        | .ok service =>
          let serviceURL := getServiceURL workload.serviceName card.ns (getServicePort service)
          match ← (fetchCardData r env card protocol serviceURL workload service).attempt with
          | .error _ =>
            updateCondition env .ready ⟨"Ready", .conditionFalse, "SyncFailed",
              "Agent card fetch failed"⟩
            return ⟨minute⟩
          | .ok fetched => syncCard r env card protocol serviceURL workload fetched

def reconcile (r : AgentCardReconciler) (env : Env) : Op Result := do
  let card ← getCard
  if card.deleting then handleDeletion env card
  else if !card.finalizers.contains agentCardFinalizer then
    setFinalizers env .addFinalizer (· ++ [agentCardFinalizer])
    return ⟨0⟩
  else reconcileCard r env card

end Kagenti.Operator.AgentCards
