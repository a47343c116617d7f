import Kagenti.Operator.Webhook.Inject

/-!
The admission handler (`authbridge_webhook.go`), the owner of a pod (`internal/workload`), and
the names and the eligibility that the handler shares with the client registration controller
(`internal/clientreg`). SHA-256 is a parameter. A request holds a pod that was decoded.
-/

namespace Kagenti.Operator.Webhook

open Go AgentRuntime
open Injector (authBridgeProxyContainerName envoyProxyContainerName proxyInitContainerName)

/-! The owner of a pod -/

structure OwnerInfo where
  name : String
  kind : String
  deriving DecidableEq

def cutSuffix (s suffix : String) : Option String :=
  if suffix.toList <:+ s.toList then
    some (String.ofList (s.toList.take (s.toList.length - suffix.toList.length)))
  else none

def podTemplateHashLabel : String := "pod-template-hash"

/-- The name of a ReplicaSet without the hash of its template. -/
def withoutTemplateHash (rsName : String) (labels : Option StringMap) : Option String :=
  let hash := labelValue labels podTemplateHashLabel
  if hash = "" then none else cutSuffix rsName ("-" ++ hash)

def deploymentNameFromReplicaSet (rsName : String) (labels : Option StringMap) : String :=
  (withoutTemplateHash rsName labels).getD ""

def ownerOfReference (labels : Option StringMap) (ref : OwnerReference) : Option OwnerInfo :=
  if ref.controller ≠ some true then none
  else if ref.kind = "StatefulSet" then some ⟨ref.name, "StatefulSet"⟩
  else if ref.kind = "Sandbox" then some ⟨ref.name, "Sandbox"⟩
  else if ref.kind = "ReplicaSet" then
    let name := deploymentNameFromReplicaSet ref.name labels
    if name ≠ "" then some ⟨name, "Deployment"⟩ else some ⟨ref.name, ""⟩
  else none

def trimRightDashes (s : String) : String :=
  String.ofList (s.toList.reverse.dropWhile (· = '-')).reverse

def ownerOfName (pod : Pod) : OwnerInfo :=
  if pod.generateName ≠ "" then
    let rsName := trimRightDashes pod.generateName
    match withoutTemplateHash rsName pod.labels with
    | some name => if name ≠ "" then ⟨name, "Deployment"⟩ else ⟨rsName, ""⟩
    | none => ⟨rsName, ""⟩
  else ⟨pod.name, ""⟩

def resolveOwner (pod : Pod) : OwnerInfo :=
  (pod.ownerReferences.findSome? (ownerOfReference pod.labels)).getD (ownerOfName pod)

def deriveWorkloadName (pod : Pod) : String :=
  let info := resolveOwner pod
  if info.name ≠ "" then info.name else pod.uid

/-! Client registration -/

def keycloakClientCredentialsSecretName (sha256 : Bytes → Bytes) (ns workload : String) : String :=
  let sum := sha256 (bytes (ns ++ "\x00" ++ workload ++ "\x00kagenti-keycloak-client-credentials"))
  "kagenti-keycloak-client-credentials-" ++ hexEncode (sum.take 8)

def skipReason (labels : Option StringMap) (injectTools : Bool) : String :=
  match labels with
  | none => "pod template has no labels"
  | some labels =>
    let kagentiType := labels.value labelAgentType
    if kagentiType = "agent" then ""
    else if kagentiType = "tool" then
      if injectTools then ""
      else "kagenti.io/type is tool but cluster injectTools feature gate is disabled"
    else if kagentiType = "" then "kagenti.io/type label is missing or not agent/tool"
    else "kagenti.io/type=\"" ++ kagentiType ++ "\" is not agent or tool"

def workloadWantsOperatorClientReg (labels : Option StringMap) (injectTools : Bool) : Bool :=
  skipReason labels injectTools = ""

/-! Handler -/

structure Request where
  kind : String
  group : String
  ns : String
  pod : Pod

inductive Response where
  | allowed (message : String)
  | patched (pod : Pod) (configMaps : List AgentConfigMap)
  | errored (status : Nat) (message : String)

/-- The response patches the pod into one that passes the test. -/
def Response.patches (test : Pod → Bool) : Response → Bool
  | .patched pod _ => test pod
  | _ => false

instance {r : Response} {p : Pod → Prop} [DecidablePred p] :
    Decidable (∃ pod cms, r = .patched pod cms ∧ p pod) :=
  match r with
  | .patched pod cms => decidable_of_iff (p pod) (by simp)
  | .allowed _ | .errored _ _ => isFalse (by simp)

def isAlreadyInjected (spec : PodSpec) : Bool :=
  containerExists spec.containers envoyProxyContainerName ||
    containerExists spec.containers authBridgeProxyContainerName ||
    containerExists spec.initContainers proxyInitContainerName

structure AuthBridgeWebhook where
  mutator : PodMutator
  sha256 : Bytes → Bytes

namespace AuthBridgeWebhook

variable (w : AuthBridgeWebhook)

def prepopulate (ns resourceName : String) (pod : Pod) : StringMap :=
  if pod.annotations.value annotationKeycloakClientSecretName = "" ∧
      workloadWantsOperatorClientReg pod.labels w.mutator.featureGates.injectTools = true then
    pod.annotations.insert annotationKeycloakClientSecretName
      (keycloakClientCredentialsSecretName w.sha256 ns resourceName)
  else pod.annotations

def handle (req : Request) : Response :=
  if req.kind ≠ "Pod" ∨ req.group ≠ "" then .allowed "not a Pod"
  else
    let resourceName := deriveWorkloadName req.pod
    let annotations := w.prepopulate req.ns resourceName req.pod
    let pod := { req.pod with annotations := annotations }
    if isAlreadyInjected pod.spec then
      if needsKeycloakClientCredentialsVolumePatch pod.spec annotations then
        .patched { pod with
          spec := applyKeycloakClientCredentialsSecretVolumes annotations pod.spec } []
      else .allowed "already injected"
    else
      match w.mutator.injectAuthBridge req.ns resourceName pod.labels annotations pod.spec with
      | .error e => .errored 500 e
      | .ok none => .allowed "injection not enabled"
      | .ok (some i) => .patched { pod with spec := i.spec } i.configMaps

end AuthBridgeWebhook

/-! Requests of an agent -/

def AuthBridgeWebhook.inEmptyCluster : AuthBridgeWebhook :=
  ⟨.inEmptyCluster, fun _ => List.replicate 8 0⟩

def Container.agent (name : String) (mounts : List VolumeMount) : Container where
  name := name
  image := "example.com/agent:1"
  imagePullPolicy := "IfNotPresent"
  args := []
  resources := ⟨[], []⟩
  ports := [⟨"http", 8000, "TCP"⟩]
  env := []
  securityContext := none
  volumeMounts := mounts

def Request.ofStatefulSet (containers initContainers : List Container) (volumes : List Volume) :
    Request where
  kind := "Pod"
  group := ""
  ns := "team"
  pod := {
    name := "agent-0"
    generateName := "agent-"
    uid := ""
    labels := some ((∅ : StringMap).insert AgentRuntime.labelAgentType "agent")
    annotations := ∅
    ownerReferences := [⟨"StatefulSet", "agent", some true⟩]
    spec := ⟨"", containers, initContainers, volumes, none⟩ }

end Kagenti.Operator.Webhook
