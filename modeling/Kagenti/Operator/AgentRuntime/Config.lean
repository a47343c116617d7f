import Kagenti.Go.StringMap

/-!
The resolved configuration of an agent and its hash (`agentruntime_config.go`), and
`applyWorkloadConfig` of `agentruntime_controller.go`. Logging is left out.
-/

namespace Kagenti.Operator.AgentRuntime

open Go

structure ConfigMap where
  labels : StringMap
  -- nil or a map
  data : Option StringMap

abbrev ConfigMaps := AList fun _ : String × String => ConfigMap

inductive ReadError where
  | notFound
  | transient
  deriving DecidableEq

structure Reader where
  get : String → String → Except ReadError ConfigMap
  list : String → String → String → Except ReadError (List (String × ConfigMap))

def clusterDefaultsConfigMapName : String := "kagenti-platform-config"

def clusterFeatureGatesConfigMapName : String := "kagenti-feature-gates"

def labelNamespaceDefaults : String := "kagenti.io/defaults"

def authBridgeRuntimeConfigMapName : String := "authbridge-runtime-config"

def spiffeHelperConfigMapName : String := "spiffe-helper-config"

/-- Returns an empty map for every error. -/
def readConfigMapData (c : Reader) (ns name : String) : StringMap :=
  match c.get ns name with
  | .error _ => ∅
  | .ok cm => cm.data.getD ∅

/-- `%v` of a slice of strings. -/
def formatNames (names : List String) : String := "[" ++ " ".intercalate names ++ "]"

def readNamespaceDefaults (c : Reader) (ns : String) : StringMap × String :=
  match c.list ns labelNamespaceDefaults "true" with
  | .error _ => (∅, "")
  | .ok [] => (∅, "")
  | .ok (first :: others) =>
    let warning :=
      if others = [] then ""
      else "multiple namespace defaults ConfigMaps found in " ++ ns ++
        " (expected at most one): " ++ formatNames ((first :: others).map Prod.fst) ++
        "; using " ++ first.1
    (first.2.data.getD ∅, warning)

def mergeMaps (base override : StringMap) : StringMap := ((∅ : StringMap).copyInto base).copyInto override

theorem lookup_mergeMaps (base override : StringMap) (key : String) :
    (mergeMaps base override).lookup key = (override.lookup key).or (base.lookup key) := by
  rw [mergeMaps, StringMap.lookup_copyInto, StringMap.lookup_copyInto, AList.lookup_empty,
    Option.or_none]

structure ResolvedConfig where
  featureGates : StringMap
  defaults : StringMap
  authBridgeRuntime : String
  spiffeHelperConfig : String

section Resolve

-- `ClusterDefaultsNamespace`, set once at start
variable (clusterDefaultsNamespace : String)

def resolveConfig (c : Reader) (ns : String) : ResolvedConfig × List String :=
  let clusterDefaults := readConfigMapData c clusterDefaultsNamespace clusterDefaultsConfigMapName
  let featureGates := readConfigMapData c clusterDefaultsNamespace clusterFeatureGatesConfigMapName
  let (nsDefaults, nsWarning) := readNamespaceDefaults c ns
  let warnings := if nsWarning = "" then [] else [nsWarning]
  -- a map without the key gives the empty string
  let abRuntime := (readConfigMapData c ns authBridgeRuntimeConfigMapName).value "config.yaml"
  let spiffeHelper := (readConfigMapData c ns spiffeHelperConfigMapName).value "helper.conf"
  (⟨featureGates, mergeMaps clusterDefaults nsDefaults, abRuntime, spiffeHelper⟩, warnings)

end Resolve

/-! The hash -/

/-- A value of a field of `resolvedConfig`, with the entries of a map in their order. -/
inductive FieldValue where
  | strings (entries : List (String × String))
  | string (s : String)

def FieldValue.text : FieldValue → List Char
  | .strings entries => objectText quoteText entries
  | .string s => quoteText s

namespace ResolvedConfig

def mapField (name : String) (m : StringMap) : List (String × FieldValue) :=
  if m.isEmpty then [] else [(name, .strings m.sorted)]

def stringField (name s : String) : List (String × FieldValue) :=
  if s = "" then [] else [(name, .string s)]

def fields (resolved : ResolvedConfig) : List (String × FieldValue) :=
  mapField "featureGates" resolved.featureGates ++ mapField "defaults" resolved.defaults ++
    stringField "authBridgeRuntime" resolved.authBridgeRuntime ++
    stringField "spiffeHelperConfig" resolved.spiffeHelperConfig

def marshal (resolved : ResolvedConfig) : List Char := objectText FieldValue.text resolved.fields

end ResolvedConfig

def hexEncode (b : Bytes) : String :=
  String.ofList (b.flatMap fun x => [hexChar (x.toNat / 16), hexChar (x.toNat % 16)])

structure ConfigResult where
  hash : String
  warnings : List String
  deriving DecidableEq

section Hash

variable (sha256 : Bytes → Bytes) (clusterDefaultsNamespace : String)

def hashResolvedConfig (resolved : ResolvedConfig) : String :=
  hexEncode (sha256 (resolved.marshal.flatMap String.utf8EncodeChar))

def computeConfigHash (c : Reader) (ns : String) : ConfigResult :=
  let (resolved, warnings) := resolveConfig clusterDefaultsNamespace c ns
  ⟨hashResolvedConfig sha256 resolved, warnings⟩

end Hash

/-! Applying the hash -/

structure PodTemplate where
  labels : StringMap
  annotations : StringMap

structure Workload where
  labels : StringMap
  template : PodTemplate

/-- What `applyWorkloadConfig` reads of an AgentRuntime. -/
structure RuntimeSpec where
  type : String
  mtlsMode : String
  -- the kind of the target
  kind : String

def labelAgentType : String := "kagenti.io/type"

def labelManagedBy : String := "app.kubernetes.io/managed-by"

def labelManagedByValue : String := "kagenti-operator"

def annotationConfigHash : String := "kagenti.io/config-hash"

def annotationMTLSMode : String := "kagenti.io/mtls-mode"

def RuntimeSpec.resolvedMTLSMode (spec : RuntimeSpec) : String :=
  if spec.mtlsMode = "" then "permissive" else spec.mtlsMode

def alreadyConfigured (spec : RuntimeSpec) (configHash : String) (w : Workload) : Bool :=
  w.labels.value labelAgentType = spec.type &&
    w.labels.value labelManagedBy = labelManagedByValue &&
    w.template.labels.value labelAgentType = spec.type &&
    w.template.annotations.value annotationConfigHash = configHash &&
    w.template.annotations.value annotationMTLSMode = spec.resolvedMTLSMode

def applyWorkloadConfig (spec : RuntimeSpec) (configHash : String) (w : Workload) :
    Workload × Bool :=
  if alreadyConfigured spec configHash w then (w, false)
  else
    let previousHash := w.template.annotations.value annotationConfigHash
    let configHashChanged := decide (previousHash ≠ "" ∧ previousHash ≠ configHash)
    let labels := (w.labels.insert labelAgentType spec.type).insert labelManagedBy
      labelManagedByValue
    let podLabels := w.template.labels.insert labelAgentType spec.type
    let podAnnotations := (w.template.annotations.insert annotationConfigHash configHash).insert
      annotationMTLSMode spec.resolvedMTLSMode
    (⟨labels, ⟨podLabels, podAnnotations⟩⟩, decide (spec.kind = "Sandbox") && configHashChanged)

end Kagenti.Operator.AgentRuntime
