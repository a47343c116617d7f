import Kagenti.Go.MarshalText

/-!
The agent card (`AgentCardData` in `agentcard_types.go`) and the generic value it becomes when
it is marshalled and unmarshalled again into `map[string]interface{}`. Strings are valid UTF-8,
as all strings of a card that was decoded from JSON are.
-/

namespace Kagenti.Operator.Signature

open Go

@[ext]
structure AgentProvider where
  organization : String
  url : String
  deriving DecidableEq

structure AgentExtension where
  uri : String
  description : String
  required : Option Bool
  params : AList fun _ : String => Bytes

structure AgentCapabilities where
  streaming : Option Bool
  pushNotifications : Option Bool
  extensions : List AgentExtension

@[ext]
structure SkillParameter where
  name : String
  type : String
  description : String
  required : Option Bool
  default : String
  deriving DecidableEq

@[ext]
structure AgentSkill where
  id : String
  name : String
  description : String
  tags : List String
  examples : List String
  inputModes : List String
  outputModes : List String
  parameters : List SkillParameter
  deriving DecidableEq

structure SignatureHeader where
  timestamp : String
  deriving DecidableEq

/-- The field `Protected` is the encoded protected header. -/
structure AgentCardSignature where
  protectedHeader : String
  signature : String
  header : Option SignatureHeader
  deriving DecidableEq

structure AgentCardData where
  name : String
  description : String := ""
  version : String := ""
  url : String := ""
  documentationUrl : String := ""
  iconUrl : String := ""
  provider : Option AgentProvider := none
  capabilities : Option AgentCapabilities := none
  defaultInputModes : List String := []
  defaultOutputModes : List String := []
  skills : List AgentSkill := []
  supportsAuthenticatedExtendedCard : Option Bool := none
  signatures : List AgentCardSignature := []

/-! The fields with `omitempty` -/

def stringField (name s : String) : List (String × Json) :=
  if s = "" then [] else [(name, .str s)]

def boolField (name : String) : Option Bool → List (String × Json)
  | none => []
  | some b => [(name, .bool b)]

def sliceField (name : String) (xs : List Json) : List (String × Json) :=
  if xs.isEmpty then [] else [(name, .arr xs)]

def stringsField (name : String) (ss : List String) : List (String × Json) :=
  sliceField name (ss.map Json.str)

def pointerField (name : String) : Option Json → List (String × Json)
  | none => []
  | some j => [(name, j)]

def AgentProvider.toJson (p : AgentProvider) : Json :=
  .obj (stringField "organization" p.organization ++ stringField "url" p.url)

/-- `apiextensionsv1.JSON.MarshalJSON`, with the check of its result by the encoder. -/
def rawToJson (raw : Bytes) : Option Json :=
  if raw = [] then some .null else Json.parse raw

def AgentExtension.toJson (e : AgentExtension) : Option Json := do
  let params ← e.params.entries.mapM fun p => (rawToJson p.2).map fun j => (p.1, j)
  return .obj (stringField "uri" e.uri ++ stringField "description" e.description ++
    boolField "required" e.required ++
    if params.isEmpty then [] else [("params", .obj params)])

def AgentCapabilities.toJson (c : AgentCapabilities) : Option Json := do
  let extensions ← c.extensions.mapM AgentExtension.toJson
  return .obj (boolField "streaming" c.streaming ++
    boolField "pushNotifications" c.pushNotifications ++ sliceField "extensions" extensions)

def SkillParameter.toJson (p : SkillParameter) : Json :=
  .obj (stringField "name" p.name ++ stringField "type" p.type ++
    stringField "description" p.description ++ boolField "required" p.required ++
    stringField "default" p.default)

def AgentSkill.toJson (s : AgentSkill) : Json :=
  .obj (stringField "id" s.id ++ stringField "name" s.name ++
    stringField "description" s.description ++ stringsField "tags" s.tags ++
    stringsField "examples" s.examples ++ stringsField "inputModes" s.inputModes ++
    stringsField "outputModes" s.outputModes ++
    sliceField "parameters" (s.parameters.map SkillParameter.toJson))

def SignatureHeader.toJson (h : SignatureHeader) : Json := .obj (stringField "timestamp" h.timestamp)

def AgentCardSignature.toJson (s : AgentCardSignature) : Json :=
  .obj ([("protected", .str s.protectedHeader), ("signature", .str s.signature)] ++
    pointerField "header" (s.header.map SignatureHeader.toJson))

def AgentCardData.members (card : AgentCardData) : Option (List (String × Json)) := do
  let capabilities ← card.capabilities.mapM AgentCapabilities.toJson
  return stringField "name" card.name ++ stringField "description" card.description ++
    stringField "version" card.version ++ stringField "url" card.url ++
    stringField "documentationUrl" card.documentationUrl ++ stringField "iconUrl" card.iconUrl ++
    pointerField "provider" (card.provider.map AgentProvider.toJson) ++
    pointerField "capabilities" capabilities ++
    stringsField "defaultInputModes" card.defaultInputModes ++
    stringsField "defaultOutputModes" card.defaultOutputModes ++
    sliceField "skills" (card.skills.map AgentSkill.toJson) ++
    boolField "supportsAuthenticatedExtendedCard" card.supportsAuthenticatedExtendedCard ++
    sliceField "signatures" (card.signatures.map AgentCardSignature.toJson)

mutual

/-- The number of arrays and objects around the innermost value. -/
def depth : Json → Nat
  | .null | .bool _ | .num _ | .str _ => 0
  | .arr xs => elementsDepth xs + 1
  | .obj ms => membersDepth ms + 1

def elementsDepth : List Json → Nat
  | [] => 0
  | x :: xs => max (depth x) (elementsDepth xs)

def membersDepth : List (String × Json) → Nat
  | [] => 0
  | (_, x) :: ms => max (depth x) (membersDepth ms)

end

/-- `json.Marshal(cardData)` and `json.Unmarshal` of the result into a `map[string]interface{}`.
What is written is read back as it is, so the map has the members of the card; the decoder
refuses a number that overflows `float64`, and what is nested too deeply. -/
def AgentCardData.generic (card : AgentCardData) : Option (List (String × Json)) :=
  card.members.filter fun ms =>
    Json.membersInRange ms && decide (depth (.obj ms) ≤ Json.maxNestingDepth)

end Kagenti.Operator.Signature
