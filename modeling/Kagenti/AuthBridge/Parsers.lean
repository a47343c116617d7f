import Kagenti.AuthBridge.Bypass
import Kagenti.AuthBridge.Context
import Kagenti.Go.Marshal

/-!
The request side of mcp-parser, a2a-parser and inference-parser, with the JSON-RPC request shape of
the first two (`plugins/internal/parsercommon`).
-/

namespace Kagenti.AuthBridge

open Go

structure JSONRPCRequest where
  method : String
  id : Json
  params : Option AnyMap

namespace JSONRPCRequest

def zero : JSONRPCRequest := ⟨"", .null, none⟩

def into : Into JSONRPCRequest :=
  Into.struct
    [("method", Into.field method (fun r v => { r with method := v }) Into.string),
      ("id", Into.field id (fun r v => { r with id := v }) Into.any),
      ("params", Into.field params (fun r v => { r with params := v }) Into.anyMap)]

def decode (body : Bytes) : Option JSONRPCRequest := unmarshal into zero body

def param (r : JSONRPCRequest) (key : String) : Option Json :=
  r.params.bind fun params => params.lookup key

end JSONRPCRequest

/-- A type assertion to `string` that ignores failure. -/
def Json.asString : Option Json → String
  | some (.str s) => s
  | _ => ""

namespace JSONRPCRequest

def stringParam (r : JSONRPCRequest) (key : String) : String := Json.asString (r.param key)

def mapParam (r : JSONRPCRequest) (key : String) : Option (List (String × Json)) :=
  match r.param key with
  | some (.obj members) => some members
  | _ => none

end JSONRPCRequest

/-! mcp-parser -/

structure MCPParser where
  paths : Option Matcher

def syntheticTransportStream : String := "$transport/stream"

def syntheticTransportTerminate : String := "$transport/terminate"

def isMCPAction (method : String) : Bool :=
  decide (method = "tools/call" ∨ method = "prompts/get" ∨ method = "resources/read")

def MCPExtension.ofRequest (method : String) (rpcID : Json) (params : Option AnyMap)
    (isAction : Bool) : MCPExtension where
  method := method
  rpcID := rpcID
  params := params
  result := none
  err := none
  isAction := isAction

/-- The synthetic method of a request without a body on an MCP path. -/
def MCPParser.transportMethod (p : MCPParser) (pctx : Context) : Option String :=
  if p.paths.any fun m => m.matches pctx.path then
    if pctx.method = "DELETE" ∧ headerGet pctx.headers "Mcp-Session-Id" ≠ "" then
      some syntheticTransportTerminate
    else if pctx.method = "GET" then some syntheticTransportStream
    else none
  else none

def MCPParser.onRequest (p : MCPParser) (pctx : Context) : Context :=
  if pctx.body = [] then
    match p.transportMethod pctx with
    | some method =>
      (pctx.setMCP (some (.ofRequest method .null none false))).observe ("matched_" ++ method)
    | none => pctx
  else
    match JSONRPCRequest.decode pctx.body with
    | none => pctx
    | some rpc =>
      if rpc.method = "" then pctx
      else
        (pctx.setMCP (some (.ofRequest rpc.method rpc.id rpc.params
          (isMCPAction rpc.method)))).observe ("matched_" ++ rpc.method)

/-! a2a-parser -/

def isA2AAction (method : String) : Bool :=
  decide (method = "message/send" ∨ method = "message/stream")

def a2aPartContent (members : List (String × Json)) (kind : String) : String :=
  let text (key : String) : String := Json.asString (Json.member members key)
  if kind = "text" then text "text"
  else if kind = "file" then if text "data" = "" then text "uri" else text "data"
  else if kind = "data" then
    match Json.member members "data" with
    | none | some .null => ""
    | some value => value.marshal
  else ""

def parseA2APart : Json → Option A2APart
  | .obj members =>
    let kind := Json.asString (Json.member members "kind")
    if kind = "" then none else some ⟨kind, a2aPartContent members kind⟩
  | _ => none

def parseA2AParts (rawParts : List Json) : List A2APart := rawParts.filterMap parseA2APart

def A2AExtension.ofRequest (rpc : JSONRPCRequest) : A2AExtension :=
  let contextID := rpc.stringParam "contextId"
  let sessionID := if contextID = "" then rpc.stringParam "sessionId" else contextID
  let message := rpc.mapParam "message"
  let field (key : String) : Option Json := message.bind fun msg => Json.member msg key
  { method := rpc.method
    rpcID := rpc.id
    sessionID := if sessionID = "" then Json.asString (field "contextId") else sessionID
    messageID := Json.asString (field "messageId")
    taskID := rpc.stringParam "taskId"
    role := Json.asString (field "role")
    parts :=
      match field "parts" with
      | some (.arr rawParts) => parseA2AParts rawParts
      | _ => []
    finalStatus := ""
    artifact := ""
    errorMessage := ""
    isAction := isA2AAction rpc.method }

def a2aParserOnRequest (pctx : Context) : Context :=
  if pctx.body = [] then pctx
  else
    match JSONRPCRequest.decode pctx.body with
    | none => pctx
    | some rpc => (pctx.setA2A (some (.ofRequest rpc))).observe ("matched_" ++ rpc.method)

/-! inference-parser -/

structure RawMessage where
  role : String
  content : Option Json

structure ContentPart where
  type : String
  text : String
  deriving DecidableEq

def ContentPart.into : Into ContentPart :=
  Into.struct
    [("type", Into.field type (fun p v => { p with type := v }) Into.string),
      ("text", Into.field text (fun p v => { p with text := v }) Into.string)]

def flattenContent : Option Json → String
  | none | some .null => ""
  | some raw =>
    match Into.string "" raw with
    | some s => s
    | none =>
      match Into.slice ⟨"", ""⟩ ContentPart.into .nil raw with
      | some parts =>
        let texts := parts.toList.filter fun p => decide (p.type = "text" ∧ p.text ≠ "")
        "\n".intercalate (texts.map ContentPart.text)
      | none => ""

/-- `inferenceMessage.UnmarshalJSON`, which replaces the message as a whole. -/
def InferenceMessage.into : Into InferenceMessage := fun _ j =>
  let fields : List (String × Into RawMessage) :=
    [("role", Into.field RawMessage.role (fun m v => { m with role := v }) Into.string),
      ("content", Into.field RawMessage.content (fun m v => { m with content := v }) Into.raw)]
  (Into.struct fields ⟨"", none⟩ j).map fun raw => ⟨raw.role, flattenContent raw.content⟩

structure InferenceFunction where
  name : String
  description : String
  parameters : Option Json

namespace InferenceFunction

def into : Into InferenceFunction :=
  Into.struct
    [("name", Into.field name (fun f v => { f with name := v }) Into.string),
      ("description", Into.field description (fun f v => { f with description := v }) Into.string),
      ("parameters", Into.field parameters (fun f v => { f with parameters := v }) Into.raw)]

def paramsMap (f : InferenceFunction) : Option AnyMap :=
  (f.parameters.bind (Into.anyMap none)).join

end InferenceFunction

structure RequestTool where
  type : String
  function : InferenceFunction

namespace RequestTool

def zero : RequestTool := ⟨"", "", "", none⟩

def into : Into RequestTool :=
  Into.struct
    [("type", Into.field type (fun t v => { t with type := v }) Into.string),
      ("function", Into.field function (fun t v => { t with function := v })
        InferenceFunction.into)]

end RequestTool

structure InferenceRequest where
  model : String
  messages : Slice InferenceMessage
  temperature : Option JsonNumber
  maxTokens : Option Int
  topP : Option JsonNumber
  stream : Bool
  tools : Slice RequestTool
  toolChoice : Json

namespace InferenceRequest

def zero : InferenceRequest where
  model := ""
  messages := .nil
  temperature := none
  maxTokens := none
  topP := none
  stream := false
  tools := .nil
  toolChoice := .null

def into : Into InferenceRequest :=
  let float := Into.pointer ⟨false, [0], [], none⟩ Into.float64
  Into.struct
    [("model", Into.field model (fun r v => { r with model := v }) Into.string),
      ("messages", Into.field messages (fun r v => { r with messages := v })
        (Into.slice ⟨"", ""⟩ InferenceMessage.into)),
      ("temperature", Into.field temperature (fun r v => { r with temperature := v }) float),
      ("max_tokens", Into.field maxTokens (fun r v => { r with maxTokens := v })
        (Into.pointer 0 Into.int)),
      ("top_p", Into.field topP (fun r v => { r with topP := v }) float),
      ("stream", Into.field stream (fun r v => { r with stream := v }) Into.bool),
      ("tools", Into.field tools (fun r v => { r with tools := v })
        (Into.slice RequestTool.zero RequestTool.into)),
      ("tool_choice", Into.field toolChoice (fun r v => { r with toolChoice := v }) Into.any)]

def decode (body : Bytes) : Option InferenceRequest := unmarshal into zero body

end InferenceRequest

def InferenceExtension.ofRequest (req : InferenceRequest) : InferenceExtension where
  model := req.model
  messages := req.messages.toList
  temperature := req.temperature
  maxTokens := req.maxTokens
  topP := req.topP
  stream := req.stream
  tools :=
    (req.tools.toList.filter fun tool => decide (tool.function.name ≠ "")).map fun tool =>
      ⟨tool.function.name, tool.function.description, tool.function.paramsMap⟩
  toolChoice := req.toolChoice
  -- every populated inference extension is an outbound model call
  isAction := true

def isInferencePath (path : Bytes) : Bool :=
  decide (path = bytes "/v1/chat/completions" ∨ path = bytes "/v1/completions")

def inferenceParserOnRequest (pctx : Context) : Context :=
  if isInferencePath pctx.path = false ∨ pctx.body = [] then pctx
  else
    match InferenceRequest.decode pctx.body with
    | none => pctx
    | some req =>
      let ext := InferenceExtension.ofRequest req
      (pctx.setInference (some ext)).observe ("matched_" ++ ext.model)

end Kagenti.AuthBridge
