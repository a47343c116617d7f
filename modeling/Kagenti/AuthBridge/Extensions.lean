import Kagenti.Go.Unmarshal
import Kagenti.Lib.PinnedBuffer

/-!
The typed extension slots of a request (`pipeline/extensions.go`), the text that guardrails read
from them (`pipeline/content.go`), and session events (`pipeline/session.go`).
-/

namespace Kagenti.AuthBridge

open Go

inductive Direction where
  | inbound
  | outbound
  deriving DecidableEq

structure MCPError where
  code : Int
  message : String
  data : Json

structure MCPExtension where
  method : String
  rpcID : Json
  params : Option AnyMap
  result : Option AnyMap
  err : Option MCPError
  isAction : Bool

structure A2APart where
  kind : String
  content : String
  deriving DecidableEq

structure A2AExtension where
  method : String
  rpcID : Json
  sessionID : String
  messageID : String
  taskID : String
  role : String
  parts : List A2APart
  -- set from the response
  finalStatus : String
  artifact : String
  errorMessage : String
  isAction : Bool

structure InferenceMessage where
  role : String
  content : String
  deriving DecidableEq

structure InferenceTool where
  name : String
  description : String
  parameters : Option AnyMap

structure InferenceToolCall where
  id : String
  name : String
  arguments : String
  deriving DecidableEq

/-- The defaults are Go's zero values, here and in the structures below. -/
structure InferenceExtension where
  model : String
  messages : List InferenceMessage
  temperature : Option JsonNumber := none
  maxTokens : Option Int := none
  topP : Option JsonNumber := none
  stream : Bool := false
  tools : List InferenceTool := []
  toolChoice : Json := .null
  -- set from the response
  completion : String := ""
  finishReason : String := ""
  promptTokens : Int := 0
  completionTokens : Int := 0
  totalTokens : Int := 0
  toolCalls : List InferenceToolCall := []
  isAction : Bool

inductive InvocationAction where
  | allow
  | deny
  | skip
  | modify
  | observe
  deriving DecidableEq

/-- The phase of an invocation. `unset` is the zero value. -/
inductive InvocationPhase where
  | unset
  | request
  | response
  deriving DecidableEq

structure Invocation where
  plugin : String
  action : InvocationAction
  phase : InvocationPhase
  reason : String
  path : Bytes
  details : List (String × String)
  shadow : Bool
  deriving DecidableEq

structure Invocations where
  inbound : List Invocation
  outbound : List Invocation
  deriving DecidableEq

structure InferenceStreamState where
  completion : String
  promptTokens : Int
  completionTokens : Int
  totalTokens : Int
  deriving DecidableEq

structure MCPStreamState where
  observed : Nat
  truncated : Bool
  deriving DecidableEq

structure Extensions where
  mcp : Option MCPExtension
  a2a : Option A2AExtension
  inference : Option InferenceExtension
  invocations : Invocations
  inferenceStream : Option InferenceStreamState
  mcpStream : Option MCPStreamState

def Extensions.empty : Extensions where
  mcp := none
  a2a := none
  inference := none
  invocations := ⟨[], []⟩
  inferenceStream := none
  mcpStream := none

structure Fragment where
  role : String
  text : String
  deriving DecidableEq

def roleUser : String := "user"

def roleAssistant : String := "assistant"

def normalizeA2ARole (role : String) : String :=
  if role = "agent" then roleAssistant else if role = "user" then roleUser else role

/-- `A2AExtension.Fragments`: text and data parts under the role of the message, then the
artifact of the response. -/
def A2AExtension.fragments (e : A2AExtension) : List Fragment :=
  let role := normalizeA2ARole e.role
  let parts := e.parts.filter fun p =>
    decide ((p.kind = "text" ∨ p.kind = "data") ∧ p.content ≠ "")
  let artifact := if e.artifact ≠ "" then [⟨roleAssistant, e.artifact⟩] else []
  parts.map (fun p => ⟨role, p.content⟩) ++ artifact

inductive SessionPhase where
  | request
  | response
  | denied
  deriving DecidableEq

structure SessionEvent where
  sessionID : Bytes := []
  direction : Direction
  phase : SessionPhase
  a2a : Option A2AExtension := none
  mcp : Option MCPExtension := none
  inference : Option InferenceExtension := none

structure SessionView where
  id : Bytes
  events : List SessionEvent

/-- The predicate of `SessionView.LastIntent` and of the store's eviction policy. -/
def isIntentEvent (e : SessionEvent) : Bool :=
  decide (e.direction = .inbound) && decide (e.phase = .request) && e.a2a.isSome

def SessionView.lastIntent (v : SessionView) : Option SessionEvent :=
  Lib.PinnedBuffer.lastMatch isIntentEvent v.events

end Kagenti.AuthBridge
