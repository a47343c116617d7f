import Kagenti.AuthBridge.Extensions
import Kagenti.Go.Http

/-!
The shared state of a request (`pipeline/context.go`), the recording of invocations, and
the classification of a request from its populated extensions.
-/

namespace Kagenti.AuthBridge

open Go

structure Violation where
  code : String
  reason : String
  description : String
  status : Nat
  pluginName : String
  deriving DecidableEq

inductive Action where
  | cont
  | reject (violation : Option Violation)
  deriving DecidableEq

def Action.deny (code reason : String) : Action :=
  .reject (some { code := code, reason := reason, description := "", status := 0, pluginName := "" })

def Action.denyStatus (status : Nat) (code reason : String) : Action :=
  .reject (some
    { code := code, reason := reason, description := "", status := status, pluginName := "" })

inductive ErrorPolicy where
  | enforce
  | observe
  | off
  deriving DecidableEq

inductive OutcomeAction where
  | allow
  | deny
  | error
  deriving DecidableEq

structure Outcome where
  finalAction : OutcomeAction
  statusCode : Nat
  denyingPlugin : String
  deriving DecidableEq

structure Context where
  direction : Direction
  method : String
  scheme : String
  host : String
  path : Bytes
  headers : Header
  body : Bytes
  session : Option SessionView
  statusCode : Nat
  responseHeaders : Header
  responseBody : Bytes
  extensions : Extensions
  currentPlugin : String
  currentPhase : InvocationPhase
  currentPolicy : ErrorPolicy
  bodyMutated : Bool
  responseBodyMutated : Bool
  dispatched : List Nat
  outcome : Option Outcome
  rejectingPlugin : String
  inFinish : Bool
  finished : Bool

namespace Context

def ofRequest (direction : Direction) (method scheme host : String) (path : Bytes)
    (headers : Header) (body : Bytes) : Context where
  direction := direction
  method := method
  scheme := scheme
  host := host
  path := path
  headers := headers
  body := body
  session := none
  statusCode := 0
  responseHeaders := ∅
  responseBody := []
  extensions := .empty
  currentPlugin := ""
  currentPhase := .unset
  currentPolicy := .enforce
  bodyMutated := false
  responseBodyMutated := false
  dispatched := []
  outcome := none
  rejectingPlugin := ""
  inFinish := false
  finished := false

variable (pctx : Context)

def appendInvocation (inv : Invocation) : Context :=
  let invocations := pctx.extensions.invocations
  let invocations :=
    match pctx.direction with
    | .inbound => { invocations with inbound := invocations.inbound ++ [inv] }
    | .outbound => { invocations with outbound := invocations.outbound ++ [inv] }
  { pctx with extensions := { pctx.extensions with invocations := invocations } }

/-- `Record` of an invocation that names its plugin, phase and path. It is dropped while
`OnFinish` runs. -/
def recordInvocation (inv : Invocation) : Context :=
  if pctx.inFinish then pctx else pctx.appendInvocation inv

/-- `Record` of an invocation that is stamped with the current plugin, phase and path. -/
def record (action : InvocationAction) (reason : String)
    (details : List (String × String)) : Context :=
  pctx.recordInvocation
    { plugin := pctx.currentPlugin, action := action, phase := pctx.currentPhase,
      reason := reason, path := pctx.path, details := details, shadow := false }

def allow (reason : String) : Context := pctx.record .allow reason []

def skip (reason : String) : Context := pctx.record .skip reason []

def observe (reason : String) : Context := pctx.record .observe reason []

def modify (reason : String) : Context := pctx.record .modify reason []

/-- `SetResponseBody`: dropped while `OnFinish` runs, and only recorded under the policy
`observe`. -/
def setResponseBody (newBody : Bytes) : Context :=
  if pctx.inFinish then pctx
  else if pctx.currentPolicy = .observe then
    pctx.recordInvocation
      { plugin := pctx.currentPlugin, action := .modify, phase := pctx.currentPhase,
        reason := "body_rewritten", path := pctx.path, details := [], shadow := true }
  else { pctx with responseBody := newBody, responseBodyMutated := true }.modify "body_rewritten"

def setMCP (ext : Option MCPExtension) : Context :=
  { pctx with extensions := { pctx.extensions with mcp := ext } }

def setA2A (ext : Option A2AExtension) : Context :=
  { pctx with extensions := { pctx.extensions with a2a := ext } }

def setInference (ext : Option InferenceExtension) : Context :=
  { pctx with extensions := { pctx.extensions with inference := ext } }

def addVerdict (flags : Bool × Bool) : Option Bool → Bool × Bool
  | none => flags
  | some true => (true, flags.2)
  | some false => (flags.1, true)

/-- `Classification`: whether some populated extension is an action, and whether some
populated extension is not. -/
def classification : Bool × Bool :=
  let flags := addVerdict (false, false) (pctx.extensions.mcp.map MCPExtension.isAction)
  let flags := addVerdict flags (pctx.extensions.a2a.map A2AExtension.isAction)
  addVerdict flags (pctx.extensions.inference.map InferenceExtension.isAction)

def populated : Nat :=
  pctx.extensions.mcp.toList.length + pctx.extensions.a2a.toList.length +
    pctx.extensions.inference.toList.length

section Record

theorem recordInvocation_eq (inv : Invocation) : ∃ invocations, pctx.recordInvocation inv =
    { pctx with extensions := { pctx.extensions with invocations := invocations } } := by
  unfold recordInvocation
  split
  · exact ⟨pctx.extensions.invocations, rfl⟩
  · exact ⟨_, rfl⟩

variable (action : InvocationAction) (reason : String) (details : List (String × String))

theorem record_eq : ∃ invocations, pctx.record action reason details =
    { pctx with extensions := { pctx.extensions with invocations := invocations } } :=
  pctx.recordInvocation_eq _

@[simp] theorem record_mcp :
    (pctx.record action reason details).extensions.mcp = pctx.extensions.mcp := by
  obtain ⟨invocations, h⟩ := pctx.record_eq action reason details
  rw [h]

@[simp] theorem record_a2a :
    (pctx.record action reason details).extensions.a2a = pctx.extensions.a2a := by
  obtain ⟨invocations, h⟩ := pctx.record_eq action reason details
  rw [h]

@[simp] theorem record_inference :
    (pctx.record action reason details).extensions.inference = pctx.extensions.inference := by
  obtain ⟨invocations, h⟩ := pctx.record_eq action reason details
  rw [h]

end Record

end Context

end Kagenti.AuthBridge
