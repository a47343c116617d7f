import Kagenti.AuthBridge.Ibac
import Kagenti.AuthBridge.Pipeline

/-!
Pre-tool reflection (`plugins/sparc`) with `enforcement: inference`: the plugin gates the
response of the agent's language model. The answers of the reflection service are
arbitrary.
-/

namespace Kagenti.AuthBridge

open Go

structure ReflectInput where
  messages : List InferenceMessage
  toolSpecs : List InferenceTool
  toolCalls : List InferenceToolCall
  sessionID : Bytes
  track : String

structure ReflectIssue where
  explanation : String
  correction : Json

structure ReflectVerdict where
  decision : String
  issues : List ReflectIssue
  overallAvgScore : Option Rat

abbrev Reflector (W : Type*) := ReflectInput → W → Except String ReflectVerdict × W

inductive OnReject where
  | observe
  | reflect
  | deny
  deriving DecidableEq

inductive FailPolicy where
  | openly
  | closed
  deriving DecidableEq

structure SPARC where
  track : String
  onRejectAction : OnReject
  denyScoreThreshold : Rat
  failPolicy : FailPolicy
  skipTools : List String
  reflectTools : List String

/-! Texts -/

def correctionHint : Json → String
  | .null => ""
  | .str s => s
  | correction => preview correction.marshal 200

def issueLine (issue : ReflectIssue) : String :=
  if issue.explanation = "" then ""
  else
    let hint := correctionHint issue.correction
    "\n- " ++ issue.explanation ++ (if hint = "" then "" else " (suggested fix: " ++ hint ++ ")")

def buildClarificationText (verdict : ReflectVerdict) : String :=
  "This tool call was not executed because it could not be verified against the conversation. " ++
    match verdict.issues with
    | [] => "Please confirm the request details with the user before retrying."
    | issues =>
      "Reason(s):" ++ issues.foldl (fun lines issue => lines ++ issueLine issue) "" ++
        "\nAsk the user for the exact, missing, or corrected information, then retry."

def firstExplanation (verdict : ReflectVerdict) : String :=
  match verdict.issues.find? fun issue => issue.explanation ≠ "" with
  | some issue => issue.explanation
  | none => "tool call not grounded in the conversation"

/-- `%.2f` of a score. The digit behind the second one rounds to even. -/
def scoreString : Option Rat → String
  | none => ""
  | some score =>
    let hundredths := (Ratio.mk (score.num.natAbs * 100) score.den).round
    let fraction := hundredths % 100
    (if score < 0 then "-" else "") ++ toString (hundredths / 100) ++ "." ++
      (if fraction < 10 then "0" else "") ++ toString fraction

/-! The rewritten completion -/

def assistantMessage (message : String) : Json :=
  .obj [("role", .str "assistant"), ("content", .str message)]

/-- The first choice of a completion with its message replaced. -/
def rewriteChoice (message : String) (choice : List (String × Json)) : Json :=
  .obj (choice.filter (fun m => m.1 ≠ "delta") ++
    [("message", assistantMessage message), ("finish_reason", .str "stop")])

/-- `json.Marshal` writes the last member of a key, as an assignment to the map would
leave it. -/
def rewrittenCompletion (body : Bytes) (message : String) : Json :=
  let fallback : Json := .obj
    [("object", .str "chat.completion"),
      ("choices", .arr [.obj
        [("index", .num ⟨false, [0], [], none⟩), ("message", assistantMessage message),
          ("finish_reason", .str "stop")]])]
  match unmarshal Into.any .null body with
  | some (.obj orig) =>
    match Json.member orig "choices" with
    | some (.arr (.obj choice :: _)) =>
      .obj (orig ++ [("choices", .arr [rewriteChoice message choice])])
    | _ => fallback
  | _ => fallback

def rewriteInferenceResponse (pctx : Context) (message : String) : Context :=
  pctx.setResponseBody (bytes (rewrittenCompletion pctx.responseBody message).marshal)

namespace SPARC

variable (p : SPARC)

def anyGlobMatch (patterns : List String) (name : String) : Bool :=
  patterns.any fun pattern => Path.pathMatch (bytes pattern) (bytes name) = some true

def toolSkipped (name : String) : Bool :=
  anyGlobMatch p.skipTools name || (!p.reflectTools.isEmpty && !anyGlobMatch p.reflectTools name)

def record (pctx : Context) (action : InvocationAction) (reason : String)
    (details : List (String × String)) : Context :=
  pctx.recordInvocation
    { plugin := pctx.currentPlugin, action := action, phase := .response, reason := reason,
      path := pctx.path, details := details ++ [("enforcement", "inference")], shadow := false }

def onRejectText : OnReject → String
  | .observe => "observe"
  | .reflect => "reflect"
  | .deny => "deny"

def handleReject (pctx : Context) (toolName : String) (verdict : ReflectVerdict) : Context :=
  let escalated : Bool :=
    match verdict.overallAvgScore with
    | none => false
    | some score => decide (0 < p.denyScoreThreshold ∧ score ≤ p.denyScoreThreshold)
  let action := if escalated then .deny else p.onRejectAction
  let details :=
    [("tool", toolName), ("score", scoreString verdict.overallAvgScore),
      ("sparc", firstExplanation verdict), ("action", onRejectText action),
      ("escalated", toString escalated)]
  match action with
  | .observe => record pctx .observe "reject_observed" (details ++ [("mode", "observe")])
  | .reflect =>
    rewriteInferenceResponse (record pctx .modify "reflected" details)
      (buildClarificationText verdict)
  | .deny =>
    rewriteInferenceResponse (record pctx .deny "blocked" details)
      ("Tool call blocked by policy: " ++ firstExplanation verdict)

def handleUnavailable (pctx : Context) (toolName err : String) : Context :=
  let details := [("tool", toolName), ("error", preview err 240)]
  match p.failPolicy with
  | .openly =>
    record pctx .observe "reflector_unavailable" (details ++ [("mode", "fail_open")])
  | .closed =>
    rewriteInferenceResponse (record pctx .deny "reflector_unavailable" details)
      "Tool call blocked: reflection service unavailable."

def handleNoContext (pctx : Context) (toolName : String) : Context :=
  match p.failPolicy with
  | .openly => pctx.skip "no_inference_context"
  | .closed =>
    rewriteInferenceResponse (record pctx .deny "no_inference_context" [("tool", toolName)])
      "Tool call blocked: no conversation context available to verify it."

/-- `openAIToolCall`: arguments that are empty are written as an empty object. -/
def openAIToolCall (tc : InferenceToolCall) : InferenceToolCall :=
  { tc with arguments := if tc.arguments = "" then "\x7b\x7d" else tc.arguments }

def applyVerdict (format : TextFormat) (pctx : Context) (toolName : String) :
    Except String ReflectVerdict → Context
  | .error err => p.handleUnavailable pctx toolName err
  | .ok verdict =>
    if verdict.decision = "approve" then
      record pctx .allow "grounded"
        [("tool", toolName), ("score", scoreString verdict.overallAvgScore)]
    else if verdict.decision = "reject" then p.handleReject pctx toolName verdict
    else
      p.handleUnavailable pctx toolName
        ("sparc reflector unavailable: sparc decision=" ++ format.quote verdict.decision)

/-- `OnResponse`. The plugin never rejects a response: it rewrites it. -/
def onResponse {W : Type*} (format : TextFormat) (reflect : Reflector W) : Hook W := fun w pctx =>
  match pctx.extensions.inference with
  | none => (.cont, w, pctx)
  | some inf =>
    match inf.toolCalls with
    | [] => (.cont, w, pctx)
    | tc :: _ =>
      if tc.name = "" then (.cont, w, pctx)
      else if p.toolSkipped tc.name then (.cont, w, pctx.skip "tool_skipped")
      else if inf.messages = [] then (.cont, w, p.handleNoContext pctx tc.name)
      else
        let input : ReflectInput :=
          { messages := inf.messages
            toolSpecs := inf.tools
            toolCalls := [openAIToolCall tc]
            sessionID := (pctx.session.map SessionView.id).getD []
            track := p.track }
        let (answer, w) := reflect input w
        (.cont, w, p.applyVerdict format pctx tc.name answer)

/-- The plugin. In inference mode its `OnRequest` lets every request pass. -/
def plugin {W : Type*} (format : TextFormat) (reflect : Reflector W) : Plugin W where
  name := "sparc"
  capabilities := ⟨true, true, [], ["inference-parser", "mcp-parser"]⟩
  onRequest w pctx := (.cont, w, pctx)
  onResponse := p.onResponse format reflect

end SPARC

end Kagenti.AuthBridge
