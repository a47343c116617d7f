import Kagenti.AuthBridge.Intent
import Kagenti.AuthBridge.ParserDisjointness

/-!
Intent-based access control (`plugins/ibac`): the plugin's request hook and the judge that
asks a language model. The model's answers are arbitrary.
-/

namespace Kagenti.AuthBridge

open Go

structure TextFormat where
  bodyExcerpt : Bytes → String
  quote : String → String

def preview (s : String) (n : Nat) : String :=
  if s.toList.length ≤ n then s else String.ofList (s.toList.take n) ++ "…"

/-! The judge -/

structure ChatRequest where
  maxTokens : Int
  messages : List (String × String)
  responseFormat : Option String
  deriving DecidableEq

inductive ClientError where
  | uncertain (message : String)
  | unavailable (message : String)
  deriving DecidableEq

structure VerdictPayload where
  verdict : String
  reason : String
  deriving DecidableEq

abbrev LLM := ChatRequest → Except ClientError VerdictPayload

structure JudgeError where
  uncertain : Bool
  message : String
  deriving DecidableEq

abbrev JudgeOutcome := Except JudgeError (String × String)

structure HttpJudge where
  systemPrompt : String
  maxTokens : Int
  jsonMode : Bool
  deriving DecidableEq

def errJudgeUncertain : String :=
  "LLM produced unparseable output: judge produced unparseable output"

/-- `strings.ToLower`, for the comparison with ASCII words whose letters have no other
characters that fold to them. -/
def toLowerASCII (s : String) : String := String.ofList (s.toList.map Char.toLower)

def HttpJudge.chatRequest (j : HttpJudge) (intent action : String) : ChatRequest where
  maxTokens := j.maxTokens
  messages :=
    [("system", j.systemPrompt),
      ("user", "USER_INTENT:\n" ++ intent ++ "\n\nPROPOSED_ACTION:\n" ++ action)]
  responseFormat := if j.jsonMode then some "json_object" else none

def HttpJudge.evaluate (j : HttpJudge) (format : TextFormat) (llm : LLM) (intent action : String) :
    JudgeOutcome :=
  match llm (j.chatRequest intent action) with
  | .error (.uncertain message) => .error ⟨true, errJudgeUncertain ++ ": " ++ message⟩
  | .error (.unavailable message) => .error ⟨false, message⟩
  | .ok payload =>
    let v := toLowerASCII (trimSpace payload.verdict)
    if v ≠ "allow" ∧ v ≠ "deny" then
      .error ⟨true, errJudgeUncertain ++ ": unrecognized verdict " ++ format.quote payload.verdict⟩
    else .ok (v, trimSpace payload.reason)

/-! The plugin -/

inductive NoIntentPolicy where
  | allow
  | deny
  deriving DecidableEq

inductive UnclassifiedPolicy where
  | passthrough
  | judge
  deriving DecidableEq

structure IBAC where
  judge : HttpJudge
  bypassPaths : Matcher
  bypassHosts : List String
  judgeInference : Bool
  noIntentPolicy : NoIntentPolicy
  unclassifiedPolicy : UnclassifiedPolicy

structure IbacConfig where
  judgeEndpoint : String
  judgeModel : String
  systemPrompt : String
  timeoutMs : Int
  judgeMaxTokens : Int
  judgeJSONMode : Option Bool
  judgeInference : Bool
  agentLLMHost : String
  bypassHosts : List String
  bypassPaths : List String
  noIntentPolicy : String
  unclassifiedPolicy : String

def defaultBypassHosts : List String :=
  ["keycloak.*", "keycloak", "spire-server.*", "spire-agent.*", "otel-collector.*", "jaeger.*",
    "prometheus.*"]

def defaultBypassPaths : List String := ["/healthz", "/readyz", "/livez", "/.well-known/*"]

def defaultSystemPrompt : String :=
  "You are a security policy judge for an AI agent platform.\n" ++
  "The user expressed an intent. The agent is about to perform an outbound action.\n" ++
  "Decide whether the action aligns with the user's intent.\n\n" ++
  "Respond with JSON only, in exactly this shape:\n" ++
  "  \x7b\"verdict\": \"allow\", \"reason\": \"<one sentence>\"\x7d\n" ++
  "  or\n" ++
  "  \x7b\"verdict\": \"deny\", \"reason\": \"<one sentence>\"\x7d\n\n" ++
  "Do not include any text outside the JSON object.\n" ++
  "Be conservative — if the action is unrelated to the intent, includes\n" ++
  "unfamiliar destinations, or looks like data exfiltration, deny."

namespace IbacConfig

def applyDefaults (c : IbacConfig) : IbacConfig :=
  let hosts := if c.bypassHosts = [] then defaultBypassHosts else c.bypassHosts
  { c with
    timeoutMs := if c.timeoutMs = 0 then 5000 else c.timeoutMs
    judgeMaxTokens := if c.judgeMaxTokens = 0 then 1024 else c.judgeMaxTokens
    judgeJSONMode := some (c.judgeJSONMode.getD true)
    bypassHosts := if c.agentLLMHost = "" then hosts else hosts ++ [c.agentLLMHost]
    bypassPaths := if c.bypassPaths = [] then defaultBypassPaths else c.bypassPaths
    noIntentPolicy := if c.noIntentPolicy = "" then "allow" else c.noIntentPolicy
    unclassifiedPolicy :=
      if c.unclassifiedPolicy = "" then "passthrough" else c.unclassifiedPolicy }

def checkBypassPattern (format : TextFormat) (field : String) (sample : Bytes)
    (broad : List String) (p : String) : Except String Unit :=
  if (Path.pathMatch (bytes p) sample).isNone then
    .error ("invalid " ++ field ++ " pattern " ++ format.quote p ++ ": syntax error in pattern")
  else if trimSpace p ∈ broad then
    .error (field ++ " pattern " ++ format.quote p ++ " matches everything; " ++
      "if you mean to disable IBAC, remove it from the pipeline instead")
  else .ok ()

def checkPolicy (format : TextFormat) (field first second value : String) : Except String Unit :=
  if value = first ∨ value = second then .ok ()
  else
    .error (field ++ " must be " ++ format.quote first ++ " or " ++ format.quote second ++ ", got " ++
      format.quote value)

def validate (format : TextFormat) (c : IbacConfig) : Except String Unit := do
  if c.judgeEndpoint = "" then throw "judge_endpoint is required"
  if c.judgeModel = "" then throw "judge_model is required"
  if c.timeoutMs < 100 then throw ("timeout_ms must be at least 100, got " ++ toString c.timeoutMs)
  if c.judgeMaxTokens < 64 then
    throw ("judge_max_tokens must be at least 64, got " ++ toString c.judgeMaxTokens)
  c.bypassHosts.forM (checkBypassPattern format "bypass_hosts" [] ["", "*"])
  c.bypassPaths.forM (checkBypassPattern format "bypass_paths" [Path.slash] ["", "*", "/*"])
  checkPolicy format "no_intent_policy" "allow" "deny" c.noIntentPolicy
  checkPolicy format "unclassified_policy" "passthrough" "judge" c.unclassifiedPolicy

end IbacConfig

def IBAC.configure (format : TextFormat) (c : IbacConfig) : Except String IBAC := do
  let c := c.applyDefaults
  match c.validate format with
  | .error e => throw ("ibac config: " ++ e)
  | .ok () =>
    match newMatcher (c.bypassPaths.map bytes) with
    | .error (.invalid p) =>
      throw ("ibac bypass_paths: invalid bypass pattern " ++ format.quote (text p) ++
        ": syntax error in pattern")
    | .error (.tooBroad p) =>
      throw ("ibac bypass_paths: bypass pattern " ++ format.quote (text p) ++
        " is too broad; use specific path globs")
    | .ok matcher =>
      return {
        judge :=
          { systemPrompt := if c.systemPrompt = "" then defaultSystemPrompt else c.systemPrompt
            maxTokens := c.judgeMaxTokens
            jsonMode := c.judgeJSONMode.getD true }
        bypassPaths := matcher
        bypassHosts := c.bypassHosts
        judgeInference := c.judgeInference
        noIntentPolicy := if c.noIntentPolicy = "allow" then .allow else .deny
        unclassifiedPolicy :=
          if c.unclassifiedPolicy = "passthrough" then .passthrough else .judge }

def matchesAnyHost (patterns : List String) (host : String) : Bool :=
  if host = "" then false
  else
    let host := String.ofList (host.toList.takeWhile (· ≠ ':'))
    patterns.any fun p => Path.pathMatch (bytes p) (bytes host) = some true

def extractMCPToolName (mcp : MCPExtension) : String :=
  if mcp.method = "tools/call" then
    Json.asString (mcp.params.bind fun params => params.lookup "name")
  else ""

def extractMCPToolArgs (mcp : MCPExtension) : String :=
  if mcp.method = "tools/call" then
    match mcp.params.bind fun params => params.lookup "arguments" with
    | some args => args.marshal
    | none => ""
  else ""

def firstUserMessageText (inf : InferenceExtension) : String :=
  match inf.messages.find? fun m => m.role = roleUser with
  | some m => m.content
  | none => ""

def maxActionLen : Nat := 4096

def describeAction (format : TextFormat) (pctx : Context) (judgeInference : Bool) : String :=
  let scheme := if pctx.scheme = "" then "http" else pctx.scheme
  let line := pctx.method.toUpper ++ " " ++ scheme ++ "://" ++ pctx.host ++ text pctx.path
  let body := if pctx.body = [] then "" else "\n\nBODY:\n" ++ format.bodyExcerpt (pctx.body.take 512)
  let labelled (label value : String) : String := if value = "" then "" else label ++ value
  let mcp :=
    match pctx.extensions.mcp with
    | none => ""
    | some mcp =>
      "\n\nMCP_METHOD: " ++ mcp.method ++
        labelled "\nMCP_TOOL: " (extractMCPToolName mcp) ++
        labelled "\nMCP_ARGS: " (preview (extractMCPToolArgs mcp) 256)
  let inference :=
    match pctx.extensions.inference with
    | none => ""
    | some inf =>
      if judgeInference then
        "\n\nINFERENCE_MODEL: " ++ inf.model ++
          labelled "\nINFERENCE_FIRST_USER: " (preview (firstUserMessageText inf) 256)
      else ""
  preview (line ++ body ++ mcp ++ inference) maxActionLen

structure JudgeCall where
  intent : String
  action : String
  outcome : JudgeOutcome

structure Decision where
  action : Action
  pctx : Context
  judged : List JudgeCall

def Decision.unjudged (action : Action) (pctx : Context) : Decision := ⟨action, pctx, []⟩

namespace IBAC

variable (p : IBAC) (format : TextFormat) (llm : LLM) (pctx : Context)

def withoutIntent (subReason code reason explanation : String) : Decision :=
  let action := describeAction format pctx p.judgeInference
  match p.noIntentPolicy with
  | .allow =>
    .unjudged .cont (pctx.record .skip "no_user_context"
      [("action", action), ("sub_reason", subReason), ("explanation", explanation)])
  | .deny =>
    .unjudged (.denyStatus 403 code reason) (pctx.record .deny subReason [("action", action)])

def applyOutcome (intentText action : String) : JudgeOutcome → Action × Context
  | .error err =>
    let errPreview := preview err.message 240
    let details := [("action", action), ("judge_error", errPreview)]
    if err.uncertain then
      (.denyStatus 403 "ibac.judge_uncertain" errPreview,
        pctx.record .deny "judge_uncertain" details)
    else
      (.denyStatus 503 "ibac.judge_unavailable" errPreview,
        pctx.record .deny "judge_unavailable" details)
  | .ok (verdict, reason) =>
    let details :=
      [("intent_preview", preview intentText 80), ("action", action), ("llm_reason", reason)]
    if verdict = "deny" then
      (.denyStatus 403 "ibac.blocked" reason, pctx.record .deny "blocked" details)
    else (.cont, pctx.record .allow "aligned" details)

def consultJudge (intentText : String) : Decision :=
  let action := describeAction format pctx p.judgeInference
  let outcome := p.judge.evaluate format llm intentText action
  let (answer, pctx) := applyOutcome pctx intentText action outcome
  ⟨answer, pctx, [⟨intentText, action, outcome⟩]⟩

def alignWithIntent : Decision :=
  if pctx.extensions.inference.isSome ∧ p.judgeInference = false then
    .unjudged .cont (pctx.skip "inference_bypass")
  else
    match pctx.session with
    | none =>
      p.withoutIntent format pctx "no_session" "ibac.no_session"
        "no active session for outbound request"
        "no active session — treating as agent self-action per no_intent_policy=allow"
    | some session =>
      let intentText := extractIntentText session.lastIntent
      if intentText = "" then
        p.withoutIntent format pctx "no_intent" "ibac.no_intent" "no recorded user intent"
          "session exists but no user intent — treating as agent self-action per no_intent_policy=allow"
      else p.consultJudge format llm pctx intentText

def onRequestConfigured : Decision :=
  if headerGet pctx.headers "X-IBAC-Judge" = "1" then .unjudged .cont pctx
  else if p.bypassPaths.matches pctx.path then .unjudged .cont (pctx.skip "path_bypass")
  else if matchesAnyHost p.bypassHosts pctx.host then .unjudged .cont (pctx.skip "host_bypass")
  else
    let (anyAction, anyBypass) := pctx.classification
    if anyBypass then .unjudged .cont (pctx.skip "protocol_mechanics")
    else if anyAction = false ∧ p.unclassifiedPolicy = .passthrough then .unjudged .cont pctx
    else p.alignWithIntent format llm pctx

/-- `OnRequest`, which rejects until the plugin is configured. -/
def onRequest (p : Option IBAC) : Decision :=
  match p with
  | none => .unjudged (.denyStatus 503 "ibac.unconfigured" "ibac plugin not configured") pctx
  | some p => p.onRequestConfigured format llm pctx

end IBAC

end Kagenti.AuthBridge
