import Kagenti.AuthBridge.Parsers
import Kagenti.AuthBridge.Pipeline

/-!
The response side of the three protocol parsers, and the parsers as plugins.
-/

namespace Kagenti.AuthBridge

open Go

/-- The payloads of the `data:` lines of an event stream. -/
def sseData (body : Bytes) : List Bytes :=
  (splitBytes 0x0A body).filterMap fun line =>
    let line := trimSpaceBytes line
    if (bytes "data:").isPrefixOf line then some (trimSpaceBytes (line.drop 5)) else none

/-! mcp-parser -/

structure JSONRPCResponse where
  id : Json
  result : Option AnyMap
  error : Option MCPError

namespace JSONRPCResponse

def errorInto : Into MCPError :=
  Into.struct
    [("code", Into.field MCPError.code (fun e v => { e with code := v }) Into.int),
      ("message", Into.field MCPError.message (fun e v => { e with message := v }) Into.string),
      ("data", Into.field MCPError.data (fun e v => { e with data := v }) Into.any)]

def into : Into JSONRPCResponse :=
  Into.struct
    [("id", Into.field id (fun r v => { r with id := v }) Into.any),
      ("result", Into.field result (fun r v => { r with result := v }) Into.anyMap),
      ("error", Into.field error (fun r v => { r with error := v })
        (Into.pointer ⟨0, "", .null⟩ errorInto))]

def decode (data : Bytes) : Option JSONRPCResponse := unmarshal into ⟨.null, none, none⟩ data

def isEnvelope (r : JSONRPCResponse) : Bool := r.result.isSome || r.error.isSome

end JSONRPCResponse

def MCPExtension.apply (ext : MCPExtension) (rpc : JSONRPCResponse) : MCPExtension :=
  match rpc.error with
  | some err => { ext with err := some err }
  | none =>
    match rpc.result with
    | some result => { ext with result := some result }
    | none => ext

def applyMCPResponseRPC (pctx : Context) (ext : MCPExtension) (rpc : JSONRPCResponse) : Context :=
  let pctx := pctx.setMCP (some (ext.apply rpc))
  if rpc.error.isSome then pctx.observe "response_error"
  else pctx.observe ("matched_" ++ ext.method ++ "_response")

def parseMCPResponse (body : Bytes) : Option JSONRPCResponse :=
  match (JSONRPCResponse.decode body).filter JSONRPCResponse.isEnvelope with
  | some rpc => some rpc
  | none =>
    (sseData body).findSome? fun data =>
      if data = [] then none
      else (JSONRPCResponse.decode data).filter JSONRPCResponse.isEnvelope

def mcpParserOnResponse (pctx : Context) : Context :=
  match pctx.extensions.mcp with
  | none => pctx
  | some ext =>
    if ext.result.isSome ∨ ext.err.isSome then pctx
    else if pctx.responseBody = [] then pctx.skip "no_response_body"
    else
      match parseMCPResponse pctx.responseBody with
      | none => pctx.skip "unparseable_response"
      | some rpc => applyMCPResponseRPC pctx ext rpc

def maxStreamObserves : Nat := 50

def Context.setMCPStream (pctx : Context) (state : MCPStreamState) : Context :=
  { pctx with extensions := { pctx.extensions with mcpStream := some state } }

def mcpParserOnResponseFrame (frame : Bytes) (last : Bool) (pctx : Context) : Context :=
  match pctx.extensions.mcp with
  | none => pctx
  | some ext =>
    let state := pctx.extensions.mcpStream.getD ⟨0, false⟩
    let pctx := pctx.setMCPStream state
    if frame = [] then
      if last then
        let pctx :=
          if ext.result.isNone ∧ ext.err.isNone ∧ state.observed = 0 then
            pctx.skip "no_response_body"
          else pctx
        if state.truncated then
          pctx.observe ("matched_" ++ ext.method ++ "_response_truncated")
        else pctx
      else pctx
    else
      match (JSONRPCResponse.decode frame).filter JSONRPCResponse.isEnvelope with
      | none => pctx
      | some rpc =>
        if maxStreamObserves ≤ state.observed then
          (pctx.setMCPStream { state with truncated := true }).setMCP (some (ext.apply rpc))
        else
          (applyMCPResponseRPC pctx ext rpc).setMCPStream
            { state with observed := state.observed + 1 }

/-! inference-parser -/

structure RespToolCall where
  id : String
  type : String
  name : String
  arguments : String

structure RespChoice where
  role : String
  content : String
  toolCalls : Slice RespToolCall
  finishReason : String

structure InferenceUsage where
  promptTokens : Int
  completionTokens : Int
  totalTokens : Int
  deriving DecidableEq

structure InferenceResponse where
  choices : Slice RespChoice
  usage : InferenceUsage

def RespToolCall.into : Into RespToolCall :=
  Into.struct
    [("id", Into.field id (fun t v => { t with id := v }) Into.string),
      ("type", Into.field type (fun t v => { t with type := v }) Into.string),
      ("function", Into.struct
        [("name", Into.field name (fun t v => { t with name := v }) Into.string),
          ("arguments", Into.field arguments (fun t v => { t with arguments := v }) Into.string)])]

def RespToolCall.toolCall (tc : RespToolCall) : InferenceToolCall := ⟨tc.id, tc.name, tc.arguments⟩

def RespChoice.into : Into RespChoice :=
  Into.struct
    [("message", Into.struct
        [("role", Into.field role (fun c v => { c with role := v }) Into.string),
          ("content", Into.field content (fun c v => { c with content := v }) Into.string),
          ("tool_calls", Into.field toolCalls (fun c v => { c with toolCalls := v })
            (Into.slice ⟨"", "", "", ""⟩ RespToolCall.into))]),
      ("finish_reason", Into.field finishReason (fun c v => { c with finishReason := v })
        Into.string)]

def InferenceUsage.into : Into InferenceUsage :=
  Into.struct
    [("prompt_tokens", Into.field promptTokens (fun u v => { u with promptTokens := v }) Into.int),
      ("completion_tokens", Into.field completionTokens
        (fun u v => { u with completionTokens := v }) Into.int),
      ("total_tokens", Into.field totalTokens (fun u v => { u with totalTokens := v }) Into.int)]

def InferenceResponse.into : Into InferenceResponse :=
  Into.struct
    [("choices", Into.field choices (fun r v => { r with choices := v })
        (Into.slice ⟨"", "", .nil, ""⟩ RespChoice.into)),
      ("usage", Into.field usage (fun r v => { r with usage := v }) InferenceUsage.into)]

def InferenceExtension.setUsage (ext : InferenceExtension) (usage : InferenceUsage) :
    InferenceExtension :=
  { ext with
    promptTokens := usage.promptTokens
    completionTokens := usage.completionTokens
    totalTokens := usage.totalTokens }

def parseInferenceJSON (body : Bytes) (ext : InferenceExtension) : InferenceExtension :=
  match unmarshal InferenceResponse.into ⟨.nil, 0, 0, 0⟩ body with
  | none => ext
  | some resp =>
    let ext :=
      match resp.choices.toList with
      | [] => ext
      | c :: _ =>
        { ext with
          completion := c.content
          finishReason := c.finishReason
          toolCalls := ext.toolCalls ++ c.toolCalls.toList.map RespToolCall.toolCall }
    ext.setUsage resp.usage

structure StreamChoice where
  content : String
  finishReason : String
  deriving DecidableEq

structure StreamChunk where
  choices : Slice StreamChoice
  usage : InferenceUsage

def StreamChoice.into : Into StreamChoice :=
  Into.struct
    [("delta", Into.struct
        [("content", Into.field content (fun c v => { c with content := v }) Into.string)]),
      ("finish_reason", Into.field finishReason (fun c v => { c with finishReason := v })
        Into.string)]

def StreamChunk.into : Into StreamChunk :=
  Into.struct
    [("choices", Into.field choices (fun r v => { r with choices := v })
        (Into.slice ⟨"", ""⟩ StreamChoice.into)),
      ("usage", Into.field usage (fun r v => { r with usage := v }) InferenceUsage.into)]

def StreamChunk.decode (data : Bytes) : Option StreamChunk :=
  unmarshal into ⟨.nil, 0, 0, 0⟩ data

def StreamChunk.completion (chunk : StreamChunk) (sofar : String) : String :=
  chunk.choices.toList.foldl (fun text c => text ++ c.content) sofar

def StreamChunk.finishReason (chunk : StreamChunk) (old : String) : String :=
  chunk.choices.toList.foldl
    (fun reason c => if c.finishReason = "" then reason else c.finishReason) old

def doneMarker : Bytes := bytes "[DONE]"

def parseInferenceSSE (body : Bytes) (ext : InferenceExtension) : InferenceExtension :=
  let (completion, ext) := (sseData body).foldl
    (fun (completion, ext) data =>
      if data = [] ∨ data = doneMarker then (completion, ext)
      else
        match StreamChunk.decode data with
        | none => (completion, ext)
        | some chunk =>
          let ext := { ext with finishReason := chunk.finishReason ext.finishReason }
          (chunk.completion completion,
            if 0 < chunk.usage.totalTokens then ext.setUsage chunk.usage else ext))
    ("", ext)
  { ext with completion := completion }

def inferenceParserOnResponse (pctx : Context) : Context :=
  match pctx.extensions.inference with
  | none => pctx
  | some ext =>
    if ext.completion ≠ "" ∨ ext.finishReason ≠ "" ∨ 0 < ext.totalTokens then pctx
    else if pctx.responseBody = [] then pctx.skip "no_response_body"
    else
      let parse := if ext.stream then parseInferenceSSE else parseInferenceJSON
      (pctx.setInference (some (parse pctx.responseBody ext))).observe
        ("matched_" ++ ext.model ++ "_response")

def Context.setInferenceStream (pctx : Context) (state : InferenceStreamState) : Context :=
  { pctx with extensions := { pctx.extensions with inferenceStream := some state } }

def InferenceStreamState.fold (state : InferenceStreamState) (ext : InferenceExtension)
    (frame : Bytes) : InferenceStreamState × InferenceExtension :=
  if frame = [] ∨ trimSpaceBytes frame = doneMarker then (state, ext)
  else
    match StreamChunk.decode frame with
    | none => (state, ext)
    | some chunk =>
      let state := { state with completion := chunk.completion state.completion }
      let state :=
        if 0 < chunk.usage.totalTokens then
          { state with
            promptTokens := chunk.usage.promptTokens
            completionTokens := chunk.usage.completionTokens
            totalTokens := chunk.usage.totalTokens }
        else state
      (state, { ext with finishReason := chunk.finishReason ext.finishReason })

def inferenceParserOnResponseFrame (frame : Bytes) (last : Bool) (pctx : Context) : Context :=
  match pctx.extensions.inference with
  | none => pctx
  | some ext =>
    if last && !ext.stream then
      if frame = [] then pctx.skip "no_response_body"
      else
        (pctx.setInference (some (parseInferenceJSON frame ext))).observe
          ("matched_" ++ ext.model ++ "_response")
    else
      let (state, ext) := (pctx.extensions.inferenceStream.getD ⟨"", 0, 0, 0⟩).fold ext frame
      let pctx := pctx.setInferenceStream state
      if last then
        let ext := { ext with completion := state.completion }
        let ext :=
          if 0 < state.totalTokens then
            ext.setUsage ⟨state.promptTokens, state.completionTokens, state.totalTokens⟩
          else ext
        let pctx := pctx.setInference (some ext)
        if ext.completion = "" ∧ ext.finishReason = "" ∧ ext.totalTokens = 0 then
          pctx.skip "no_response_body"
        else pctx.observe ("matched_" ++ ext.model ++ "_response")
      else pctx.setInference (some ext)

/-! a2a-parser -/

structure TextPart where
  kind : String
  text : String
  deriving DecidableEq

def TextPart.into : Into TextPart :=
  Into.struct
    [("kind", Into.field kind (fun p v => { p with kind := v }) Into.string),
      ("text", Into.field text (fun p v => { p with text := v }) Into.string)]

def partsInto : Into (Slice TextPart) := Into.slice ⟨"", ""⟩ TextPart.into

def partTexts (parts : Slice TextPart) : List String :=
  (parts.toList.filter fun p => decide (p.kind = "text" ∧ p.text ≠ "")).map TextPart.text

structure SendResult where
  state : String
  messageParts : Slice TextPart
  artifacts : Slice (Slice TextPart)
  taskID : String

def SendResult.into : Into SendResult :=
  Into.struct [("result", Into.struct
    [("status", Into.struct
        [("state", Into.field state (fun r v => { r with state := v }) Into.string),
          ("message", Into.struct
            [("parts", Into.field messageParts (fun r v => { r with messageParts := v })
              partsInto)])]),
      ("artifacts", Into.field artifacts (fun r v => { r with artifacts := v })
        (Into.slice .nil (Into.struct [("parts", partsInto)]))),
      ("taskId", Into.field taskID (fun r v => { r with taskID := v }) Into.string)])]

/-- `extractSendResponse`, with no value where it returns false. -/
def extractSendResponse (body : Bytes) (ext : A2AExtension) : Option A2AExtension :=
  match unmarshal SendResult.into ⟨"", .nil, .nil, ""⟩ body with
  | none => none
  | some r =>
    if r.state = "" then none
    else
      some
        { ext with
          finalStatus := r.state
          taskID := if ext.taskID = "" ∧ r.taskID ≠ "" then r.taskID else ext.taskID
          artifact := ((r.artifacts.toList.flatMap partTexts).getLast?).getD ext.artifact
          errorMessage :=
            if r.state = "failed" then ((partTexts r.messageParts).head?).getD ext.errorMessage
            else ext.errorMessage }

structure StreamEvent where
  kind : String
  final : Bool
  taskID : String
  state : String
  messageParts : Slice TextPart
  artifactParts : Slice TextPart

def StreamEvent.into : Into StreamEvent :=
  Into.struct [("result", Into.struct
    [("kind", Into.field kind (fun r v => { r with kind := v }) Into.string),
      ("final", Into.field final (fun r v => { r with final := v }) Into.bool),
      ("taskId", Into.field taskID (fun r v => { r with taskID := v }) Into.string),
      ("status", Into.struct
        [("state", Into.field state (fun r v => { r with state := v }) Into.string),
          ("message", Into.struct
            [("parts", Into.field messageParts (fun r v => { r with messageParts := v })
              partsInto)])]),
      ("artifact", Into.struct
        [("parts", Into.field artifactParts (fun r v => { r with artifactParts := v })
          partsInto)])])]

def maxArtifactBytes : Nat := 64 * 1024

def truncMarker : Bytes := bytes "…(truncated)"

-- The cut can go through a character, so this is on the bytes of the strings.
def appendCapped (dst s : Bytes) : Bytes :=
  if maxArtifactBytes ≤ dst.length then dst
  else
    let remaining := maxArtifactBytes - dst.length
    if s.length ≤ remaining then dst ++ s else dst ++ s.take remaining ++ truncMarker

/-! What the fragments of an artifact add up to -/

def capped (whole : Bytes) : Bytes :=
  if whole.length ≤ maxArtifactBytes then whole else whole.take maxArtifactBytes ++ truncMarker

section Capped

variable {dst whole : Bytes} (s : Bytes) (fragments : List Bytes)

theorem length_capped_of_over (exceeds : maxArtifactBytes < whole.length) :
    maxArtifactBytes < (capped whole).length := by
  have marked : 0 < truncMarker.length := by decide
  rw [capped, if_neg exceeds.not_ge, List.length_append, List.length_take]
  omega

theorem appendCapped_of_room (room : dst.length < maxArtifactBytes) :
    appendCapped dst s = capped (dst ++ s) := by
  rw [appendCapped, if_neg room.not_ge, capped, List.length_append, List.take_append,
    List.take_of_length_le room.le]
  exact if_congr (by omega) rfl rfl

theorem foldl_appendCapped_of_full (full : maxArtifactBytes ≤ dst.length) :
    fragments.foldl appendCapped dst = dst := by
  induction fragments with
  | nil => rfl
  | cons s rest ih => rw [List.foldl_cons, appendCapped, if_pos full, ih]

theorem foldl_appendCapped_iff_of_fits (fits : dst.length ≤ maxArtifactBytes) :
    fragments.foldl appendCapped dst = capped (dst ++ fragments.flatten) ↔
      (dst ++ fragments.flatten).length ≤ maxArtifactBytes ∨
        ∀ n, (dst ++ (fragments.take n).flatten).length ≠ maxArtifactBytes := by
  induction fragments generalizing dst with
  | nil => simp [capped, fits]
  | cons s rest ih =>
    rcases fits.eq_or_lt with full | room
    -- what comes after a text that ends at the cap is dropped without a marker
    · rw [foldl_appendCapped_of_full _ full.ge, or_iff_left fun h => h 0 (by simpa using full)]
      by_cases exceeds : maxArtifactBytes < (dst ++ (s :: rest).flatten).length
      · refine iff_of_false (fun same => ?_) exceeds.not_ge
        have longer := length_capped_of_over exceeds
        rw [← same] at longer
        omega
      · refine iff_of_true ?_ (not_lt.mp exceeds)
        rw [List.length_append] at exceeds
        rw [List.eq_nil_of_length_eq_zero (by omega : (s :: rest).flatten.length = 0),
          List.append_nil, capped, if_pos fits]
    · rw [List.foldl_cons, appendCapped_of_room s room, ← Nat.and_forall_add_one]
      simp only [List.take_succ_cons, List.flatten_cons, ← List.append_assoc]
      by_cases exceeds : maxArtifactBytes < (dst ++ s).length
      · have long (more : Bytes) : maxArtifactBytes < (dst ++ s ++ more).length := by
          rw [List.length_append]
          omega
        refine iff_of_true ?_ (.inr ⟨by simpa using room.ne, fun n => (long _).ne'⟩)
        rw [foldl_appendCapped_of_full _ (length_capped_of_over exceeds).le, capped, capped,
          if_neg exceeds.not_ge, if_neg (long _).not_ge, List.take_append_of_le_length exceeds.le]
      · rw [capped, if_pos (not_lt.mp exceeds), ih (not_lt.mp exceeds)]
        simp [room.ne]

end Capped

/-- The artifact is the text of its fragments, cut at the cap with one marker, exactly if the
text fits or no fragment ends at the cap. -/
theorem foldl_appendCapped_iff (fragments : List Bytes) :
    fragments.foldl appendCapped [] = capped fragments.flatten ↔
      fragments.flatten.length ≤ maxArtifactBytes ∨
        ∀ n, (fragments.take n).flatten.length ≠ maxArtifactBytes :=
  foldl_appendCapped_iff_of_fits fragments (Nat.zero_le _)

/-- Of two fragments of which the first ends at the cap, the second is dropped unmarked. -/
theorem foldl_appendCapped_unmarked :
    [List.replicate maxArtifactBytes 97, [98]].foldl appendCapped [] ≠
      capped [List.replicate maxArtifactBytes 97, [98]].flatten := by
  intro same
  rcases (foldl_appendCapped_iff_of_fits _ (Nat.zero_le _)).mp same with fits | apart
  · rw [List.nil_append, List.flatten_cons, List.length_append, List.length_replicate] at fits
    exact Nat.not_succ_le_self _ fits
  · exact apart 1 (by simp)

def extractStreamEvent (data : Bytes) (ext : A2AExtension) : A2AExtension :=
  match unmarshal StreamEvent.into ⟨"", false, "", "", .nil, .nil⟩ data with
  | none => ext
  | some r =>
    let ext := { ext with
      taskID := if ext.taskID = "" ∧ r.taskID ≠ "" then r.taskID else ext.taskID }
    if r.kind = "status-update" then
      if r.final then
        { ext with
          finalStatus := r.state
          errorMessage :=
            if r.state = "failed" then ((partTexts r.messageParts).head?).getD ext.errorMessage
            else ext.errorMessage }
      else ext
    else if r.kind = "artifact-update" ∨ r.kind = "artifact" then
      let fragments := (partTexts r.artifactParts).map bytes
      { ext with artifact := text (fragments.foldl appendCapped (bytes ext.artifact)) }
    else ext

structure SessionIDs where
  contextID : String
  sessionID : String

def SessionIDs.into : Into SessionIDs :=
  Into.struct [("result", Into.struct
    [("contextId", Into.field contextID (fun r v => { r with contextID := v }) Into.string),
      ("sessionId", Into.field sessionID (fun r v => { r with sessionID := v }) Into.string)])]

def sessionIDFromJSON (data : Bytes) : String :=
  match unmarshal SessionIDs.into ⟨"", ""⟩ data with
  | none => ""
  | some ids => if ids.contextID ≠ "" then ids.contextID else ids.sessionID

def extractSessionID (body : Bytes) : String :=
  let candidates := sessionIDFromJSON body :: (sseData body).map sessionIDFromJSON
  (candidates.find? (· ≠ "")).getD ""

/-- A session id from the response, where the request had none. -/
def A2AExtension.adoptSessionID (ext : A2AExtension) (found : String) : A2AExtension :=
  if ext.sessionID = "" ∧ found ≠ "" then { ext with sessionID := found } else ext

def extractResponseSummary (body : Bytes) (ext : A2AExtension) : A2AExtension :=
  match extractSendResponse body ext with
  | some ext => ext
  | none =>
    (sseData body).foldl (fun ext data => if data = [] then ext else extractStreamEvent data ext) ext

def a2aParserOnResponse (pctx : Context) : Context :=
  match pctx.extensions.a2a with
  | none => pctx
  | some ext =>
    if ext.finalStatus ≠ "" ∨ ext.artifact ≠ "" ∨ ext.errorMessage ≠ "" then pctx
    else if pctx.responseBody = [] then pctx.skip "no_response_body"
    else
      let ext := ext.adoptSessionID (extractSessionID pctx.responseBody)
      let ext := extractResponseSummary pctx.responseBody ext
      (pctx.setA2A (some ext)).observe ("matched_" ++ ext.method ++ "_response")

def a2aParserOnResponseFrame (frame : Bytes) (last : Bool) (pctx : Context) : Context :=
  match pctx.extensions.a2a with
  | none => pctx
  | some ext =>
    let ext :=
      if frame = [] then ext
      else
        ((extractSendResponse frame ext).getD (extractStreamEvent frame ext)).adoptSessionID
          (sessionIDFromJSON frame)
    let pctx := pctx.setA2A (some ext)
    if last then
      if ext.finalStatus = "" ∧ ext.artifact = "" ∧ ext.errorMessage = "" then
        pctx.skip "no_response_body"
      else pctx.observe ("matched_" ++ ext.method ++ "_response")
    else pctx

def A2AExtension.foldFrame (ext : A2AExtension) (frame : Bytes) : A2AExtension :=
  if frame = [] then ext
  else
    ((extractSendResponse frame ext).getD (extractStreamEvent frame ext)).adoptSessionID
      (sessionIDFromJSON frame)

theorem a2a_onResponseFrame {pctx : Context} {ext : A2AExtension}
    (h : pctx.extensions.a2a = some ext) (frame : Bytes) (last : Bool) :
    (a2aParserOnResponseFrame frame last pctx).extensions.a2a = some (ext.foldFrame frame) := by
  unfold a2aParserOnResponseFrame
  rw [h]
  have settled (ext : A2AExtension) : (
      let pctx := pctx.setA2A (some ext)
      if last then
        if ext.finalStatus = "" ∧ ext.artifact = "" ∧ ext.errorMessage = "" then
          pctx.skip "no_response_body"
        else pctx.observe ("matched_" ++ ext.method ++ "_response")
      else pctx).extensions.a2a = some ext := by
    split
    · split
      · exact Context.record_a2a _ _ _ _
      · exact Context.record_a2a _ _ _ _
    · rfl
  exact settled (ext.foldFrame frame)

/-! The parsers as plugins -/

def parserPlugin {W : Type*} (name : String) (onRequest onResponse : Context → Context)
    (onResponseFrame : Bytes → Bool → Context → Context) : Plugin W :=
  let hook (f : Context → Context) : Hook W := fun w pctx => (.cont, w, f pctx)
  { name := name
    capabilities := ⟨true, false, [], []⟩
    onRequest := hook onRequest
    onResponse := hook onResponse
    onResponseFrame := some fun frame last => hook (onResponseFrame frame last) }

def mcpParser {W : Type*} (config : MCPParser) : Plugin W :=
  parserPlugin "mcp-parser" config.onRequest mcpParserOnResponse mcpParserOnResponseFrame

def a2aParser {W : Type*} : Plugin W :=
  parserPlugin "a2a-parser" a2aParserOnRequest a2aParserOnResponse a2aParserOnResponseFrame

def inferenceParser {W : Type*} : Plugin W :=
  parserPlugin "inference-parser" inferenceParserOnRequest inferenceParserOnResponse
    inferenceParserOnResponseFrame

end Kagenti.AuthBridge
