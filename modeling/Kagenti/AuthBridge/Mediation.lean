import Kagenti.AuthBridge.Ibac
import Kagenti.Lib.Outcome

/-!
When a request reaches the judge: behind mcp-parser, an action call passes all early exits of the
hook but the ones an operator has opened.
-/

namespace Kagenti.AuthBridge

open Go

/-! The judge -/

theorem HttpJudge.evaluate_ok {j : HttpJudge} {format : TextFormat} {llm : LLM}
    {intent action verdict reason : String}
    (h : j.evaluate format llm intent action = .ok (verdict, reason)) :
    verdict = "allow" ∨ verdict = "deny" := by
  unfold HttpJudge.evaluate at h
  split at h
  · contradiction
  · contradiction
  next payload _ => grind

namespace IBAC

variable (p : IBAC) (format : TextFormat) (llm : LLM) (pctx : Context)

theorem applyOutcome_cont_iff (intentText action : String) {outcome : JudgeOutcome}
    (known : ∀ verdict reason, outcome = .ok (verdict, reason) →
      verdict = "allow" ∨ verdict = "deny") :
    (applyOutcome pctx intentText action outcome).1 = .cont ↔
      ∃ reason, outcome = .ok ("allow", reason) := by
  cases outcome with
  | error err =>
    cases uncertain : err.uncertain <;> simp [applyOutcome, uncertain, Action.denyStatus]
  | ok value => grind [applyOutcome, Action.denyStatus]

theorem consultJudge_spec (intentText : String) :
    let decision := p.consultJudge format llm pctx intentText
    let action := describeAction format pctx p.judgeInference
    let outcome := p.judge.evaluate format llm intentText action
    decision.judged = [⟨intentText, action, outcome⟩] ∧
      (decision.action = .cont ↔ ∃ reason, outcome = .ok ("allow", reason)) := by
  intro decision action outcome
  refine ⟨rfl, ?_⟩
  apply applyOutcome_cont_iff
  intro verdict reason ok
  exact HttpJudge.evaluate_ok ok

/-- The early exits that do not look at the extensions. -/
structure Unguarded : Prop where
  header : headerGet pctx.headers "X-IBAC-Judge" ≠ "1"
  path : p.bypassPaths.matches pctx.path = false
  host : matchesAnyHost p.bypassHosts pctx.host = false

variable {p format llm pctx}

theorem onRequest_eq_consultJudge (unguarded : Unguarded p pctx)
    (noBypass : pctx.classification.2 = false)
    (classified : pctx.classification.1 = true ∨ p.unclassifiedPolicy = .judge)
    (inference : pctx.extensions.inference = none ∨ p.judgeInference = true)
    {session : SessionView} (hsession : pctx.session = some session)
    (intent : extractIntentText session.lastIntent ≠ "") :
    onRequest format llm pctx (some p) =
      p.consultJudge format llm pctx (extractIntentText session.lastIntent) := by
  have gate : ¬(pctx.classification.1 = false ∧ p.unclassifiedPolicy = .passthrough) := by grind
  have judged : ¬(pctx.extensions.inference.isSome = true ∧ p.judgeInference = false) := by grind
  simp only [onRequest, onRequestConfigured, unguarded.header, unguarded.path, unguarded.host,
    noBypass, if_false, Bool.false_eq_true]
  rw [if_neg gate, alignWithIntent, if_neg judged, hsession]
  exact if_neg intent

end IBAC

/-! Classification behind the parsers -/

structure NoBypass (pctx : Context) : Prop where
  mcp : ∀ ext, pctx.extensions.mcp = some ext → ext.isAction = true
  a2a : ∀ ext, pctx.extensions.a2a = some ext → ext.isAction = true
  inference : ∀ ext, pctx.extensions.inference = some ext → ext.isAction = true

theorem addVerdict_of_action {flags : Bool × Bool} {verdict : Option Bool}
    (h : ∀ action, verdict = some action → action = true) :
    Context.addVerdict flags verdict = (flags.1 || verdict.isSome, flags.2) := by
  cases verdict with
  | none => simp [Context.addVerdict]
  | some action =>
    rw [h action rfl]
    simp [Context.addVerdict]

variable {pctx : Context}

theorem NoBypass.classification (h : NoBypass pctx) : pctx.classification =
      (pctx.extensions.mcp.isSome || pctx.extensions.a2a.isSome ||
        pctx.extensions.inference.isSome, false) := by
  have verdicts {α : Type} {slot : Option α} {isAction : α → Bool}
      (all : ∀ ext, slot = some ext → isAction ext = true) :
      ∀ action, slot.map isAction = some action → action = true := by
    intro action found
    obtain ⟨ext, here, rfl⟩ := Option.map_eq_some_iff.mp found
    exact all ext here
  rw [Context.classification]
  rw [addVerdict_of_action (verdicts h.mcp), addVerdict_of_action (verdicts h.a2a),
    addVerdict_of_action (verdicts h.inference)]
  simp

/-- The body is one JSON-RPC call of an action. -/
def SingleActionCall (body : Bytes) : Prop :=
  ∃ rpc, JSONRPCRequest.decode body = some rpc ∧ isMCPAction rpc.method = true

/-- The body is a JSON-RPC batch with a call of an action. -/
def BatchActionCall (body : Bytes) : Prop :=
  ∃ calls call rpc, Json.parse body = some (.arr calls) ∧ call ∈ calls ∧
    JSONRPCRequest.into .zero call = some rpc ∧ isMCPAction rpc.method = true

theorem SingleActionCall.ne_nil {body : Bytes} (h : SingleActionCall body) : body ≠ [] := by
  rintro rfl
  obtain ⟨rpc, decoded, -⟩ := h
  contradiction

theorem SingleActionCall.accepts (h : SingleActionCall pctx.body) (config : MCPParser) :
    (Parser.mcp config).accepts pctx = true := by
  have nonempty := h.ne_nil
  obtain ⟨rpc, decoded, action⟩ := h
  have method : rpc.method ≠ "" := by
    intro empty
    rw [empty] at action
    contradiction
  simp [Parser.accepts, nonempty, decoded, method]

theorem NoBypass.mcpParser (h : NoBypass pctx) (call : SingleActionCall pctx.body)
    (config : MCPParser) : NoBypass (config.onRequest pctx) := by
  have nonempty := call.ne_nil
  obtain ⟨rpc, decoded, action⟩ := call
  rw [MCPParser.onRequest, if_neg nonempty, decoded]
  dsimp only
  split
  · exact h
  · refine ⟨?_, ?_, ?_⟩
    · intro ext found
      rw [Context.observe, Context.record_mcp] at found
      obtain rfl := Option.some.inj found
      exact action
    · intro ext found
      rw [Context.observe, Context.record_a2a] at found
      exact h.a2a ext found
    · intro ext found
      rw [Context.observe, Context.record_inference] at found
      exact h.inference ext found

theorem NoBypass.inferenceParser (h : NoBypass pctx) :
    NoBypass (inferenceParserOnRequest pctx) := by
  unfold inferenceParserOnRequest
  split
  · exact h
  · split
    · exact h
    · refine ⟨?_, ?_, ?_⟩
      · intro ext found
        rw [Context.observe, Context.record_mcp] at found
        exact h.mcp ext found
      · intro ext found
        rw [Context.observe, Context.record_a2a] at found
        exact h.a2a ext found
      · intro ext found
        rw [Context.observe, Context.record_inference] at found
        obtain rfl := Option.some.inj found
        rfl

variable {order : List Parser}

theorem NoBypass.run (noA2A : Parser.a2a ∉ order) (h : NoBypass pctx)
    (call : SingleActionCall pctx.body) : NoBypass (runParsers order pctx) := by
  induction order generalizing pctx with
  | nil => exact h
  | cons q order ih =>
    have rest : Parser.a2a ∉ order := fun member => noA2A (List.mem_cons_of_mem q member)
    have body : (q.onRequest pctx).body = pctx.body := by
      obtain ⟨e, frame⟩ := (q.effect pctx).frame
      rw [frame]
    have step : NoBypass (q.onRequest pctx) := by
      cases q with
      | mcp config => exact h.mcpParser call config
      | a2a => exact absurd List.mem_cons_self noA2A
      | inference => exact h.inferenceParser
    exact ih rest step (by rwa [body])

theorem noBypass_of_fresh (fresh : ∀ protocol, pctx.extensions.has protocol = false) :
    NoBypass pctx := by
  refine ⟨fun ext found => ?_, fun ext found => ?_, fun ext found => ?_⟩
  · have := fresh .mcp
    simp [Extensions.has, found] at this
  · have := fresh .a2a
    simp [Extensions.has, found] at this
  · have := fresh .inference
    simp [Extensions.has, found] at this

theorem BatchActionCall.accepts (h : BatchActionCall pctx.body) (q : Parser) :
    q.accepts pctx = false := by
  obtain ⟨calls, -, -, parsed, -⟩ := h
  have nonempty : pctx.body ≠ [] := by
    intro empty
    rw [empty] at parsed
    contradiction
  have notRequest : JSONRPCRequest.decode pctx.body = none := by
    simp [JSONRPCRequest.decode, unmarshal, parsed, JSONRPCRequest.into, Into.struct]
  have notInference : InferenceRequest.decode pctx.body = none := by
    simp [InferenceRequest.decode, unmarshal, parsed, InferenceRequest.into, Into.struct]
  cases q <;> simp [Parser.accepts, nonempty, notRequest, notInference]

theorem BatchActionCall.fresh_run (h : BatchActionCall pctx.body) (order : List Parser)
    (fresh : ∀ protocol, pctx.extensions.has protocol = false) :
    ∀ protocol, (runParsers order pctx).extensions.has protocol = false := by
  intro protocol
  rw [runParsers_has, fresh protocol]
  simp [h.accepts]

theorem classification_of_action_call {p : IBAC} {config : MCPParser}
    (mcp : Parser.mcp config ∈ order) (fresh : ∀ protocol, pctx.extensions.has protocol = false)
    (call : SingleActionCall pctx.body ∧ Parser.a2a ∉ order ∨
      BatchActionCall pctx.body ∧ p.unclassifiedPolicy = .judge) :
    (runParsers order pctx).classification.2 = false ∧
      ((runParsers order pctx).classification.1 = true ∨ p.unclassifiedPolicy = .judge) := by
  rcases call with ⟨single, noA2A⟩ | ⟨batch, judge⟩
  · have verdicts := ((noBypass_of_fresh fresh).run noA2A single).classification
    have filled : (runParsers order pctx).extensions.has .mcp = true := by
      rw [runParsers_has, Bool.or_eq_true]
      right
      apply List.any_eq_true.mpr
      exact ⟨.mcp config, mcp, by simp [Parser.protocol, single.accepts config]⟩
    have some : (runParsers order pctx).extensions.mcp.isSome = true := filled
    rw [verdicts, some]
    simp
  · have verdicts := (noBypass_of_fresh (batch.fresh_run order fresh)).classification
    rw [verdicts]
    exact ⟨rfl, .inr judge⟩

/-- A request that carries an action call, alone behind parsers other than a2a-parser or in
a batch under the policy to judge unclassified requests, that does not carry the header
of the judge's own calls and that no bypass of the operator covers, is put before the
judge, with the recorded intent and its own description. It goes on exactly if the verdict
is `allow`, and is rejected after every other outcome. -/
theorem action_call_mediated (p : IBAC) (format : TextFormat) (llm : LLM) (order : List Parser)
    (config : MCPParser) (mcp : Parser.mcp config ∈ order) (pctx : Context)
    (fresh : ∀ protocol, pctx.extensions.has protocol = false) (unguarded : p.Unguarded pctx)
    (call : SingleActionCall pctx.body ∧ Parser.a2a ∉ order ∨
      BatchActionCall pctx.body ∧ p.unclassifiedPolicy = .judge)
    (inference : (runParsers order pctx).extensions.inference = none ∨ p.judgeInference = true)
    (session : SessionView) (hsession : pctx.session = some session)
    (intent : extractIntentText session.lastIntent ≠ "") :
    let parsed := runParsers order pctx
    let decision := IBAC.onRequest format llm parsed (some p)
    let action := describeAction format parsed p.judgeInference
    let outcome := p.judge.evaluate format llm (extractIntentText session.lastIntent) action
    decision.judged = [⟨extractIntentText session.lastIntent, action, outcome⟩] ∧
      (decision.action = .cont ↔ ∃ reason, outcome = .ok ("allow", reason)) ∧
      ((¬∃ reason, outcome = .ok ("allow", reason)) →
        ∃ violation, decision.action = .reject violation) := by
  intro parsed decision action outcome
  obtain ⟨e, frame⟩ := runParsers_frame order pctx
  have unguarded : p.Unguarded parsed := by
    have ⟨header, path, host⟩ := unguarded
    constructor <;> simpa only [parsed, frame]
  have hsession : parsed.session = some session := by simpa only [parsed, frame]
  obtain ⟨noBypass, classified⟩ := classification_of_action_call mcp fresh call
  have judged : decision =
      p.consultJudge format llm parsed (extractIntentText session.lastIntent) :=
    IBAC.onRequest_eq_consultJudge unguarded noBypass classified inference hsession intent
  obtain ⟨calls, goesOn⟩ :=
    p.consultJudge_spec format llm parsed (extractIntentText session.lastIntent)
  rw [← judged] at calls goesOn
  refine ⟨calls, goesOn, ?_⟩
  intro notAllowed
  cases answer : decision.action with
  | cont => exact absurd (goesOn.mp answer) notAllowed
  | reject violation => exact ⟨violation, rfl⟩

def minimalConfig : IbacConfig where
  judgeEndpoint := "http://judge:11434"
  judgeModel := "judge"
  systemPrompt := ""
  timeoutMs := 0
  judgeMaxTokens := 0
  judgeJSONMode := none
  judgeInference := false
  agentLLMHost := ""
  bypassHosts := []
  bypassPaths := []
  noIntentPolicy := ""
  unclassifiedPolicy := ""

def plainFormat : TextFormat := ⟨text, id⟩

def toolCallWithIntent (headers : Header) : Context :=
  { toolCallRequest with
    headers := headers
    session := some ⟨defaultSessionID, [inboundRequestEvent userMessage]⟩ }

/-- The defaults pass their own checks, and the plugin that they give puts the tool call
before the judge, whatever the model is. -/
theorem toolCall_mediated_by_defaults :
    ∃ p, IBAC.configure plainFormat minimalConfig = .ok p ∧
      ∀ llm, (IBAC.onRequest plainFormat llm
          (runParsers [.mcp ⟨none⟩, .inference] (toolCallWithIntent ∅)) (some p)).judged ≠ [] := by
  obtain ⟨p, configured, path, host⟩ : ∃ p, IBAC.configure plainFormat minimalConfig = .ok p ∧
      p.bypassPaths.matches (bytes "/mcp") = false ∧
      matchesAnyHost p.bypassHosts "tools:8080" = false := by
    decide +kernel
  have call : ∃ rpc ∈ JSONRPCRequest.decode (toolCallWithIntent ∅).body,
      isMCPAction rpc.method = true := by decide +kernel
  refine ⟨p, configured, fun llm => ?_⟩
  have calls := (action_call_mediated p plainFormat llm [.mcp ⟨none⟩, .inference] ⟨none⟩
    List.mem_cons_self (toolCallWithIntent ∅) (fun protocol => by cases protocol <;> rfl)
    ⟨by decide, path, host⟩ (.inl ⟨call, by simp⟩) (.inl (by decide +kernel)) _ rfl
    (by decide +kernel)).1
  rw [calls]
  exact List.cons_ne_nil _ _

/-- The agent's own header turns the judge off: a tool call with a recorded intent that no
bypass covers goes on without a judge call, although the model would deny it. -/
theorem toolCall_unjudged_with_header :
    ((IBAC.configure plainFormat minimalConfig).toOption.any fun p =>
      let pctx := toolCallWithIntent (AList.singleton "X-Ibac-Judge" ["1"])
      let parsed := runParsers [.mcp ⟨none⟩, .inference] pctx
      let decision := IBAC.onRequest plainFormat (fun _ => .ok ⟨"deny", ""⟩) parsed (some p)
      (JSONRPCRequest.decode pctx.body).any (fun rpc => isMCPAction rpc.method) &&
        p.bypassPaths.matches pctx.path = false && matchesAnyHost p.bypassHosts pctx.host = false &&
        parsed.extensions.inference.isNone &&
        pctx.session.any (fun session => extractIntentText session.lastIntent ≠ "") &&
        decision.action = .cont && decision.judged.isEmpty) = true := by
  rw [toolCallWithIntent, userMessage, inboundA2A_eq]
  decide +kernel

end Kagenti.AuthBridge
