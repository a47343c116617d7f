import Kagenti.AuthBridge.OutboundResponse

/-!
Whether the SPARC plugin mediates the tool calls of a completion (`OnResponse` in
`plugins/sparc/plugin.go`). Only the first call goes to the reflection service.
-/

namespace Kagenti.AuthBridge

open Go

/-! Tool calls of a chat completion -/

/-- The tool calls of a message, with the older `function_call`. -/
def messageToolCalls : Option Json → List Json
  | some (.obj message) =>
    (match Json.member message "tool_calls" with
      | some (.arr calls) => calls
      | some call => [call]
      | none => []) ++ (Json.member message "function_call").toList
  | _ => []

/-- The tool calls of a choice, whether it is whole or a delta. -/
def choiceToolCalls : Json → List Json
  | .obj choice =>
    messageToolCalls (Json.member choice "message") ++ messageToolCalls (Json.member choice "delta")
  | _ => []

def completionToolCalls : Json → List Json
  | .obj completion =>
    match Json.member completion "choices" with
    | some (.arr choices) => choices.flatMap choiceToolCalls
    | _ => []
  | _ => []

variable (message : String) (ms : List (String × Json))

theorem member_append_last (key : String) (value : Json) :
    Json.member (ms ++ [(key, value)]) key = some value := by
  simp [Json.member]

theorem member_append_other {key other : String} (value : Json)
    (h : other ≠ key) : Json.member (ms ++ [(other, value)]) key = Json.member ms key := by
  simp [Json.member, h]

theorem member_filter_ne (key : String) : Json.member (ms.filter fun m => m.1 ≠ key) key = none := by
  simp [Json.member]

theorem messageToolCalls_assistant : messageToolCalls (some (assistantMessage message)) = [] := by
  simp [messageToolCalls, assistantMessage, Json.member]

theorem choiceToolCalls_rewriteChoice (choice : List (String × Json)) :
    choiceToolCalls (rewriteChoice message choice) = [] := by
  have hkeys : ∀ key ∈ ["message", "delta"], "finish_reason" ≠ key := by decide
  have hmessage : Json.member (choice.filter (fun m => m.1 ≠ "delta") ++
      [("message", assistantMessage message), ("finish_reason", .str "stop")]) "message" =
        some (assistantMessage message) := by
    rw [List.append_cons, member_append_other _ _ (hkeys "message" (by simp)), member_append_last]
  have hdelta : Json.member (choice.filter (fun m => m.1 ≠ "delta") ++
      [("message", assistantMessage message), ("finish_reason", .str "stop")]) "delta" = none := by
    rw [List.append_cons, member_append_other _ _ (hkeys "delta" (by simp)),
      member_append_other _ _ (by decide), member_filter_ne]
  unfold choiceToolCalls rewriteChoice
  simp only [hmessage, hdelta, messageToolCalls_assistant]
  rfl

theorem completionToolCalls_rewritten (body : Bytes) (message : String) :
    completionToolCalls (rewrittenCompletion body message) = [] := by
  have hfallback : completionToolCalls (.obj
      [("object", .str "chat.completion"),
        ("choices", .arr [.obj
          [("index", .num ⟨false, [0], [], none⟩), ("message", assistantMessage message),
            ("finish_reason", .str "stop")]])]) = [] := by
    simp [completionToolCalls, choiceToolCalls, Json.member, messageToolCalls_assistant]
    rfl
  unfold rewrittenCompletion
  split
  · grind [member_append_last, choiceToolCalls_rewriteChoice, completionToolCalls]
  · exact hfallback

/-! Mediation -/

structure Reflection where
  input : ReflectInput
  answer : Except String ReflectVerdict

def Reflector.logged {W : Type*} (reflect : Reflector W) : Reflector (W × List Reflection) :=
  fun input (w, log) =>
    let (answer, w) := reflect input w
    (answer, w, log ++ [⟨input, answer⟩])

namespace SPARC

variable {W : Type*} (p : SPARC)

def blocks : Except String ReflectVerdict → Prop
  | .error _ => p.failPolicy = .closed
  | .ok verdict =>
    if verdict.decision = "approve" then False
    else if verdict.decision = "reject" then p.onRejectAction ≠ .observe
    else p.failPolicy = .closed

structure Mediates (inf : InferenceExtension) (log : List Reflection) (delivered : Option Bytes) :
    Prop where
  submitted : ∀ tc ∈ inf.toolCalls, p.toolSkipped tc.name = false →
    ∃ r ∈ log, openAIToolCall tc ∈ r.input.toolCalls
  withheld : (∃ r ∈ log, p.blocks r.answer) → ∃ completion : Json,
    delivered = some (bytes completion.marshal) ∧ completionToolCalls completion = []

def FirstStandsForAll (inf : InferenceExtension) : Prop :=
  ∀ tc ∈ inf.toolCalls, p.toolSkipped tc.name = false →
    inf.messages ≠ [] ∧ ∃ first, inf.toolCalls.head? = some first ∧ first.name ≠ "" ∧
      p.toolSkipped first.name = false ∧ openAIToolCall tc = openAIToolCall first

def bodyView (pctx : Context) : Bytes × Bool := (pctx.responseBody, pctx.responseBodyMutated)

theorem record_policy (pctx : Context) (action : InvocationAction) (reason : String)
    (details : List (String × String)) :
    (record pctx action reason details).currentPolicy = pctx.currentPolicy ∧
      (record pctx action reason details).inFinish = pctx.inFinish := by
  obtain ⟨invocations, h⟩ := pctx.recordInvocation_eq
    { plugin := pctx.currentPlugin, action := action, phase := .response, reason := reason,
      path := pctx.path, details := details ++ [("enforcement", "inference")], shadow := false }
  rw [record, h]
  exact ⟨rfl, rfl⟩

variable {pctx : Context}

theorem forward_view (resp : Upstream) {written : Bytes} (h : bodyView pctx = (written, true)) :
    (Pipeline.forward resp pctx).body = some written := by
  have hbody : pctx.responseBody = written := congrArg Prod.fst h
  have hmutated : pctx.responseBodyMutated = true := congrArg Prod.snd h
  simp [Pipeline.forward, hbody, hmutated, Delivery.body]

theorem rewrite_view (hpolicy : pctx.currentPolicy = .enforce) (hfinish : pctx.inFinish = false)
    (message : String) : ∃ completion : Json, bodyView (rewriteInferenceResponse pctx message) =
        (bytes completion.marshal, true) ∧ completionToolCalls completion = [] := by
  refine ⟨rewrittenCompletion pctx.responseBody message, ?_, completionToolCalls_rewritten _ _⟩
  unfold rewriteInferenceResponse Context.setResponseBody bodyView
  rw [if_neg (by simp [hfinish]), if_neg (by simp [hpolicy])]
  obtain ⟨invocations, h⟩ := Context.record_eq
    { pctx with
      responseBody := bytes (rewrittenCompletion pctx.responseBody message).marshal
      responseBodyMutated := true } .modify "body_rewritten" []
  rw [Context.modify, h]

theorem applyVerdict_view (format : TextFormat) (pctx : Context)
    (hpolicy : pctx.currentPolicy = .enforce) (hfinish : pctx.inFinish = false)
    (toolName : String) {answer : Except String ReflectVerdict} (hblocks : p.blocks answer) :
    ∃ completion : Json, bodyView (p.applyVerdict format pctx toolName answer) =
        (bytes completion.marshal, true) ∧ completionToolCalls completion = [] := by
  have hrewrite : ∀ action reason details message,
      ∃ completion : Json,
        bodyView (rewriteInferenceResponse (record pctx action reason details) message) =
          (bytes completion.marshal, true) ∧ completionToolCalls completion = [] := by
    intro action reason details message
    obtain ⟨hpolicy', hfinish'⟩ := record_policy pctx action reason details
    exact rewrite_view (hpolicy'.trans hpolicy) (hfinish'.trans hfinish) message
  have hunavailable : ∀ err, p.failPolicy = .closed →
      ∃ completion : Json, bodyView (p.handleUnavailable pctx toolName err) =
        (bytes completion.marshal, true) ∧ completionToolCalls completion = [] := by
    intro err hclosed
    unfold handleUnavailable
    rw [hclosed]
    exact hrewrite _ _ _ _
  fun_cases applyVerdict with
  | case1 err => exact hunavailable err hblocks
  | case2 verdict happrove => simp [blocks, happrove] at hblocks
  | case3 verdict happrove hreject =>
    have hconfigured : p.onRejectAction ≠ .observe := by simpa [blocks, hreject] using hblocks
    -- an escalated rejection is denied, and any other follows the configuration
    fun_cases handleReject with
    | case1 escalated action details hobserve => grind
    | _ => exact hrewrite _ _ _ _
  | case4 verdict happrove hreject =>
    exact hunavailable _ (by simpa [blocks, happrove, hreject] using hblocks)

theorem onResponse_log (format : TextFormat) (reflect : Reflector W) (w : W) (pctx : Context)
    {inf : InferenceExtension} (hinf : pctx.extensions.inference = some inf) :
    let out := p.onResponse format reflect.logged (w, []) pctx
    (out.2.1.2 = [] ∧ ∀ first, inf.toolCalls.head? = some first → first.name ≠ "" →
        p.toolSkipped first.name = false → inf.messages = []) ∨
      ∃ first r, inf.toolCalls.head? = some first ∧ first.name ≠ "" ∧
        p.toolSkipped first.name = false ∧ inf.messages ≠ [] ∧ out.2.1.2 = [r] ∧
        r.input.toolCalls = [openAIToolCall first] ∧
        out.2.2 = p.applyVerdict format pctx first.name r.answer := by
  fun_cases onResponse p format reflect.logged (w, []) pctx with
  | case1 none => cases none.symm.trans hinf
  | case6 _ some tc _ hcalls hname hskipped hmessages _ _ _ logged =>
    cases some.symm.trans hinf
    cases logged
    exact .inr ⟨tc, _, by simp [hcalls], hname, Bool.eq_false_iff.mpr hskipped, hmessages, rfl,
      rfl, rfl⟩
  | _ =>
    refine .inl ⟨rfl, ?_⟩
    simp_all

theorem onResponse_cont (format : TextFormat) (reflect : Reflector W) (w : W)
    (pctx : Context) : (p.onResponse format reflect w pctx).1 = .cont := by
  fun_cases onResponse p format reflect w pctx <;> rfl

/-- The plugin under `enforce` on a parsed response, with the body that is delivered when no
other plugin writes it. -/
theorem mediates_iff (format : TextFormat) (reflect : Reflector W) (resp : Upstream) (w : W)
    (pctx : Context) (hfinish : pctx.inFinish = false) (inf : InferenceExtension)
    (hinf : pctx.extensions.inference = some inf) :
    let out := Pipeline.dispatch "sparc" .enforce .response (p.onResponse format reflect.logged)
      (w, []) pctx
    p.Mediates inf out.2.1.2 (Pipeline.forward resp out.2.2).body ↔ p.FirstStandsForAll inf := by
  intro out
  let stamped := pctx.setCurrent "sparc" .response .enforce
  have hcont := p.onResponse_cont format reflect.logged (w, []) stamped
  have hlog := p.onResponse_log format reflect w stamped hinf
  rcases hhook : p.onResponse format reflect.logged (w, []) stamped with ⟨action, w', after⟩
  rw [hhook] at hcont hlog
  obtain rfl : action = .cont := hcont
  have hout : out = (none, w', (stamped.keepPrivate after).clearCurrent) := by
    simp only [out, Pipeline.dispatch, stamped] at hhook ⊢
    rw [hhook]
  rw [hout]
  dsimp only at hlog ⊢
  constructor
  · intro h tc htc hreflected
    obtain ⟨r, hr, hsubmitted⟩ := h.submitted tc htc hreflected
    rcases hlog with ⟨hnone, -⟩ | ⟨first, r', hfirst, hnamed, hskipped, hmessages, hone, hinput, -⟩
    · rw [hnone] at hr
      cases hr
    · rw [hone, List.mem_singleton] at hr
      rw [hr, hinput, List.mem_singleton] at hsubmitted
      exact ⟨hmessages, first, hfirst, hnamed, hskipped, hsubmitted⟩
  · intro h
    constructor
    · intro tc htc hreflected
      obtain ⟨hmessages, first, hfirst, hnamed, hskipped, hsame⟩ := h tc htc hreflected
      rcases hlog with ⟨-, hnone⟩ | ⟨first', r, hfirst', -, -, -, hone, hinput, -⟩
      · exact absurd (hnone first hfirst hnamed hskipped) hmessages
      · obtain rfl : first = first' := Option.some.inj (hfirst.symm.trans hfirst')
        refine ⟨r, by simp [hone], ?_⟩
        rw [hinput, hsame]
        exact List.mem_singleton_self _
    · rintro ⟨r, hr, hblocks⟩
      rcases hlog with ⟨hnone, -⟩ | ⟨first, r', -, -, -, -, hone, -, hafter⟩
      · rw [hnone] at hr
        cases hr
      · obtain rfl : r = r' := by simpa [hone] using hr
        obtain ⟨completion, hview, hcalls⟩ :=
          p.applyVerdict_view format stamped rfl hfinish first.name hblocks
        rw [← hafter] at hview
        exact ⟨completion, forward_view resp (hview : bodyView
          (stamped.keepPrivate after).clearCurrent = _), hcalls⟩

def strict : SPARC where
  track := "fast_track"
  onRejectAction := .reflect
  denyScoreThreshold := 0
  failPolicy := .closed
  skipTools := []
  reflectTools := []

def plainFormat : TextFormat := ⟨fun _ => "", id⟩

def refundReflector : Reflector Unit := fun input w =>
  let decision :=
    if input.toolCalls.any fun tc => tc.name = "issue_refund" then "reject" else "approve"
  (.ok ⟨decision, [], none⟩, w)

def completionOf (tools : List String) : InferenceExtension where
  model := "m"
  messages := [⟨"user", "where is my order?"⟩]
  finishReason := "tool_calls"
  toolCalls := tools.map fun tool => ⟨"call_" ++ tool, tool, ""⟩
  isAction := true

def completionContext (tools : List String) : Context :=
  (Context.ofRequest .outbound "POST" "http" "llm" (bytes "/v1/chat/completions") ∅
    []).setInference (some (completionOf tools))

def wireCompletion (tools : List String) : Json :=
  let call (tool : String) : Json :=
    .obj [("id", .str ("call_" ++ tool)), ("type", .str "function"),
      ("function", .obj [("name", .str tool), ("arguments", .str "")])]
  .obj [("choices", .arr [.obj [("message",
    .obj [("role", .str "assistant"), ("tool_calls", .arr (tools.map call))])]])]

def llmAnswer (tools : List String) : Upstream :=
  ⟨200, ∅, bytes (wireCompletion tools).marshal, false⟩

def reflected (tools : List String) : Option Action × (Unit × List Reflection) × Context :=
  Pipeline.dispatch "sparc" .enforce .response
    (strict.onResponse plainFormat refundReflector.logged) ((), []) (completionContext tools)

/-- One tool call, on which the verdict on the first is the verdict on all. -/
theorem mediates_single :
    strict.FirstStandsForAll (completionOf ["issue_refund"]) ∧
      strict.Mediates (completionOf ["issue_refund"]) (reflected ["issue_refund"]).2.1.2
        (Pipeline.forward (llmAnswer ["issue_refund"]) (reflected ["issue_refund"]).2.2).body := by
  have hfirst : strict.FirstStandsForAll (completionOf ["issue_refund"]) := by
    intro tc htc hreflected
    refine ⟨by simp [completionOf], tc, ?_, ?_, hreflected, rfl⟩
    · simp_all [completionOf]
    · simp_all [completionOf]
  exact ⟨hfirst, (mediates_iff strict plainFormat refundReflector (llmAnswer _) ()
    (completionContext ["issue_refund"]) rfl _ rfl).mpr hfirst⟩

/-- A refund behind another call is never submitted, and the completion goes through with
both calls. -/
theorem second_call_unmediated :
    (parseInferenceJSON (llmAnswer ["track_order", "issue_refund"]).body.bytes
        (completionOf [])).toolCalls = (completionOf ["track_order", "issue_refund"]).toolCalls ∧
      strict.toolSkipped "issue_refund" = false ∧
      ((reflected ["track_order", "issue_refund"]).2.1.2.map fun r =>
        r.input.toolCalls.map InferenceToolCall.name) = [["track_order"]] ∧
      (Pipeline.forward (llmAnswer ["track_order", "issue_refund"])
          (reflected ["track_order", "issue_refund"]).2.2).body =
        some (bytes (wireCompletion ["track_order", "issue_refund"]).marshal) ∧
      (completionToolCalls (wireCompletion ["track_order", "issue_refund"])).length = 2 := by
  -- the characters of the body are evaluated once, not decoded from the string
  rw [llmAnswer, Json.bytes_marshal]
  decide +kernel

end SPARC

end Kagenti.AuthBridge
