import Kagenti.AuthBridge.Configured
import Kagenti.AuthBridge.Sparc

/-!
What a plugin finds in the protocol extensions when its `OnResponse` runs on a buffered response,
before the streaming responders.
-/

namespace Kagenti.AuthBridge

open Go

/-! Buffered responses -/

namespace Pipeline

variable {W : Type*}

def receive (p : Pipeline W) (statusCode : Nat) (headers : Header) (body : Bytes)
    (pctx : Context) : Context :=
  { pctx with
    statusCode := statusCode
    responseHeaders := headers
    responseBody := if p.needsBody then body else pctx.responseBody }

/-- The response phase of `serveOutbound` on its buffered path. -/
def bufferedResponse (ctxErr : CtxErr W) (p : Pipeline W) (statusCode : Nat) (headers : Header)
    (body : Bytes) : Hook W := fun w pctx =>
  match p.runResponse ctxErr w (p.receive statusCode headers body pctx) with
  | (.reject violation, w, pctx) => (.reject violation, w, pctx)
  | (.cont, w, pctx) =>
    if p.hasStreamingResponders then p.runResponseFrame ctxErr pctx.responseBody true w pctx
    else (.cont, w, pctx)

theorem respondIn_append (ctxErr : CtxErr W) (p q : Pipeline W) (w : W) (pctx : Context) :
    respondIn ctxErr (p ++ q) w pctx =
      match respondIn ctxErr p w pctx with
      | (.cont, w, pctx) => respondIn ctxErr q w pctx
      | stopped => stopped := by
  induction p generalizing w pctx with
  | nil => rfl
  | cons head rest ih =>
    obtain ⟨plugin, policy⟩ := head
    rw [List.cons_append, respondIn, respondIn]
    split
    · exact ih w pctx
    · split
      · rfl
      · grind [dispatch_stops]

structure CalledWith (ctxErr : CtxErr W) (plugin : Plugin W) (policy : ErrorPolicy)
    (back : Pipeline W) (w : W) (pctx : Context) (w' : W) (pctx' : Context) : Prop where
  on : policy ≠ .off
  buffered : plugin.onResponseFrame = none
  passed : ∃ w₁ c₁, respondIn ctxErr back.reverse w pctx = (.cont, w₁, c₁) ∧
    ctxErr w₁ = (false, w') ∧ pctx' = c₁.setCurrent plugin.name .response policy

variable {ctxErr : CtxErr W} {policy : ErrorPolicy}

theorem CalledWith.last {plugin : Plugin W} (w : W) (pctx : Context) (on : policy ≠ .off)
    (buffered : plugin.onResponseFrame = none) (live : ctxErr w = (false, w)) :
    CalledWith ctxErr plugin policy [] w pctx w (pctx.setCurrent plugin.name .response policy) :=
  ⟨on, buffered, w, pctx, rfl, live, rfl⟩

theorem CalledWith.runResponse {plugin : Plugin W} {front back : Pipeline W} {w w' : W}
    {pctx pctx' : Context} (h : CalledWith ctxErr plugin policy back w pctx w' pctx') :
    ∃ c₁, pctx' = c₁.setCurrent plugin.name .response policy ∧
      runResponse ctxErr (front ++ (plugin, policy) :: back) w pctx =
        match dispatch plugin.name policy .response plugin.onResponse w' c₁ with
        | (some action, w, pctx) => (action, w, pctx)
        | (none, w, pctx) => respondIn ctxErr front.reverse w pctx := by
  obtain ⟨w₁, c₁, passed, live, called⟩ := h.passed
  refine ⟨c₁, called, ?_⟩
  have skipped : ¬(policy = .off ∨ plugin.onResponseFrame.isSome = true) := by
    simp [h.on, h.buffered]
  have reversed : (front ++ (plugin, policy) :: back).reverse =
      back.reverse ++ (plugin, policy) :: front.reverse := by simp
  rw [Pipeline.runResponse, reversed, respondIn_append, passed]
  refine (if_neg skipped).trans ?_
  split
  next ended => cases live.symm.trans ended
  next running =>
    cases live.symm.trans running
    rfl

end Pipeline

/-! The part of the context that parsers derive from a response -/

structure ResponseView where
  mcp : Option MCPExtension
  a2a : Option A2AExtension
  inference : Option InferenceExtension
  body : Bytes

namespace Context

variable (pctx : Context)

def responseView : ResponseView where
  mcp := pctx.extensions.mcp
  a2a := pctx.extensions.a2a
  inference := pctx.extensions.inference
  body := pctx.responseBody

@[simp] theorem recordInvocation_view (inv : Invocation) :
    (pctx.recordInvocation inv).responseView = pctx.responseView := by
  obtain ⟨invocations, recorded⟩ := pctx.recordInvocation_eq inv
  rw [recorded]
  rfl

@[simp] theorem record_view (action : InvocationAction) (reason : String)
    (details : List (String × String)) :
    (pctx.record action reason details).responseView = pctx.responseView :=
  pctx.recordInvocation_view _

end Context

variable {W : Type*}

theorem Pipeline.dispatch_view (name : String) (policy : ErrorPolicy) (phase : InvocationPhase)
    (hook : Hook W) (w : W) (pctx : Context) :
    (dispatch name policy phase hook w pctx).2.2.responseView =
      (hook w (pctx.setCurrent name phase policy)).2.2.responseView := by
  obtain ⟨invocations, rejectingPlugin, after⟩ := dispatch_context name policy phase hook w pctx
  rw [after]
  rfl

/-- The MCP fields after mcp-parser has seen a response body in `OnResponse`. -/
def mcpDerived (slot : Option MCPExtension) (body : Bytes) : Option MCPExtension :=
  slot.map fun ext =>
    if ext.result.isSome ∨ ext.err.isSome ∨ body = [] then ext
    else
      match parseMCPResponse body with
      | none => ext
      | some rpc => ext.apply rpc

/-- The A2A fields after a2a-parser has seen a buffered response. -/
def a2aDerived (received : Context) (body : Bytes) : Option A2AExtension :=
  (a2aParserOnResponseFrame body true received).extensions.a2a

def inferenceDerived (received : Context) (body : Bytes) : Option InferenceExtension :=
  (inferenceParserOnResponseFrame body true received).extensions.inference

theorem mcpParserOnResponse_view (pctx : Context) :
    (mcpParserOnResponse pctx).responseView =
      { pctx.responseView with mcp := mcpDerived pctx.extensions.mcp pctx.responseBody } := by
  have same (slot : pctx.extensions.mcp = mcpDerived pctx.extensions.mcp pctx.responseBody) :
      pctx.responseView =
        { pctx.responseView with mcp := mcpDerived pctx.extensions.mcp pctx.responseBody } := by
    rw [← slot]
    rfl
  fun_cases mcpParserOnResponse with
  | case1 none =>
    apply same
    rw [none]
    rfl
  | case2 ext some answered =>
    apply same
    rcases answered with result | err
    · simp [some, mcpDerived, result]
    · simp [some, mcpDerived, err]
  | case3 | case4 =>
    rw [Context.skip, Context.record_view]
    apply same
    simp [mcpDerived, *]
  | case5 ext some open_ nonempty rpc parsed =>
    obtain ⟨noResult, noErr⟩ := not_or.mp open_
    have derived : mcpDerived (Option.some ext) pctx.responseBody =
        Option.some (ext.apply rpc) := by
      simp [mcpDerived, noResult, noErr, nonempty, parsed]
    rw [some, derived]
    unfold applyMCPResponseRPC
    split <;> rw [Context.observe, Context.record_view] <;> rfl

theorem parseMCPResponse_isEnvelope {body : Bytes} {rpc : JSONRPCResponse}
    (h : parseMCPResponse body = some rpc) : rpc.isEnvelope = true := by
  unfold parseMCPResponse at h
  split at h
  next found =>
    obtain rfl := Option.some.inj h
    exact (Option.filter_eq_some_iff.mp found).2
  · obtain ⟨data, -, found⟩ := List.exists_of_findSome?_eq_some h
    split at found
    · contradiction
    · exact (Option.filter_eq_some_iff.mp found).2

/-- A response that has been parsed is not parsed again. -/
theorem mcpDerived_idem (slot : Option MCPExtension) (body : Bytes) :
    mcpDerived (mcpDerived slot body) body = mcpDerived slot body := by
  cases slot with
  | none => rfl
  | some ext =>
    simp only [mcpDerived, Option.map_some]
    congr 1
    split
    · rfl
    · split
      · exact ite_self ext
      next rpc parsed =>
        have envelope := parseMCPResponse_isEnvelope parsed
        have answered : (ext.apply rpc).result.isSome ∨ (ext.apply rpc).err.isSome := by
          unfold MCPExtension.apply
          split
          · exact .inr rfl
          · split
            · exact .inl rfl
            · rename_i noError _ noResult
              simp [JSONRPCResponse.isEnvelope, noError, noResult] at envelope
        rw [if_pos]
        rcases answered with result | err
        · exact .inl result
        · exact .inr (.inl err)

/-! Chains -/

structure Neutral {W : Type*} (p : Plugin W) : Prop where
  buffered : p.onResponseFrame = none
  view : ∀ w pctx, ∃ body,
    (p.onResponse w pctx).2.2.responseView = { pctx.responseView with body := body } ∧
      (p.capabilities.writesBody = false → body = pctx.responseBody)

/-- A plugin of a chain, as `Build` makes it: only mcp-parser of the parsers is wrapped. -/
inductive Stage (W : Type*) where
  | parser (q : Parser) (raw : Bytes)
  | other (p : Plugin W) (neutral : Neutral p)

namespace Stage

variable {W : Type*}

def plugin : Stage W → Plugin W
  | .parser (.mcp config) raw => (mcpParser config).wrapConfigured raw
  | .parser .a2a _ => a2aParser
  | .parser .inference _ => inferenceParser
  | .other p _ => p

def parses (protocol : Protocol) : Stage W → Bool
  | .parser q _ => decide (q.protocol = protocol)
  | .other _ _ => false

theorem readsBody_of_parses {stage : Stage W} {protocol : Protocol}
    (h : stage.parses protocol = true) : stage.plugin.capabilities.normalize.readsBody = true := by
  match stage with
  | .parser (.mcp _) _ => rfl
  | .parser .a2a _ => rfl
  | .parser .inference _ => rfl
  | .other _ _ => contradiction

end Stage

abbrev Chain (W : Type*) := List (Stage W × ErrorPolicy)

namespace Chain

variable {W : Type*}

def pipeline (chain : Chain W) : Pipeline W :=
  chain.map fun (stage, policy) => (stage.plugin, policy)

def has (chain : Chain W) (protocol : Protocol) : Bool :=
  chain.any fun (stage, policy) => stage.parses protocol && decide (policy ≠ .off)

end Chain

variable {w w₁ : W} {pctx c₁ : Context}

theorem Pipeline.respondIn_cons {ctxErr : CtxErr W} {plugin : Plugin W} {policy : ErrorPolicy}
    {rest : Pipeline W} (h : respondIn ctxErr ((plugin, policy) :: rest) w pctx = (.cont, w₁, c₁)) :
    ((policy = .off ∨ plugin.onResponseFrame.isSome) ∧ respondIn ctxErr rest w pctx = (.cont, w₁, c₁)) ∨
      (policy ≠ .off ∧ plugin.onResponseFrame = none) ∧
        ∃ w' w'' c', c'.responseView =
            (plugin.onResponse w' (pctx.setCurrent plugin.name .response policy)).2.2.responseView ∧
          respondIn ctxErr rest w'' c' = (.cont, w₁, c₁) := by
  rw [respondIn] at h
  split at h
  next skipped => exact .inl ⟨skipped, h⟩
  next called =>
    obtain ⟨on, buffered⟩ := not_or.mp called
    refine .inr ⟨⟨on, Option.not_isSome_iff_eq_none.mp buffered⟩, ?_⟩
    split at h
    · exact absurd (congrArg Prod.fst h) (show cancelled ≠ .cont by decide)
    next w' _ =>
      split at h
      next action w'' c' stopped => exact absurd (congrArg Prod.fst h) (dispatch_stops stopped)
      next w'' c' passed =>
        refine ⟨w', w'', c', ?_, h⟩
        rw [← dispatch_view, passed]

structure Progress {W : Type*} (called : Chain W) (before after : ResponseView) : Prop where
  a2a : after.a2a = before.a2a
  inference : after.inference = before.inference
  mcp : after.mcp = if called.has .mcp then mcpDerived before.mcp after.body else before.mcp
  body : (∀ entry ∈ called, entry.1.plugin.capabilities.writesBody = false) →
    after.body = before.body

/-- No plugin that writes bodies is called after mcp-parser. -/
def Settled {W : Type*} (called : Chain W) : Prop :=
  called.Pairwise fun a b => a.1.parses .mcp = true → b.1.plugin.capabilities.writesBody = false

namespace Progress

variable {W : Type*} {stage : Stage W} {policy : ErrorPolicy} {rest : Chain W}
  {before middle after : ResponseView}

theorem skip (h : Progress rest before after) (skipped : policy = .off ∨ stage.parses .mcp = false) :
    Progress ((stage, policy) :: rest) before after := by
  have has : Chain.has ((stage, policy) :: rest) .mcp = Chain.has rest .mcp := by
    rcases skipped with off | other
    · simp [Chain.has, off]
    · simp [Chain.has, other]
  refine ⟨h.a2a, h.inference, ?_, fun silent => h.body fun entry mem => silent entry (.tail _ mem)⟩
  rw [has]
  exact h.mcp

theorem neutral {p : Plugin W} {neutral : Neutral p} {body : Bytes}
    (silent : p.capabilities.writesBody = false → body = before.body)
    (h : Progress rest { before with body := body } after) :
    Progress ((.other p neutral, policy) :: rest) before after := by
  refine ⟨h.a2a, h.inference, h.mcp, fun none => ?_⟩
  rw [h.body fun entry mem => none entry (.tail _ mem)]
  exact silent (none _ (.head _))

theorem derived {config : MCPParser} {raw : Bytes} (on : policy ≠ .off)
    (settled : Settled ((.parser (.mcp config) raw, policy) :: rest))
    (h : Progress rest { before with mcp := mcpDerived before.mcp before.body } after) :
    Progress ((.parser (.mcp config) raw, policy) :: rest) before after := by
  have silent := fun entry mem => (List.pairwise_cons.mp settled).1 entry mem rfl
  have body : after.body = before.body := h.body silent
  have has : Chain.has ((.parser (.mcp config) raw, policy) :: rest) .mcp = true := by
    simp [Chain.has, Stage.parses, Parser.protocol, on]
  refine ⟨h.a2a, h.inference, ?_, fun _ => body⟩
  rw [if_pos has, h.mcp, body]
  split
  · exact mcpDerived_idem before.mcp before.body
  · rfl

end Progress

/-- A response phase that reaches the end makes progress. -/
theorem Chain.respondIn_progress (ctxErr : Pipeline.CtxErr W) {called : Chain W}
    (settled : Settled called)
    (h : Pipeline.respondIn ctxErr called.pipeline w pctx = (.cont, w₁, c₁)) :
    Progress called pctx.responseView c₁.responseView := by
  induction called generalizing w pctx with
  | nil =>
    obtain rfl : pctx = c₁ := congrArg (fun result => result.2.2) h
    exact ⟨rfl, rfl, rfl, fun _ => rfl⟩
  | cons entry rest ih =>
    obtain ⟨stage, policy⟩ := entry
    have later : Settled rest := (List.pairwise_cons.mp settled).2
    rcases Pipeline.respondIn_cons h with ⟨skipped, h⟩ | ⟨⟨on, buffered⟩, w', w'', c', view, h⟩
    · refine (ih later h).skip (skipped.imp_right fun streaming => ?_)
      match stage with
      | .parser (.mcp _) _ => contradiction
      | .parser .a2a _ => rfl
      | .parser .inference _ => rfl
      | .other _ _ => rfl
    · have step := ih later h
      rw [view] at step
      match stage with
      | .parser (.mcp config) raw =>
        have derived := mcpParserOnResponse_view (pctx.setCurrent "mcp-parser" .response policy)
        exact Progress.derived on settled (derived ▸ step)
      | .parser .a2a _ => contradiction
      | .parser .inference _ => contradiction
      | .other p neutral =>
        obtain ⟨body, writes, silent⟩ :=
          neutral.view w' (pctx.setCurrent p.name .response policy)
        exact Progress.neutral silent (writes ▸ step)

structure Available {W : Type*} (chain : Chain W) (received called : Context) : Prop where
  mcp : chain.has .mcp = true →
    called.extensions.mcp = mcpDerived received.extensions.mcp called.responseBody
  a2a : chain.has .a2a = true → called.extensions.a2a = a2aDerived received called.responseBody
  inference : chain.has .inference = true →
    called.extensions.inference = inferenceDerived received called.responseBody

namespace Chain

variable {W : Type*}

theorem pipeline_reverse (chain : Chain W) :
    chain.pipeline.reverse = Chain.pipeline chain.reverse :=
  List.map_reverse.symm

theorem has_reverse (chain : Chain W) (protocol : Protocol) :
    Chain.has chain.reverse protocol = chain.has protocol :=
  List.any_reverse

theorem settled_of_accepted {front back : Chain W} {entry : Stage W × ErrorPolicy}
    (accepted : Pipeline.validateCapabilities (Chain.pipeline (front ++ entry :: back)) = .ok ()) :
    Settled back.reverse := by
  have ordered := List.pairwise_map.mp (Pipeline.readers_before_writer accepted)
  have orderedBack := (List.pairwise_cons.mp (List.pairwise_append.mp ordered).2.1).2
  refine List.pairwise_reverse.mpr (orderedBack.imp ?_)
  rintro ⟨writer, _⟩ ⟨reader, _⟩ order parses
  have reads := Stage.readsBody_of_parses parses
  refine Bool.eq_false_iff.mpr fun writes => ?_
  exact Bool.noConfusion (reads.symm.trans (order writes))

end Chain

/-- When `OnResponse` of a plugin that is no streaming responder runs on a buffered
response, the fields of the parsers in its chain are those of the response only where
nothing is to be derived: a2a-parser and inference-parser see the response after all
`OnResponse` calls. mcp-parser, which the wrapper keeps from streaming, has seen it if it
stands behind the plugin. -/
theorem parsed_available_iff {W : Type*} (ctxErr : Pipeline.CtxErr W) (front back : Chain W)
    (stage : Stage W) (policy : ErrorPolicy) (statusCode : Nat) (headers : Header) (body : Bytes)
    {w w' : W} {pctx called : Context} :
    let chain := front ++ (stage, policy) :: back
    let received := chain.pipeline.receive statusCode headers body pctx
    Pipeline.validateCapabilities chain.pipeline = .ok () →
    Pipeline.CalledWith ctxErr stage.plugin policy back.pipeline w received w' called →
    (Available chain received called ↔
      (chain.has .mcp = true → back.has .mcp = true ∨
        mcpDerived pctx.extensions.mcp called.responseBody = pctx.extensions.mcp) ∧
      (chain.has .a2a = true →
        a2aDerived received called.responseBody = pctx.extensions.a2a) ∧
      (chain.has .inference = true →
        inferenceDerived received called.responseBody = pctx.extensions.inference)) := by
  intro chain received accepted called_
  obtain ⟨w₁, c₁, passed, -, rfl⟩ := called_.passed
  rw [Chain.pipeline_reverse] at passed
  have settled : Settled back.reverse := Chain.settled_of_accepted accepted
  have progress := Chain.respondIn_progress ctxErr settled passed
  have a2a : c₁.extensions.a2a = pctx.extensions.a2a := progress.a2a
  have inference : c₁.extensions.inference = pctx.extensions.inference := progress.inference
  have mcp : c₁.extensions.mcp =
      if back.has .mcp then mcpDerived pctx.extensions.mcp c₁.responseBody
      else pctx.extensions.mcp := by
    rw [← Chain.has_reverse]
    exact progress.mcp
  constructor
  · intro available
    refine ⟨fun has => ?_, fun has => ?_, fun has => ?_⟩
    · have derived := available.mcp has
      rcases Bool.eq_false_or_eq_true (back.has .mcp) with behind | absent
      · exact .inl behind
      · right
        rw [absent] at mcp
        exact derived.symm.trans mcp
    · exact (available.a2a has).symm.trans a2a
    · exact (available.inference has).symm.trans inference
  · rintro ⟨mcpSettled, a2aSettled, inferenceSettled⟩
    refine ⟨fun has => ?_, fun has => ?_, fun has => ?_⟩
    · refine mcp.trans ?_
      rcases mcpSettled has with behind | nothing
      · rw [behind]
        rfl
      · split
        · rfl
        · exact nothing.symm
    · exact a2a.trans (a2aSettled has).symm
    · exact inference.trans (inferenceSettled has).symm

/-! SPARC behind inference-parser -/

abbrev Context.RewritesBody (pctx after : Context) : Prop :=
  ∃ body, after.responseView = { pctx.responseView with body := body }

theorem rewriteInferenceResponse_view (pctx : Context) (message : String) :
    pctx.RewritesBody (rewriteInferenceResponse pctx message) := by
  unfold rewriteInferenceResponse Context.setResponseBody
  split
  · exact ⟨_, rfl⟩
  · split
    · exact ⟨_, pctx.recordInvocation_view _⟩
    · exact ⟨_, Context.record_view _ _ _ _⟩

namespace SPARC

variable (p : SPARC)

section

variable (pctx : Context) (action : InvocationAction) (reason : String)
  (details : List (String × String))

theorem recorded_view : (record pctx action reason details).responseView = pctx.responseView :=
  pctx.recordInvocation_view _

theorem rewritten_view (message : String) : pctx.RewritesBody
    (rewriteInferenceResponse (record pctx action reason details) message) := by
  have rewrite := rewriteInferenceResponse_view (record pctx action reason details) message
  rwa [Context.RewritesBody, recorded_view] at rewrite

end

theorem handleUnavailable_view (pctx : Context) (toolName err : String) :
    pctx.RewritesBody (p.handleUnavailable pctx toolName err) := by
  unfold handleUnavailable
  split
  · exact ⟨_, recorded_view _ _ _ _⟩
  · exact rewritten_view _ _ _ _ _

theorem handleReject_view (pctx : Context) (toolName : String) (verdict : ReflectVerdict) :
    pctx.RewritesBody (p.handleReject pctx toolName verdict) := by
  unfold handleReject
  dsimp only
  split
  · exact ⟨_, recorded_view _ _ _ _⟩
  · exact rewritten_view _ _ _ _ _
  · exact rewritten_view _ _ _ _ _

theorem handleNoContext_view (pctx : Context) (toolName : String) :
    pctx.RewritesBody (p.handleNoContext pctx toolName) := by
  unfold handleNoContext
  split
  · exact ⟨_, pctx.record_view _ _ _⟩
  · exact rewritten_view _ _ _ _ _

theorem onResponse_view (format : TextFormat) (reflect : Reflector W) (w : W) (pctx : Context) :
    pctx.RewritesBody (p.onResponse format reflect w pctx).2.2 := by
  fun_cases onResponse with
  | case1 | case2 | case3 => exact ⟨_, rfl⟩
  | case4 => exact ⟨_, pctx.record_view _ _ _⟩
  | case5 => exact p.handleNoContext_view pctx _
  | case6 =>
    dsimp only
    fun_cases applyVerdict with
    | case1 => exact p.handleUnavailable_view pctx _ _
    | case2 => exact ⟨_, recorded_view _ _ _ _⟩
    | case3 => exact p.handleReject_view pctx _ _
    | case4 => exact p.handleUnavailable_view pctx _ _

theorem neutral (format : TextFormat) (reflect : Reflector W) (raw : Bytes) :
    Neutral ((p.plugin format reflect).wrapConfigured raw) where
  buffered := rfl
  view w pctx := by
    obtain ⟨body, view⟩ := p.onResponse_view format reflect w pctx
    exact ⟨body, view, fun silent => by contradiction⟩

end SPARC

def rejectAll : Reflector (List ReflectInput) := fun input asked =>
  (.ok ⟨"reject", [], none⟩, asked ++ [input])

def gatingSparc : Stage (List ReflectInput) :=
  .other _ (SPARC.neutral ⟨"fast_track", .deny, 0, .closed, [], []⟩ ⟨text, id⟩ rejectAll [])

def gatedChain : Chain (List ReflectInput) :=
  [(.parser .inference [], .enforce), (gatingSparc, .enforce)]

def neverCancelled {W : Type*} : Pipeline.CtxErr W := fun w => (false, w)

def completionRequest : Context :=
  let request := Context.ofRequest .outbound "POST" "https" "llm" (bytes "/v1/chat/completions") ∅
    (bytes "\x7b\"messages\":[\x7b\"role\":\"user\",\"content\":\"hi\"\x7d]\x7d")
  (gatedChain.pipeline.run neverCancelled [] request).2.2

def toolCallCompletion : Bytes :=
  bytes ("\x7b\"choices\":[\x7b\"message\":\x7b\"tool_calls\":[\x7b\"id\":\"1\"," ++
    "\"function\":\x7b\"name\":\"drop\",\"arguments\":\"\"\x7d\x7d]\x7d\x7d]\x7d")

/-- The hypotheses hold of the chain of inference-parser and SPARC. -/
theorem parsed_available_iff_gatedChain :
    let received := gatedChain.pipeline.receive 200 ∅ toolCallCompletion completionRequest
    let called := received.setCurrent "sparc" .response .enforce
    (Available gatedChain received called ↔
      (gatedChain.has .mcp = true → Chain.has ([] : Chain (List ReflectInput)) .mcp = true ∨
        mcpDerived completionRequest.extensions.mcp called.responseBody =
          completionRequest.extensions.mcp) ∧
      (gatedChain.has .a2a = true →
        a2aDerived received called.responseBody = completionRequest.extensions.a2a) ∧
      (gatedChain.has .inference = true →
        inferenceDerived received called.responseBody =
          completionRequest.extensions.inference)) :=
  parsed_available_iff neverCancelled [(.parser .inference [], .enforce)] [] gatingSparc .enforce
    200 ∅ toolCallCompletion rfl (.last [] _ (by decide) rfl rfl)

/-- SPARC runs on a completion that carries a tool call, and finds none: the service is not
asked, and the agent gets the completion as it is. Only then is the tool call parsed. -/
theorem sparc_misses_toolCall :
    let received := gatedChain.pipeline.receive 200 ∅ toolCallCompletion completionRequest
    let called := received.setCurrent "sparc" .response .enforce
    let toolCalls (pctx : Context) := pctx.extensions.inference.map InferenceExtension.toolCalls
    let result := gatedChain.pipeline.bufferedResponse neverCancelled 200 ∅ toolCallCompletion []
      completionRequest
    Pipeline.validateCapabilities gatedChain.pipeline = .ok () ∧
      Pipeline.CalledWith neverCancelled gatingSparc.plugin .enforce [] [] received [] called ∧
      toolCalls called = some [] ∧ toolCalls result.2.2 = some [⟨"1", "drop", ""⟩] ∧
      result.1 = .cont ∧ result.2.1.length = 0 ∧
      result.2.2.responseBody = toolCallCompletion := by
  intro received called toolCalls result
  refine ⟨rfl, .last [] received (by decide) rfl rfl, ?_⟩
  simp only [toolCalls, result, called, received, toolCallCompletion, bytes_eq_toByteArray]
  decide +kernel

end Kagenti.AuthBridge
