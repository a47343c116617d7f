import Kagenti.AuthBridge.Parsers

/-!
Which protocol extensions the three parsers leave on one request. Each decides alone;
`Classification` assumes that at most one accepts a request.
-/

namespace Kagenti.AuthBridge

open Go

inductive Protocol where
  | mcp
  | a2a
  | inference
  deriving DecidableEq

def Extensions.has (e : Extensions) : Protocol → Bool
  | .mcp => e.mcp.isSome
  | .a2a => e.a2a.isSome
  | .inference => e.inference.isSome

inductive Parser where
  | mcp (config : MCPParser)
  | a2a
  | inference

namespace Parser

def protocol : Parser → Protocol
  | .mcp _ => .mcp
  | .a2a => .a2a
  | .inference => .inference

def onRequest : Parser → Context → Context
  | .mcp config => config.onRequest
  | .a2a => a2aParserOnRequest
  | .inference => inferenceParserOnRequest

/-- The requests that a parser attaches its extension to. -/
def accepts (pctx : Context) : Parser → Bool
  | .mcp config =>
    if pctx.body = [] then (config.transportMethod pctx).isSome
    else (JSONRPCRequest.decode pctx.body).any fun rpc => rpc.method ≠ ""
  | .a2a => decide (pctx.body ≠ []) && (JSONRPCRequest.decode pctx.body).isSome
  | .inference =>
    isInferencePath pctx.path && decide (pctx.body ≠ []) &&
      (InferenceRequest.decode pctx.body).isSome

@[simp] theorem accepts_extensions (q : Parser) (pctx : Context) (e : Extensions) :
    q.accepts { pctx with extensions := e } = q.accepts pctx := by
  cases q <;> rfl

structure Effect (q : Parser) (pctx pctx' : Context) : Prop where
  frame : ∃ e, pctx' = { pctx with extensions := e }
  has : ∀ protocol, pctx'.extensions.has protocol =
    (pctx.extensions.has protocol || (decide (q.protocol = protocol) && q.accepts pctx))

end Parser

namespace Context

variable (pctx : Context)

theorem observe_frame (reason : String) :
    ∃ e, pctx.observe reason = { pctx with extensions := e } := by
  obtain ⟨invocations, h⟩ := pctx.record_eq .observe reason []
  exact ⟨_, h⟩

@[simp] theorem observe_has (reason : String) (protocol : Protocol) :
    (pctx.observe reason).extensions.has protocol = pctx.extensions.has protocol := by
  obtain ⟨invocations, h⟩ := pctx.record_eq .observe reason []
  rw [observe, h]
  cases protocol <;> rfl

end Context

namespace Parser

variable {q : Parser} {pctx : Context}

theorem Effect.of_rejected (h : q.accepts pctx = false) : Effect q pctx pctx where
  frame := ⟨pctx.extensions, rfl⟩
  has protocol := by simp [h]

theorem Effect.of_filled {filled : Context} {reason : String} (accepted : q.accepts pctx = true)
    (frame : ∃ e, filled = { pctx with extensions := e })
    (own : filled.extensions.has q.protocol = true) (others : ∀ protocol, q.protocol ≠ protocol →
      filled.extensions.has protocol = pctx.extensions.has protocol) :
    Effect q pctx (filled.observe reason) where
  frame := by
    obtain ⟨e, rfl⟩ := frame
    exact Context.observe_frame _ reason
  has protocol := by
    rw [Context.observe_has, accepted]
    by_cases h : q.protocol = protocol
    · subst h
      simp [own]
    · simp [others protocol h, h]

theorem effect_mcp (config : MCPParser) (pctx : Context) :
    Effect (.mcp config) pctx (config.onRequest pctx) := by
  have filled (ext : MCPExtension) (reason : String)
      (accepted : (Parser.mcp config).accepts pctx = true) :
      Effect (.mcp config) pctx ((pctx.setMCP (some ext)).observe reason) := by
    apply Effect.of_filled accepted ⟨_, rfl⟩ rfl
    intro protocol other
    cases protocol <;> first | rfl | exact absurd rfl other
  fun_cases MCPParser.onRequest with
  | case1 empty method matched => exact filled _ _ (by simp [accepts, empty, matched])
  | case5 nonempty rpc decoded method =>
    exact filled _ _ (by simp [accepts, nonempty, decoded, method])
  | _ => exact .of_rejected (by simp [accepts, *])

theorem effect_a2a (pctx : Context) : Effect .a2a pctx (a2aParserOnRequest pctx) := by
  fun_cases a2aParserOnRequest with
  | case3 nonempty rpc decoded =>
    apply Effect.of_filled (by simp [accepts, nonempty, decoded]) ⟨_, rfl⟩ rfl
    intro protocol other
    cases protocol <;> first | rfl | exact absurd rfl other
  | _ => exact .of_rejected (by simp [accepts, *])

theorem effect_inference (pctx : Context) :
    Effect .inference pctx (inferenceParserOnRequest pctx) := by
  fun_cases inferenceParserOnRequest with
  | case1 inapplicable =>
    apply Effect.of_rejected
    rcases inapplicable with path | empty
    · simp [accepts, path]
    · simp [accepts, empty]
  | case2 _ invalid => exact .of_rejected (by simp [accepts, invalid])
  | case3 applicable req decoded =>
    have ⟨path, nonempty⟩ : isInferencePath pctx.path = true ∧ pctx.body ≠ [] := by
      simpa using applicable
    apply Effect.of_filled (by simp [accepts, path, nonempty, decoded]) ⟨_, rfl⟩ rfl
    intro protocol other
    cases protocol <;> first | rfl | exact absurd rfl other

theorem effect (q : Parser) (pctx : Context) : Effect q pctx (q.onRequest pctx) := by
  cases q with
  | mcp config => exact effect_mcp config pctx
  | a2a => exact effect_a2a pctx
  | inference => exact effect_inference pctx

end Parser

def runParsers (order : List Parser) (pctx : Context) : Context :=
  order.foldl (fun c q => q.onRequest c) pctx

theorem runParsers_has (order : List Parser) (pctx : Context) (protocol : Protocol) :
    (runParsers order pctx).extensions.has protocol =
      (pctx.extensions.has protocol ||
        order.any fun q => decide (q.protocol = protocol) && q.accepts pctx) := by
  induction order generalizing pctx with
  | nil => simp [runParsers]
  | cons q order ih =>
    have step := q.effect pctx
    have rest := ih (q.onRequest pctx)
    rw [step.has] at rest
    -- the parsers behind `q` see the request that `q` saw
    have same (r : Parser) : r.accepts (q.onRequest pctx) = r.accepts pctx := by
      obtain ⟨e, frame⟩ := step.frame
      rw [frame, Parser.accepts_extensions]
    simp only [same, Bool.or_assoc] at rest
    simpa [runParsers] using rest

theorem runParsers_frame (order : List Parser) (pctx : Context) :
    ∃ e, runParsers order pctx = { pctx with extensions := e } := by
  induction order generalizing pctx with
  | nil => exact ⟨pctx.extensions, rfl⟩
  | cons q order ih =>
    obtain ⟨e, step⟩ := (q.effect pctx).frame
    obtain ⟨e', rest⟩ := ih (q.onRequest pctx)
    refine ⟨e', ?_⟩
    calc runParsers (q :: order) pctx
        = { q.onRequest pctx with extensions := e' } := rest
      _ = { pctx with extensions := e' } := by rw [step]

namespace Context

variable (pctx : Context)

theorem populated_eq :
    pctx.populated = (pctx.extensions.has .mcp).toNat + (pctx.extensions.has .a2a).toNat +
      (pctx.extensions.has .inference).toNat := by
  have slot {α : Type} (ext : Option α) : ext.toList.length = ext.isSome.toNat := by
    cases ext <;> rfl
  simp only [populated, slot, Extensions.has]

theorem classification_of_populated_le_one (h : pctx.populated ≤ 1) :
    pctx.classification ≠ (true, true) := by
  cases hm : pctx.extensions.mcp <;> cases ha : pctx.extensions.a2a <;>
    cases hi : pctx.extensions.inference <;>
    simp [populated, hm, ha, hi] at h <;>
    simp only [classification, hm, ha, hi, Option.map, addVerdict] <;>
    first
    | decide
    | (split <;> simp_all)

end Context

theorem runParsers_populated {config : MCPParser} {order : List Parser}
    (perm : order.Perm [.mcp config, .a2a, .inference]) {pctx : Context}
    (fresh : ∀ protocol, pctx.extensions.has protocol = false) :
    (runParsers order pctx).populated =
      ((Parser.mcp config).accepts pctx).toNat + (Parser.a2a.accepts pctx).toNat +
        (Parser.inference.accepts pctx).toNat := by
  have slot (protocol : Protocol) : (runParsers order pctx).extensions.has protocol =
      [Parser.mcp config, .a2a, .inference].any fun q =>
        decide (q.protocol = protocol) && q.accepts pctx := by
    rw [runParsers_has, fresh protocol, Bool.false_or, perm.any_eq]
  rw [Context.populated_eq, slot, slot, slot]
  simp [Parser.protocol]

def SingleShape (pctx : Context) : Prop :=
  pctx.body = [] ∨ JSONRPCRequest.decode pctx.body = none ∨
    ∃ rpc, JSONRPCRequest.decode pctx.body = some rpc ∧ rpc.method = "" ∧
      (isInferencePath pctx.path = false ∨ InferenceRequest.decode pctx.body = none)

theorem accepts_le_one_iff (config : MCPParser) (pctx : Context) :
    ((Parser.mcp config).accepts pctx).toNat + (Parser.a2a.accepts pctx).toNat +
        (Parser.inference.accepts pctx).toNat ≤ 1 ↔ SingleShape pctx := by
  by_cases empty : pctx.body = []
  · -- without a body only mcp-parser can accept
    have transport := Bool.toNat_le (config.transportMethod pctx).isSome
    simpa [Parser.accepts, SingleShape, empty] using transport
  · cases decoded : JSONRPCRequest.decode pctx.body with
    | none =>
      have inference := Bool.toNat_le (Parser.inference.accepts pctx)
      simpa [Parser.accepts, SingleShape, empty, decoded] using inference
    | some rpc =>
      -- a2a-parser accepts every body that decodes, so nobody else may
      by_cases method : rpc.method = ""
      · cases path : isInferencePath pctx.path <;>
          cases req : InferenceRequest.decode pctx.body <;>
          simp [Parser.accepts, SingleShape, empty, decoded, method, path, req]
      · have shape : ¬SingleShape pctx := by simp [SingleShape, empty, decoded, method]
        have both : (Parser.mcp config).accepts pctx = true ∧ Parser.a2a.accepts pctx = true := by
          simp [Parser.accepts, empty, decoded, method]
        rw [both.1, both.2]
        simp only [shape, iff_false, Bool.toNat_true]
        omega

/-- The parsers, run in any order on a request without extensions, leave at most one
extension and no contradictory classification exactly on the requests of `SingleShape`. -/
theorem parsers_disjoint_iff (config : MCPParser) (order : List Parser)
    (perm : order.Perm [.mcp config, .a2a, .inference]) (pctx : Context)
    (fresh : ∀ protocol, pctx.extensions.has protocol = false) :
    (runParsers order pctx).populated ≤ 1 ∧
        (runParsers order pctx).classification ≠ (true, true) ↔ SingleShape pctx := by
  have count := runParsers_populated perm fresh
  constructor
  · rintro ⟨atMostOne, -⟩
    rw [count] at atMostOne
    exact (accepts_le_one_iff config pctx).mp atMostOne
  · intro shape
    have atMostOne : (runParsers order pctx).populated ≤ 1 := by
      rw [count]
      exact (accepts_le_one_iff config pctx).mpr shape
    exact ⟨atMostOne, Context.classification_of_populated_le_one _ atMostOne⟩

/-- The answer to a request of the server, which has no method. -/
def answerRequest : Context :=
  .ofRequest .outbound "POST" "http" "tools:8080" (bytes "/mcp") ∅
    (bytes "\x7b\"jsonrpc\":\"2.0\",\"id\":1,\"result\":\x7b\x7d\x7d")

/-- Only a2a-parser accepts it. -/
theorem parsers_disjoint_answer :
    (runParsers [.inference, .a2a, .mcp ⟨none⟩] answerRequest).populated = 1 ∧
      (runParsers [.inference, .a2a, .mcp ⟨none⟩] answerRequest).classification ≠
        (true, true) := by
  have perm : [Parser.inference, .a2a, .mcp ⟨none⟩].Perm [.mcp ⟨none⟩, .a2a, .inference] :=
    List.reverse_perm [Parser.mcp ⟨none⟩, .a2a, .inference]
  have fresh (protocol : Protocol) : answerRequest.extensions.has protocol = false := by
    cases protocol <;> rfl
  obtain ⟨rpc, decoded, method⟩ : ∃ rpc ∈ JSONRPCRequest.decode answerRequest.body,
      rpc.method = "" := by decide +kernel
  have shape : SingleShape answerRequest := .inr (.inr ⟨rpc, decoded, method, .inl (by decide)⟩)
  exact ⟨by decide +kernel, ((parsers_disjoint_iff ⟨none⟩ _ perm _ fresh).mpr shape).2⟩

def toolCallRequest : Context :=
  .ofRequest .outbound "POST" "http" "tools:8080" (bytes "/mcp") ∅
    (bytes "\x7b\"method\":\"tools/call\",\"params\":\x7b\"name\":\"rm\"\x7d\x7d")

/-- On a tool call a2a-parser attaches a second extension, which says that the request is
no action. -/
theorem toolCall_classified_twice :
    (runParsers [.mcp ⟨none⟩, .a2a, .inference] toolCallRequest).populated = 2 ∧
      (runParsers [.mcp ⟨none⟩, .a2a, .inference] toolCallRequest).classification =
        (true, true) := by
  decide +kernel

end Kagenti.AuthBridge
