import Kagenti.AuthBridge.ResponsePhase
import Kagenti.AuthBridge.Sse

/-!
The response phase of the forward proxy (`serveOutbound`, `handleStreamingResponse` and
`streamFallbackBuffered` in `listener/forwardproxy/server.go`) and the response rules of the OPA
plugin.
-/

namespace Kagenti.AuthBridge

open Go

/-- A rune up to its case, as `strings.EqualFold` compares it with an ASCII one: the long s
and the Kelvin sign fold to letters. -/
def foldRune (c : Char) : Char :=
  if c = Char.ofNat 0x17F then 's' else if c = Char.ofNat 0x212A then 'k' else c.toLower

/-- `strings.EqualFold` with a lower-case ASCII text. -/
def equalFold (s ascii : String) : Bool := s.toList.map foldRune = ascii.toList

def isEventStream (contentType : String) : Bool :=
  if contentType = "" then false
  else
    equalFold (trimSpace (String.ofList (contentType.toList.takeWhile (· ≠ ';'))))
      "text/event-stream"

structure Upstream where
  statusCode : Nat
  header : Header
  body : Sse.Incoming

inductive Delivery where
  | rejection (violation : Option Violation)
  | httpError (text : String) (statusCode : Nat)
  | response (statusCode : Nat) (header : Header) (body : Bytes)

def Delivery.body : Delivery → Option Bytes
  | .rejection _ | .httpError _ _ => none
  | .response _ _ body => some body

def Delivery.withheld (d : Delivery) : Prop := d.body = none

def maxResponseBody : Nat := 2 ^ 20

def badGateway : Nat := 502

namespace Pipeline

variable {W : Type*} (ctxErr : CtxErr W) (p : Pipeline W)

/-- The condition under which the response goes to `handleStreamingResponse`. -/
def streams (resp : Upstream) : Bool :=
  isEventStream (headerGet resp.header "Content-Type") && p.hasStreamingResponders && !p.writesBody

/-- The error of the proxy if the whole body cannot be read. -/
def readAll (body : Sse.Incoming) : Except Delivery Bytes :=
  if maxResponseBody < body.bytes.length then
    .error (.httpError "\x7b\"error\":\"response body too large\"\x7d" badGateway)
  else if body.failed then
    .error (.httpError "\x7b\"error\":\"response body read error\"\x7d" badGateway)
  else .ok body.bytes

def forward (resp : Upstream) (pctx : Context) : Delivery :=
  if pctx.responseBodyMutated then
    let header := headerSet resp.header "Content-Length" (toString pctx.responseBody.length)
    .response resp.statusCode (headerDel header "Content-Encoding") pctx.responseBody
  else .response resp.statusCode resp.header resp.body.bytes

def serveBuffered (resp : Upstream) (w : W) (pctx : Context) : Delivery × W × Context :=
  match if p.needsBody then readAll resp.body else .ok [] with
  | .error failure => (failure, w, pctx)
  | .ok body =>
    match p.bufferedResponse ctxErr resp.statusCode resp.header body w pctx with
    | (.reject violation, w, pctx) => (.rejection violation, w, pctx)
    | (.cont, w, pctx) => (forward resp pctx, w, pctx)

/-- The loop of `handleStreamingResponse` with the bytes that it writes. A rejection ends
it. -/
def streamFrames : List Bytes → W → Context → Bytes × W × Context
  | [], w, pctx => ([], w, pctx)
  | frame :: rest, w, pctx =>
    match p.runResponseFrame ctxErr frame false w pctx with
    | (.reject _, w, pctx) => ([], w, pctx)
    | (.cont, w, pctx) =>
      let (written, w, pctx) := streamFrames rest w pctx
      (Sse.writeSSEFrame frame ++ written, w, pctx)

/-- `handleStreamingResponse`. The answer to the last frame comes too late to matter. -/
def handleStreamingResponse (resp : Upstream) (w : W) (pctx : Context) :
    Delivery × W × Context :=
  let (written, w, pctx) :=
    streamFrames ctxErr p (Sse.frames maxResponseBody resp.body).1 w pctx
  let (_, w, pctx) := p.runResponseFrame ctxErr [] true w pctx
  (.response resp.statusCode (headerDel resp.header "Content-Length") written, w, pctx)

/-- The frames of `streamFallbackBuffered`, up to the first rejection. -/
def replayFrames : List Bytes → Hook W
  | [], w, pctx => p.runResponseFrame ctxErr [] true w pctx
  | frame :: rest, w, pctx =>
    match p.runResponseFrame ctxErr frame false w pctx with
    | (.reject violation, w, pctx) => (.reject violation, w, pctx)
    | (.cont, w, pctx) => replayFrames rest w pctx

def streamFallbackBuffered (resp : Upstream) (w : W) (pctx : Context) :
    Delivery × W × Context :=
  match readAll resp.body with
  | .error failure => (failure, w, pctx)
  | .ok body =>
    match p.runResponse ctxErr w { pctx with responseBody := body } with
    | (.reject violation, w, pctx) => (.rejection violation, w, pctx)
    | (.cont, w, pctx) =>
      match
        if p.hasStreamingResponders then
          replayFrames ctxErr p (Sse.frames maxResponseBody ⟨body, false⟩).1 w pctx
        else (.cont, w, pctx)
      with
      | (.reject violation, w, pctx) => (.rejection violation, w, pctx)
      | (.cont, w, pctx) =>
        (.response resp.statusCode resp.header resp.body.bytes, w, pctx)

/-- The response phase of `serveOutbound`. `skipped` tells that the host is one of
`SkipHosts`, `flushes` that the connection to the agent can deliver bytes one by one. -/
def serveResponse (skipped flushes : Bool) (resp : Upstream) (w : W) (pctx : Context) :
    Delivery × W × Context :=
  let pctx := { pctx with statusCode := resp.statusCode, responseHeaders := resp.header }
  if skipped then (.response resp.statusCode resp.header resp.body.bytes, w, pctx)
  else if p.streams resp then
    if flushes then handleStreamingResponse ctxErr p resp w pctx
    else streamFallbackBuffered ctxErr p resp w pctx
  else serveBuffered ctxErr p resp w pctx

end Pipeline

/-! The response rules of OPA -/

inductive OpaDecision where
  | undefined
  | failed (err : String)
  | result (value : Option Json)

structure OPA (W : Type*) where
  ready : W → Bool
  decision : String → Context → W → OpaDecision × W

def goTypeName : Json → String
  | .null => "<nil>"
  | .bool _ => "bool"
  | .num _ => "json.Number"
  | .str _ => "string"
  | .arr _ => "[]interface \x7b\x7d"
  | .obj _ => "map[string]interface \x7b\x7d"

/-- `interpretDecision`: why the result is not an allowance, if it is none. -/
def interpretDecision : Option Json → Option String
  | none | some .null => some "no decision result"
  | some (.bool allow) => if allow then none else some "policy denied"
  | some (.obj members) =>
    match members.lookup "allow" with
    | some (.bool true) => none
    | some (.bool false) =>
      match members.lookup "reason" with
      | some (.str reason) => some reason
      | _ => some "policy denied"
    | _ => some "unrecognized policy result shape"
  | some value => some ("unexpected decision type " ++ goTypeName value)

namespace OPA

variable {W : Type*} (opa : OPA W)

def decisionPath (pctx : Context) (phase : InvocationPhase) : String :=
  match pctx.direction, phase with
  | .outbound, .response => "authbridge/outbound/response"
  | .outbound, _ => "authbridge/outbound/request"
  | .inbound, .response => "authbridge/inbound/response"
  | .inbound, _ => "authbridge/inbound/request"

def evaluate (phase : InvocationPhase) (qualifier errorText : String) : Hook W :=
  fun w pctx =>
    if opa.ready w then
      match opa.decision (decisionPath pctx phase) pctx w with
      | (.undefined, w) => (.cont, w, pctx.skip "no_policy_rule")
      | (.failed err, w) =>
        (.deny "policy.forbidden" (errorText ++ err), w,
          pctx.record .deny (qualifier ++ "decision_error") [("error", err)])
      | (.result value, w) =>
        match interpretDecision value with
        | some reason =>
          (.deny "policy.forbidden" reason, w,
            pctx.record .deny (qualifier ++ "policy_denied") [("opa_reason", reason)])
        | none => (.cont, w, pctx.allow (qualifier ++ "policy_allowed"))
    else
      (.denyStatus 503 "upstream.unreachable" "opa policy engine not initialized", w,
        pctx.record .deny "opa_not_ready" [])

def onRequest : Hook W := opa.evaluate .request "" "OPA decision error: "

def onResponse : Hook W := opa.evaluate .response "response_" "OPA response decision error: "

/-- The plugin, as far as a request or response meets it. -/
def plugin : Plugin W where
  name := "opa"
  capabilities := ⟨false, false, [], []⟩
  onRequest := opa.onRequest
  onResponse := opa.onResponse
  ready := some fun w => (opa.ready w, w)

end OPA

/-! Which responses are enforced -/

namespace Plugin

variable {W : Type*} (plugin : Plugin W)

/-- `OnResponse` leaves the status and the headers of the response alone, as it does in every
plugin of the repository. -/
def KeepsResponse : Prop := ∀ w pctx,
  (plugin.onResponse w pctx).2.2.statusCode = pctx.statusCode ∧
    (plugin.onResponse w pctx).2.2.responseHeaders = pctx.responseHeaders

/-- `OnResponse` rejects every response with this status and these headers. -/
def RejectsResponse (statusCode : Nat) (header : Header) : Prop := ∀ w pctx,
  pctx.statusCode = statusCode → pctx.responseHeaders = header →
    ∃ violation, (plugin.onResponse w pctx).1 = .reject violation

end Plugin

namespace Context

variable (pctx : Context) (action : InvocationAction) (reason : String)
  (details : List (String × String))

@[simp] theorem record_statusCode :
    (pctx.record action reason details).statusCode = pctx.statusCode := by
  obtain ⟨invocations, h⟩ := pctx.record_eq action reason details
  rw [h]

@[simp] theorem record_responseHeaders :
    (pctx.record action reason details).responseHeaders = pctx.responseHeaders := by
  obtain ⟨invocations, h⟩ := pctx.record_eq action reason details
  rw [h]

end Context

variable {W : Type*}

theorem a2aParser_keepsResponse : (a2aParser : Plugin W).KeepsResponse := by
  intro w pctx
  change (a2aParserOnResponse pctx).statusCode = _ ∧ (a2aParserOnResponse pctx).responseHeaders = _
  unfold a2aParserOnResponse
  split
  · exact ⟨rfl, rfl⟩
  · split
    · exact ⟨rfl, rfl⟩
    · split <;> simp [Context.skip, Context.observe, Context.setA2A]

theorem OPA.evaluate_records (opa : OPA W) (phase : InvocationPhase) (qualifier errorText : String)
    (w : W) (pctx : Context) :
    ∃ action reason details, (opa.evaluate phase qualifier errorText w pctx).2.2 =
      pctx.record action reason details := by
  fun_cases OPA.evaluate <;> exact ⟨_, _, _, rfl⟩

theorem OPA.plugin_keepsResponse (opa : OPA W) : opa.plugin.KeepsResponse := by
  intro w pctx
  obtain ⟨action, reason, details, hrecords⟩ := opa.evaluate_records .response "response_"
    "OPA response decision error: " w pctx
  have hafter : (opa.plugin.onResponse w pctx).2.2 = pctx.record action reason details :=
    hrecords
  rw [hafter]
  simp

namespace Pipeline

variable {W : Type*} {ctxErr : CtxErr W} {p : Pipeline W} {plugin : Plugin W}

theorem dispatch_keepsResponse (hkeeps : plugin.KeepsResponse) (policy : ErrorPolicy) (w : W)
    (pctx : Context) :
    (dispatch plugin.name policy .response plugin.onResponse w pctx).2.2.statusCode =
        pctx.statusCode ∧
      (dispatch plugin.name policy .response plugin.onResponse w pctx).2.2.responseHeaders =
        pctx.responseHeaders := by
  obtain ⟨invocations, rejectingPlugin, h⟩ :=
    dispatch_context plugin.name policy .response plugin.onResponse w pctx
  rw [h]
  exact hkeeps w (pctx.setCurrent plugin.name .response policy)

variable {statusCode : Nat} {header : Header}

theorem dispatch_enforce_reject (hrejects : plugin.RejectsResponse statusCode header) (w : W)
    {pctx : Context} (hstatus : pctx.statusCode = statusCode)
    (hheader : pctx.responseHeaders = header) :
    ∃ violation w' pctx', dispatch plugin.name .enforce .response plugin.onResponse w pctx =
      (some (.reject violation), w', pctx') := by
  obtain ⟨violation, h⟩ := hrejects w (pctx.setCurrent plugin.name .response .enforce)
    hstatus hheader
  rcases hhook : plugin.onResponse w (pctx.setCurrent plugin.name .response .enforce) with
    ⟨action, w', after⟩
  rw [hhook] at h
  obtain rfl : action = .reject violation := h
  refine ⟨some (Violation.stamp plugin.name violation), w', ?_, ?_⟩
  rotate_left
  · unfold dispatch
    simp only [hhook]
    rfl

theorem runResponse_rejects (ctxErr : CtxErr W) (hbuffered : plugin.onResponseFrame = none)
    (hrejects : plugin.RejectsResponse statusCode header) (hmem : (plugin, ErrorPolicy.enforce) ∈ p)
    (hkeeps : ∀ q ∈ p, q.1.KeepsResponse) (w : W) (pctx : Context)
    (hstatus : pctx.statusCode = statusCode) (hheader : pctx.responseHeaders = header) :
    ∃ violation w' pctx', p.runResponse ctxErr w pctx = (.reject violation, w', pctx') := by
  obtain ⟨back, front, hsplit⟩ := List.append_of_mem (List.mem_reverse.mpr hmem)
  -- the plugins that run before it leave what it rejects
  have hkept : let out := respondIn ctxErr back w pctx
      out.2.2.statusCode = statusCode ∧ out.2.2.responseHeaders = header := by
    refine respondIn_rule (I := fun _ c => c.statusCode = statusCode ∧ c.responseHeaders = header)
      (fun _ _ => id) (fun entry hentry w' c h => ?_) w pctx ⟨hstatus, hheader⟩
    have hmember : entry ∈ p := List.mem_reverse.mp (hsplit ▸ List.mem_append_left _ hentry)
    have hsame := dispatch_keepsResponse (hkeeps entry hmember) entry.2 w' c
    exact ⟨hsame.1.trans h.1, hsame.2.trans h.2⟩
  rw [runResponse, hsplit, respondIn_append]
  rcases hback : respondIn ctxErr back w pctx with ⟨_ | violation, w₁, pctx₁⟩ <;> rw [hback] at hkept
  · dsimp only
    rw [respondIn, if_neg (by simp [hbuffered])]
    split
    · exact ⟨_, _, _, rfl⟩
    next w₂ _ =>
      obtain ⟨violation, w', pctx', hstop⟩ :=
        dispatch_enforce_reject hrejects w₂ hkept.1 hkept.2
      rw [hstop]
      exact ⟨violation, w', pctx', rfl⟩
  · exact ⟨violation, w₁, pctx₁, rfl⟩

theorem readAll_withheld {body : Sse.Incoming} {failure : Delivery}
    (h : readAll body = .error failure) : failure.withheld := by
  revert h
  fun_cases readAll <;> rintro ⟨⟩ <;> rfl

def withOnResponse (p : Pipeline W) (hook : Plugin W → Hook W) : Pipeline W :=
  p.map fun (plugin, policy) => ({ plugin with onResponse := hook plugin }, policy)

variable (hook : Plugin W → Hook W)

theorem frameIn_withOnResponse (frame : Bytes) (last : Bool) :
    frameIn ctxErr frame last (p.withOnResponse hook) = frameIn ctxErr frame last p := by
  induction p with
  | nil => rfl
  | cons head rest ih =>
    obtain ⟨plugin, policy⟩ := head
    funext w pctx
    change frameIn ctxErr frame last
      (({ plugin with onResponse := hook plugin }, policy) :: withOnResponse rest hook) w pctx = _
    rw [frameIn, frameIn, ih]

theorem runResponseFrame_withOnResponse (frame : Bytes)
    (last : Bool) : (p.withOnResponse hook).runResponseFrame ctxErr frame last =
      p.runResponseFrame ctxErr frame last := by
  unfold runResponseFrame
  rw [withOnResponse, ← List.map_reverse]
  exact frameIn_withOnResponse hook frame last

theorem streamFrames_withOnResponse (frames : List Bytes) :
    streamFrames ctxErr (p.withOnResponse hook) frames = streamFrames ctxErr p frames := by
  induction frames with
  | nil => rfl
  | cons frame rest ih =>
    funext w pctx
    rw [streamFrames, streamFrames, runResponseFrame_withOnResponse, ih]

theorem streams_withOnResponse (resp : Upstream) :
    (p.withOnResponse hook).streams resp = p.streams resp := by
  unfold streams hasStreamingResponders writesBody withOnResponse
  simp only [List.any_map]
  rfl

/-- A response of a host that is not skipped. If it is buffered, because of its media type or
of the chain, then a rejection by some `OnResponse` under `enforce` withholds it. If it is
streamed, then the `OnResponse` hooks have no part in what happens. -/
theorem enforced_when_buffered (ctxErr : CtxErr W) (p : Pipeline W) (flushes : Bool)
    (resp : Upstream) (w : W) (pctx : Context) :
    ((p.streams resp = false ∨ flushes = false) → (∀ q ∈ p, q.1.KeepsResponse) →
      (∃ plugin, (plugin, ErrorPolicy.enforce) ∈ p ∧ plugin.onResponseFrame = none ∧
        plugin.RejectsResponse resp.statusCode resp.header) →
      (p.serveResponse ctxErr false flushes resp w pctx).1.withheld) ∧
    (p.streams resp = true → flushes = true → ∀ hook : Plugin W → Hook W,
      (p.withOnResponse hook).serveResponse ctxErr false flushes resp w pctx =
        p.serveResponse ctxErr false flushes resp w pctx) := by
  constructor
  · rintro hpath hkeeps ⟨plugin, hmem, hbuffered, hrejects⟩
    unfold serveResponse
    rw [if_neg Bool.false_ne_true]
    cases hstreams : p.streams resp with
    | false =>
      rw [if_neg Bool.false_ne_true]
      unfold serveBuffered
      split
      next failure hread =>
        split at hread
        · exact readAll_withheld hread
        · cases hread
      next body _ =>
        obtain ⟨violation, w', pctx', h⟩ := runResponse_rejects ctxErr hbuffered hrejects
          hmem hkeeps w (p.receive resp.statusCode resp.header body
            { pctx with statusCode := resp.statusCode, responseHeaders := resp.header })
          rfl rfl
        simp only [bufferedResponse, h]
        rfl
    | true =>
      rw [if_pos rfl, if_neg (by simpa [hstreams] using hpath)]
      unfold streamFallbackBuffered
      split
      next failure hread => exact readAll_withheld hread
      next body _ =>
        obtain ⟨violation, w', pctx', h⟩ := runResponse_rejects ctxErr hbuffered hrejects
          hmem hkeeps w
          { pctx with
            statusCode := resp.statusCode
            responseHeaders := resp.header
            responseBody := body }
          rfl rfl
        simp only [h]
        rfl
  · rintro hstreams rfl hook
    simp only [serveResponse, streams_withOnResponse, hstreams, if_true,
      Bool.false_eq_true, if_false, handleStreamingResponse, streamFrames_withOnResponse,
      runResponseFrame_withOnResponse]

def statusRule : OPA Unit where
  ready := fun _ => true
  decision := fun _ pctx w => (.result (some (.bool (pctx.statusCode = 200))), w)

def guardedChain : Pipeline Unit :=
  [(a2aParser, .enforce), (statusRule.plugin.wrapConfigured [], .enforce)]

def failure (contentType : String) : Upstream where
  statusCode := 500
  header := headerSet ∅ "Content-Type" contentType
  body := ⟨bytes "data: secret\n\n", false⟩

def agentRequest : Context :=
  Context.ofRequest .outbound "GET" "http" "tool" (bytes "/") ∅ []

theorem statusRule_rejects (contentType : String) :
    (statusRule.plugin.wrapConfigured []).RejectsResponse 500 (failure contentType).header := by
  intro w pctx hstatus _
  have hdenied : (statusRule.plugin.onResponse w pctx).1 =
      .deny "policy.forbidden" "policy denied" := by
    simp [OPA.plugin, OPA.onResponse, OPA.evaluate, statusRule, hstatus, interpretDecision]
  exact ⟨_, hdenied⟩

/-- A JSON failure is buffered, so the rejection reaches the agent. -/
theorem enforced_when_json :
    ((failure "application/json").body.bytes ≠ [] ∧
      (guardedChain.serveResponse (fun w => (false, w)) false true (failure "application/json")
        () agentRequest).1.withheld) := by
  refine ⟨by decide +kernel, (enforced_when_buffered _ guardedChain true _ _ _).1
    (.inl (by decide +kernel)) ?_ ⟨_, .tail _ (.head _), rfl, statusRule_rejects _⟩⟩
  rintro q (_ | ⟨_, _ | ⟨_, _ | _⟩⟩)
  · exact a2aParser_keepsResponse
  · exact statusRule.plugin_keepsResponse

/-- The response that is withheld as JSON is delivered as an event stream. -/
theorem delivered_as_event_stream :
    (guardedChain.serveResponse (fun w => (false, w)) false true (failure "application/json")
        () agentRequest).1.body = none ∧
      (guardedChain.serveResponse (fun w => (false, w)) false true
        (failure "text/event-stream") () agentRequest).1.body =
          some (bytes "data: secret\n\n") := by
  decide +kernel

end Pipeline

end Kagenti.AuthBridge
