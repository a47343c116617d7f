import Kagenti.AuthBridge.ParserDisjointness
import Kagenti.AuthBridge.ResponseParsers
import Kagenti.AuthBridge.Trace

/-!
The wrapper that the registry puts around every configurable plugin (`pipeline/configured.go`),
compared with the plugin over every sequence of operations.
-/

namespace Kagenti.AuthBridge

open Go

namespace Plugin

variable {W : Type*}

/-- The plugin with the fallbacks of the wrapper for `Initializer`, `Shutdowner`,
`Finisher` and `Readier`, where it does not implement them. -/
def complete (p : Plugin W) : Plugin W :=
  { p with
    init := some (p.init.getD fun w => (none, w))
    shutdown := some (p.shutdown.getD fun w => (none, w))
    onFinish := some (p.onFinish.getD fun w pctx => (w, pctx))
    ready := some (p.ready.getD fun w => (true, w))
    rawConfig := none }

/-- `WrapConfigured`. The embedded interface has no `OnResponseFrame`, and the wrapper does
not define it. -/
def wrapConfigured (p : Plugin W) (raw : Bytes) : Plugin W :=
  { p.complete with onResponseFrame := none, rawConfig := some raw }

theorem complete_wrapConfigured {p : Plugin W} (raw : Bytes) (h : p.onResponseFrame = none) :
    (p.wrapConfigured raw).complete = p.complete := by
  cases p
  cases h
  rfl

end Plugin

namespace Pipeline

variable {W : Type*}

def complete (p : Pipeline W) : Pipeline W := p.map fun (plugin, policy) => (plugin.complete, policy)

/-! The operations do not see whether a plugin is completed. -/

section Complete

variable (ctxErr : CtxErr W) (p : Pipeline W)

theorem complete_reverse : complete p.reverse = p.complete.reverse :=
  List.map_reverse

theorem complete_cons {plugin : Plugin W} {policy : ErrorPolicy} :
    complete ((plugin, policy) :: p) = (plugin.complete, policy) :: p.complete :=
  rfl

theorem runFrom_complete (i : Nat) (p : Pipeline W) :
    runFrom ctxErr i p.complete = runFrom ctxErr i p := by
  induction p generalizing i with
  | nil => rfl
  | cons head rest ih =>
    obtain ⟨plugin, policy⟩ := head
    funext w pctx
    rw [complete_cons, runFrom, runFrom, ih]
    -- the name and the hook are those of the plugin itself
    rfl

theorem respondIn_complete : respondIn ctxErr p.complete = respondIn ctxErr p := by
  induction p with
  | nil => rfl
  | cons head rest ih =>
    obtain ⟨plugin, policy⟩ := head
    funext w pctx
    rw [complete_cons, respondIn, respondIn, ih]
    rfl

theorem frameIn_complete (frame : Bytes) (last : Bool) (p : Pipeline W) :
    frameIn ctxErr frame last p.complete = frameIn ctxErr frame last p := by
  induction p with
  | nil => rfl
  | cons head rest ih =>
    obtain ⟨plugin, policy⟩ := head
    funext w pctx
    rw [complete_cons, frameIn, frameIn, ih]
    rfl

theorem notReadyPlugin_complete : notReadyPlugin p.complete = notReadyPlugin p := by
  induction p with
  | nil => rfl
  | cons head rest ih =>
    obtain ⟨plugin, policy⟩ := head
    funext w
    rw [complete_cons, notReadyPlugin, notReadyPlugin, ih]
    cases h : plugin.ready <;> simp [Plugin.complete, h]

theorem shutdownIn_complete : shutdownIn p.complete = shutdownIn p := by
  induction p with
  | nil => rfl
  | cons head rest ih =>
    obtain ⟨plugin, policy⟩ := head
    funext w
    rw [complete_cons, shutdownIn, shutdownIn, ih]
    cases h : plugin.shutdown <;> simp [Plugin.complete, h]

theorem startFrom_complete (started p : Pipeline W) :
    startFrom started.complete p.complete = startFrom started p := by
  induction p generalizing started with
  | nil => rfl
  | cons head rest ih =>
    obtain ⟨plugin, policy⟩ := head
    funext w
    rw [complete_cons, startFrom, startFrom, ← complete_cons, ih, shutdownIn_complete]
    cases h : plugin.init <;> simp [Plugin.complete, h]

theorem getElem?_complete (p : Pipeline W) (i : Nat) :
    p.complete[i]? = p[i]?.map fun (plugin, policy) => (plugin.complete, policy) :=
  List.getElem?_map

variable {pctx : Context}

theorem dispatchFinish_fallback (w : W) (idle : pctx.inFinish = false) :
    dispatchFinish (fun w pctx => (w, pctx)) w pctx = (w, pctx) := by
  cases pctx
  cases idle
  rfl

theorem dispatchFinish_idle (onFinish : W → Context → W × Context) (w : W) (pctx : Context) :
    (dispatchFinish onFinish w pctx).2.inFinish = false := rfl

theorem finishIn_complete (indices : List Nat) (w : W)
    (idle : pctx.inFinish = false) :
    finishIn p.complete indices w pctx = finishIn p indices w pctx := by
  induction indices generalizing w pctx with
  | nil => rfl
  | cons i rest ih =>
    rw [finishIn, finishIn, getElem?_complete]
    cases found : p[i]? with
    | none => exact ih w idle
    | some entry =>
      cases finisher : entry.1.onFinish with
      | none =>
        have fallback := dispatchFinish_fallback w idle
        simp [Plugin.complete, finisher, fallback, ih w idle]
      | some onFinish =>
        have after := ih (dispatchFinish onFinish w pctx).1
          (dispatchFinish_idle onFinish w pctx)
        simpa [Plugin.complete, finisher] using after

end Complete

/-! `inFinish` is down outside of `RunFinish`. -/

section Idle

variable {pctx : Context} {ctxErr : CtxErr W} (p : Pipeline W)

theorem run_inFinish (w : W) (idle : pctx.inFinish = false) :
    (run ctxErr p w pctx).2.2.inFinish = false :=
  run_rule (I := fun _ _ pctx => pctx.inFinish = false) (fun _ _ _ => id)
    (fun _ _ _ => id) (fun _ _ _ _ _ h => (dispatch_keepsMarks _ _ _ _ _ _).inFinish.trans h) w
    pctx idle

theorem respondIn_inFinish (w : W) (idle : pctx.inFinish = false) :
    (respondIn ctxErr p w pctx).2.2.inFinish = false :=
  respondIn_rule (I := fun _ pctx => pctx.inFinish = false) (fun _ _ h => h)
    (fun _ _ _ _ h => (dispatch_keepsMarks _ _ _ _ _ _).inFinish.trans h) w pctx idle

theorem frameIn_inFinish (frame : Bytes) (last : Bool) (p : Pipeline W) (w : W)
    (idle : pctx.inFinish = false) : (frameIn ctxErr frame last p w pctx).2.2.inFinish = false :=
  frameIn_rule (I := fun _ pctx => pctx.inFinish = false) (fun _ _ h => h)
    (fun _ _ _ _ _ _ h => (dispatch_keepsMarks _ _ _ _ _ _).inFinish.trans h) w pctx idle

theorem finishIn_inFinish (indices : List Nat) (w : W)
    (idle : pctx.inFinish = false) : (finishIn p indices w pctx).2.inFinish = false := by
  induction indices generalizing w pctx with
  | nil => exact idle
  | cons i rest ih =>
    rw [finishIn]
    split
    · exact ih w idle
    · exact ih _ rfl

end Idle

end Pipeline

/-! Exchanges -/

/-- What a host does with a pipeline. `accept` and `receive` are the listener's own writes:
the context of a new request, and the upstream response. -/
inductive PipelineOp where
  | start
  | accept (pctx : Context)
  | run
  | receive (statusCode : Nat) (headers : Header) (body : Bytes)
  | respond
  | frame (bytes : Bytes) (last : Bool)
  | finish (outcome : Outcome)
  | ready
  | stop

inductive PipelineAnswer where
  | done
  | started (err : Option (String × String))
  | action (a : Action)
  | notReady (plugin : Option String)

structure Exchange (W : Type*) where
  world : W
  pctx : Context

namespace Exchange

variable {W : Type*}

/-- A new context has the zero values in its unexported fields. -/
def accept (s : Exchange W) (pctx : Context) : Exchange W :=
  let zero := Context.ofRequest pctx.direction pctx.method pctx.scheme pctx.host pctx.path
    pctx.headers pctx.body
  { s with pctx := zero.keepPrivate pctx }

def ofHook (result : Action × W × Context) : PipelineAnswer × Exchange W :=
  (.action result.1, ⟨result.2.1, result.2.2⟩)

def exec (ctxErr : Pipeline.CtxErr W) (p : Pipeline W) (s : Exchange W) :
    PipelineOp → PipelineAnswer × Exchange W
  | .start =>
    let (err, w) := p.start s.world
    (.started err, { s with world := w })
  | .accept pctx => (.done, s.accept pctx)
  | .run => ofHook (p.run ctxErr s.world s.pctx)
  | .receive statusCode headers body =>
    (.done, { s with pctx := { s.pctx with
      statusCode := statusCode, responseHeaders := headers, responseBody := body } })
  | .respond => ofHook (p.runResponse ctxErr s.world s.pctx)
  | .frame bytes last => ofHook (p.runResponseFrame ctxErr bytes last s.world s.pctx)
  | .finish outcome =>
    let (w, pctx) := p.runFinish outcome s.world s.pctx
    (.done, ⟨w, pctx⟩)
  | .ready =>
    let (plugin, w) := p.notReadyPlugin s.world
    (.notReady plugin, { s with world := w })
  | .stop => (.done, { s with world := p.stop s.world })

def execAll (ctxErr : Pipeline.CtxErr W) (p : Pipeline W) (s : Exchange W) :
    List PipelineOp → List PipelineAnswer × Exchange W
  | [] => ([], s)
  | op :: ops =>
    let (answer, s) := s.exec ctxErr p op
    let (answers, s) := execAll ctxErr p s ops
    (answer :: answers, s)

variable (ctxErr : Pipeline.CtxErr W) (p : Pipeline W) {s : Exchange W}
  (idle : s.pctx.inFinish = false)

include idle

theorem exec_idle (op : PipelineOp) : (s.exec ctxErr p op).2.pctx.inFinish = false := by
  cases op with
  | start => exact idle
  | accept pctx => rfl
  | run => exact Pipeline.run_inFinish p _ idle
  | receive => exact idle
  | respond => exact Pipeline.respondIn_inFinish _ _ idle
  | frame => exact Pipeline.frameIn_inFinish _ _ _ _ idle
  | finish outcome =>
    change (p.runFinish outcome s.world s.pctx).2.inFinish = false
    unfold Pipeline.runFinish
    split
    · exact idle
    · dsimp only
      split
      · exact idle
      · exact Pipeline.finishIn_inFinish p _ _ idle
  | ready => exact idle
  | stop => exact idle

theorem exec_complete (op : PipelineOp) : s.exec ctxErr p.complete op = s.exec ctxErr p op := by
  cases op with
  | start =>
    have same : p.complete.start s.world = p.start s.world :=
      congrFun (Pipeline.startFrom_complete [] p) s.world
    simp only [exec, same]
  | accept => rfl
  | run =>
    have same : p.complete.run ctxErr = p.run ctxErr := Pipeline.runFrom_complete ctxErr 0 p
    simp only [exec, same]
  | receive => rfl
  | respond =>
    have same : p.complete.runResponse ctxErr = p.runResponse ctxErr := by
      rw [Pipeline.runResponse, ← Pipeline.complete_reverse, Pipeline.respondIn_complete]
      rfl
    simp only [exec, same]
  | frame bytes last =>
    have same : p.complete.runResponseFrame ctxErr bytes last =
        p.runResponseFrame ctxErr bytes last := by
      rw [Pipeline.runResponseFrame, ← Pipeline.complete_reverse, Pipeline.frameIn_complete]
      rfl
    simp only [exec, same]
  | finish outcome =>
    have same : p.complete.runFinish outcome s.world s.pctx =
        p.runFinish outcome s.world s.pctx := by
      grind [Pipeline.finishIn_complete, Pipeline.runFinish]
    simp only [exec, same]
  | ready =>
    simp only [exec, Pipeline.notReadyPlugin_complete]
  | stop =>
    have same : p.complete.stop = p.stop := by
      funext w
      rw [Pipeline.stop, ← Pipeline.complete_reverse, Pipeline.shutdownIn_complete]
      rfl
    simp only [exec, same]

theorem execAll_complete (ops : List PipelineOp) :
    s.execAll ctxErr p.complete ops = s.execAll ctxErr p ops := by
  induction ops generalizing s with
  | nil => rfl
  | cons op ops ih =>
    have rest := ih (exec_idle ctxErr p idle op)
    simp only [execAll, exec_complete ctxErr p idle op, rest]

end Exchange

/-! Calls that reach a plugin -/

inductive PluginCall where
  | init
  | onRequest (pctx : Context)
  | onResponse (pctx : Context)
  | onResponseFrame (frame : Bytes) (last : Bool) (pctx : Context)
  | onFinish (pctx : Context)
  | shutdown
  | ready

section Log

variable {W α : Type*}

def besideLog (f : W → α × W) : W × List PluginCall → α × W × List PluginCall :=
  fun (w, log) => ((f w).1, (f w).2, log)

def hookBesideLog (f : Hook W) : Hook (W × List PluginCall) := fun (w, log) pctx =>
  let (action, w, pctx) := f w pctx
  (action, (w, log), pctx)

def logCall (call : PluginCall) (f : W × List PluginCall → α) : W × List PluginCall → α :=
  fun (w, log) => f (w, log ++ [call])

def logHook (call : Context → PluginCall) (f : Hook (W × List PluginCall)) :
    Hook (W × List PluginCall) := fun (w, log) pctx => f (w, log ++ [call pctx]) pctx

end Log

namespace Plugin

variable {W : Type*}

def beside (p : Plugin W) : Plugin (W × List PluginCall) where
  name := p.name
  capabilities := p.capabilities
  onRequest := hookBesideLog p.onRequest
  onResponse := hookBesideLog p.onResponse
  onResponseFrame := p.onResponseFrame.map fun f frame last => hookBesideLog (f frame last)
  init := p.init.map besideLog
  shutdown := p.shutdown.map besideLog
  onFinish := p.onFinish.map fun f (w, log) pctx => (((f w pctx).1, log), (f w pctx).2)
  ready := p.ready.map besideLog
  rawConfig := p.rawConfig

def logged (p : Plugin W) : Plugin (W × List PluginCall) :=
  let q := p.beside
  { q with
    onRequest := logHook .onRequest q.onRequest
    onResponse := logHook .onResponse q.onResponse
    onResponseFrame := q.onResponseFrame.map fun f frame last =>
      logHook (.onResponseFrame frame last) (f frame last)
    init := q.init.map (logCall .init)
    shutdown := q.shutdown.map (logCall .shutdown)
    onFinish := q.onFinish.map fun f (w, log) pctx => f (w, log ++ [.onFinish pctx]) pctx
    ready := q.ready.map (logCall .ready) }

theorem logged_streaming (p : Plugin W) :
    p.logged.onResponseFrame.isSome = p.onResponseFrame.isSome := by
  simp [logged, beside]

end Plugin

namespace Pipeline

variable {W : Type*}

def around (front back : Pipeline W) (policy : ErrorPolicy) (p : Plugin (W × List PluginCall)) :
    Pipeline (W × List PluginCall) :=
  let beside : Plugin W × ErrorPolicy → Plugin (W × List PluginCall) × ErrorPolicy :=
    fun (plugin, policy) => (plugin.beside, policy)
  front.map beside ++ (p, policy) :: back.map beside

theorem complete_around (front back : Pipeline W) (policy : ErrorPolicy)
    {p q : Plugin (W × List PluginCall)} (h : p.complete = q.complete) :
    (around front back policy p).complete = (around front back policy q).complete := by
  simp [around, complete, h]

end Pipeline

/-- Replacing a plugin by its wrapper changes no call that reaches it, no answer and no
other effect, in any chain and over any sequence of operations, exactly if the plugin is
not a streaming responder. -/
theorem wrapConfigured_transparent_iff {W : Type*} [Inhabited W] (p : Plugin W) (raw : Bytes) :
    (∀ (front back : Pipeline W) (policy : ErrorPolicy)
        (ctxErr : Pipeline.CtxErr (W × List PluginCall)) (w : W) (request : Context)
        (ops : List PipelineOp),
      let bare := Pipeline.around front back policy p.logged
      let wrapped := Pipeline.around front back policy (p.logged.wrapConfigured raw)
      let s := Exchange.accept ⟨(w, []), request⟩ request
      wrapped.hasStreamingResponders = bare.hasStreamingResponders ∧
        s.execAll ctxErr wrapped ops = s.execAll ctxErr bare ops) ↔
      p.onResponseFrame = none := by
  constructor
  · intro transparent
    have alone := (transparent [] [] .enforce (fun w => (false, w)) default
      (.ofRequest .outbound "GET" "http" "" [] ∅ []) []).1
    have streaming : p.logged.onResponseFrame.isSome = false := by
      simpa [Pipeline.hasStreamingResponders, Pipeline.around, Plugin.wrapConfigured] using alone.symm
    rw [Plugin.logged_streaming] at streaming
    exact Option.isNone_iff_eq_none.mp (by simpa using streaming)
  · intro plain front back policy ctxErr w request ops bare wrapped s
    have plain : p.logged.onResponseFrame = none := by
      have same := p.logged_streaming
      rw [plain] at same
      exact Option.not_isSome_iff_eq_none.mp (by simp [same])
    have complete : wrapped.complete = bare.complete :=
      Pipeline.complete_around front back policy (Plugin.complete_wrapConfigured raw plain)
    refine ⟨?_, ?_⟩
    · simp [wrapped, bare, Pipeline.hasStreamingResponders, Pipeline.around, plain,
        Plugin.wrapConfigured]
    · have idle : s.pctx.inFinish = false := rfl
      rw [← Exchange.execAll_complete ctxErr wrapped idle ops, complete,
        Exchange.execAll_complete ctxErr bare idle ops]

def mcpParserChain (wrap : Bool) : Pipeline (Unit × List PluginCall) :=
  let p : Plugin (Unit × List PluginCall) := (mcpParser ⟨none⟩ : Plugin Unit).logged
  Pipeline.around [] [] .enforce (if wrap then p.wrapConfigured [] else p)

def streamedToolCall (chain : Pipeline (Unit × List PluginCall)) : List PluginCall :=
  let ops : List PipelineOp :=
    [.run, .frame (bytes "\x7b\"result\":\x7b\x7d\x7d") false, .frame [] true]
  let s := Exchange.accept ⟨((), []), toolCallRequest⟩ toolCallRequest
  (s.execAll (fun w => (false, w)) chain ops).2.world.2

/-- A wrapped mcp-parser is no streaming responder, and no frame reaches it. -/
theorem mcpParser_frames_lost :
    (mcpParserChain false).hasStreamingResponders = true ∧
      (mcpParserChain true).hasStreamingResponders = false ∧
      (streamedToolCall (mcpParserChain false)).length = 3 ∧
      (streamedToolCall (mcpParserChain true)).length = 1 := by
  decide +kernel

end Kagenti.AuthBridge
