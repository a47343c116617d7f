import Kagenti.AuthBridge.Pipeline

/-!
Pipelines whose calls into hooks are recorded, with the context that each hook is given.
-/

namespace Kagenti.AuthBridge

open Go

inductive CallKind where
  | request
  | response
  | frame (data : Bytes) (last : Bool)
  | finish
  deriving DecidableEq

structure Call where
  kind : CallKind
  index : Nat
  seen : Context

abbrev Trace := List Call

variable {W : Type*}

def Hook.traced (kind : CallKind) (i : Nat) (hook : Hook W) : Hook (W × Trace) :=
  fun (w, trace) pctx =>
    let (action, w, after) := hook w pctx
    (action, (w, trace ++ [⟨kind, i, pctx⟩]), after)

namespace Plugin

/-- The plugin at position `i`, with its calls recorded. What plugins do apart from requests,
responses and finishing is not called here. -/
def traced (i : Nat) (plugin : Plugin W) : Plugin (W × Trace) where
  name := plugin.name
  capabilities := plugin.capabilities
  onRequest := plugin.onRequest.traced .request i
  onResponse := plugin.onResponse.traced .response i
  onResponseFrame := plugin.onResponseFrame.map fun hook frame last =>
    (hook frame last).traced (.frame frame last) i
  onFinish := plugin.onFinish.map fun onFinish (w, trace) pctx =>
    let (w, after) := onFinish w pctx
    ((w, trace ++ [⟨.finish, i, pctx⟩]), after)

variable (i : Nat) (plugin : Plugin W)

@[simp] theorem name_traced : (plugin.traced i).name = plugin.name := rfl

@[simp] theorem onResponse_traced :
    (plugin.traced i).onResponse = plugin.onResponse.traced .response i := rfl

@[simp] theorem isSome_onResponseFrame_traced :
    (plugin.traced i).onResponseFrame.isSome = plugin.onResponseFrame.isSome := by
  simp [traced]

end Plugin

namespace Pipeline

/-- The pipeline with recorded calls, its first plugin at position `i`. -/
def tracedFrom (i : Nat) (p : Pipeline W) : Pipeline (W × Trace) :=
  (p.zipIdx i).map fun ((plugin, policy), i) => (plugin.traced i, policy)

def traced (p : Pipeline W) : Pipeline (W × Trace) := p.tracedFrom 0

def CtxErr.traced (ctxErr : CtxErr W) : CtxErr (W × Trace) := fun (w, trace) =>
  ((ctxErr w).1, (ctxErr w).2, trace)

theorem length_traced (p : Pipeline W) : p.traced.length = p.length := by
  simp [traced, tracedFrom]

theorem getElem?_traced (p : Pipeline W) (i : Nat) :
    p.traced[i]? = p[i]?.map fun (plugin, policy) => (plugin.traced i, policy) := by
  simp only [traced, tracedFrom, List.getElem?_map, List.getElem?_zipIdx, Nat.zero_add,
    Option.map_map]
  rfl

theorem any_traced (f : Plugin (W × Trace) → Bool) (g : Plugin W → Bool)
    (h : ∀ i plugin, f (Plugin.traced i plugin) = g plugin) (p : Pipeline W) :
    (p.traced.any fun entry => f entry.1) = p.any fun entry => g entry.1 := by
  have plain : p.zipIdx.map Prod.fst = p := List.zipIdx_map_fst 0 p
  have seen : p.traced.any (fun entry => f entry.1) = p.zipIdx.any fun x => g x.1.1 := by
    simp only [traced, tracedFrom, List.any_map, Function.comp_def, h]
  rw [seen]
  conv_rhs => rw [← plain, List.any_map]
  rfl

@[simp] theorem hasStreamingResponders_traced (p : Pipeline W) :
    p.traced.hasStreamingResponders = p.hasStreamingResponders :=
  any_traced (fun plugin => plugin.onResponseFrame.isSome)
    (fun plugin => plugin.onResponseFrame.isSome)
    (fun i plugin => plugin.isSome_onResponseFrame_traced i) p

@[simp] theorem writesBody_traced (p : Pipeline W) : p.traced.writesBody = p.writesBody :=
  any_traced (fun plugin => plugin.capabilities.normalize.writesBody)
    (fun plugin => plugin.capabilities.normalize.writesBody) (fun _ _ => rfl) p

@[simp] theorem needsBody_traced (p : Pipeline W) : p.traced.needsBody = p.needsBody :=
  any_traced
    (fun plugin =>
      plugin.capabilities.normalize.readsBody || plugin.capabilities.normalize.writesBody)
    (fun plugin =>
      plugin.capabilities.normalize.readsBody || plugin.capabilities.normalize.writesBody)
    (fun _ _ => rfl) p

theorem exists_of_mem_traced {p : Pipeline W} {entry : Plugin (W × Trace) × ErrorPolicy}
    (h : entry ∈ p.traced) : ∃ plugin i, entry.1 = Plugin.traced i plugin := by
  obtain ⟨⟨⟨plugin, policy⟩, i⟩, -, rfl⟩ := List.mem_map.mp h
  exact ⟨plugin, i, rfl⟩

/-- Recording adds the call to the trace and changes nothing else. -/
theorem dispatch_traced (name : String) (policy : ErrorPolicy) (phase : InvocationPhase)
    (kind : CallKind) (i : Nat) (hook : Hook W) (w : W) (trace : Trace) (pctx : Context) :
    dispatch name policy phase (hook.traced kind i) (w, trace) pctx =
      let out := dispatch name policy phase hook w pctx
      (out.1, (out.2.1, trace ++ [⟨kind, i, pctx.setCurrent name phase policy⟩]), out.2.2) := by
  unfold dispatch Hook.traced
  dsimp only
  split
  · rfl
  · split <;> rfl

structure KeepsMarks (before after : Context) : Prop where
  dispatched : after.dispatched = before.dispatched
  finished : after.finished = before.finished
  outcome : after.outcome = before.outcome
  inFinish : after.inFinish = before.inFinish

theorem dispatch_keepsMarks (name : String) (policy : ErrorPolicy) (phase : InvocationPhase)
    (hook : Hook W) (w : W) (pctx : Context) :
    KeepsMarks pctx (dispatch name policy phase hook w pctx).2.2 := by
  obtain ⟨invocations, rejectingPlugin, left⟩ := dispatch_context name policy phase hook w pctx
  rw [left]
  exact ⟨rfl, rfl, rfl, rfl⟩

section Rules

variable {ctxErr : CtxErr W} {I : W → Context → Prop} {q : Pipeline W}

theorem respondIn_passing {J : W → Context → Prop} (weaker : ∀ w pctx, I w pctx → J w pctx)
    (looked : ∀ w pctx, I w pctx → I (ctxErr w).2 pctx)
    (called : ∀ entry ∈ q, ¬(entry.2 = .off ∨ entry.1.onResponseFrame.isSome) → ∀ w pctx,
      I w pctx → let out := dispatch entry.1.name entry.2 .response entry.1.onResponse w pctx
      J out.2.1 out.2.2 ∧ (out.1 = none → I out.2.1 out.2.2)) (w : W) (pctx : Context)
    (h : I w pctx) : let out := respondIn ctxErr q w pctx
    J out.2.1 out.2.2 ∧ (out.1 = .cont → I out.2.1 out.2.2) := by
  induction q generalizing w pctx with
  | nil => exact ⟨weaker w pctx h, fun _ => h⟩
  | cons entry rest ih =>
    obtain ⟨plugin, policy⟩ := entry
    have rest_rule := ih fun entry member => called entry (List.mem_cons_of_mem _ member)
    have look := looked w pctx h
    unfold respondIn
    split
    · exact rest_rule w pctx h
    next on =>
      rcases found : ctxErr w with ⟨_ | _, w'⟩ <;> rw [found] at look
      · have call := called (plugin, policy) List.mem_cons_self on w' pctx look
        dsimp only at call ⊢
        rcases answer : dispatch plugin.name policy .response plugin.onResponse w' pctx with
          ⟨_ | action, w'', pctx''⟩ <;> rw [answer] at call
        · exact rest_rule w'' pctx'' (call.2 rfl)
        · exact ⟨call.1, fun passed => absurd passed (dispatch_stops answer)⟩
      · exact ⟨weaker w' pctx look, fun passed => by cases passed⟩

theorem respondIn_rule (looked : ∀ w pctx, I w pctx → I (ctxErr w).2 pctx)
    (called : ∀ entry ∈ q, ∀ w pctx, I w pctx →
      let out := dispatch entry.1.name entry.2 .response entry.1.onResponse w pctx
      I out.2.1 out.2.2) (w : W) (pctx : Context) (h : I w pctx) :
    let out := respondIn ctxErr q w pctx
    I out.2.1 out.2.2 :=
  (respondIn_passing (fun _ _ => id) looked (fun entry member _ w pctx h =>
    have call := called entry member w pctx h
    ⟨call, fun _ => call⟩) w pctx h).1

theorem frameIn_rule {frame : Bytes} {last : Bool}
    (looked : ∀ w pctx, I w pctx → I (ctxErr w).2 pctx)
    (called : ∀ entry ∈ q, ∀ hook, entry.1.onResponseFrame = some hook → ∀ w pctx, I w pctx →
      let out := dispatch entry.1.name entry.2 .response (hook frame last) w pctx
      I out.2.1 out.2.2) (w : W) (pctx : Context) (h : I w pctx) :
    let out := frameIn ctxErr frame last q w pctx
    I out.2.1 out.2.2 := by
  induction q generalizing w pctx with
  | nil => exact h
  | cons entry rest ih =>
    obtain ⟨plugin, policy⟩ := entry
    have rest_rule := ih fun entry member => called entry (List.mem_cons_of_mem _ member)
    have look := looked w pctx h
    unfold frameIn
    split
    · exact rest_rule w pctx h
    · rcases found : ctxErr w with ⟨_ | _, w'⟩ <;> rw [found] at look
      · cases streams : plugin.onResponseFrame with
        | none => exact rest_rule w' pctx look
        | some hook =>
          have call := called (plugin, policy) List.mem_cons_self hook streams w' pctx look
          dsimp only at call ⊢
          rcases answer : dispatch plugin.name policy .response (hook frame last) w' pctx with
            ⟨_ | action, w'', pctx''⟩ <;> rw [answer] at call
          · exact rest_rule w'' pctx'' call
          · exact call
      · exact look

/-- A rule for the request phase, with the position in the pipeline. -/
theorem run_rule {I : Nat → W → Context → Prop} (later : ∀ i w pctx, I i w pctx → I (i + 1) w pctx)
    (looked : ∀ i w pctx, I i w pctx → I i (ctxErr w).2 pctx)
    (called : ∀ i entry, q[i]? = some entry → ∀ w pctx, I i w pctx →
      let out := dispatch entry.1.name entry.2 .request entry.1.onRequest w
        { pctx with dispatched := pctx.dispatched ++ [i] }
      I (i + 1) out.2.1 out.2.2) (w : W) (pctx : Context) (h : I 0 w pctx) :
    let out := run ctxErr q w pctx
    I q.length out.2.1 out.2.2 := by
  have stops {i : Nat} {w : W} {pctx : Context} (h : I i w pctx) (le : i ≤ q.length) :
      I q.length w pctx := Nat.le_induction h (fun j _ => later j w pctx) _ le
  suffices behind : ∀ front rest : Pipeline W, front ++ rest = q → ∀ w pctx,
      I front.length w pctx → let out := runFrom ctxErr front.length rest w pctx
      I q.length out.2.1 out.2.2 from behind [] q rfl w pctx h
  intro front rest
  induction rest generalizing front with
  | nil => exact fun whole w pctx h => stops h (by simp [← whole])
  | cons entry rest ih =>
    intro whole w pctx h
    have behind := ih (front ++ [entry]) (by simpa using whole)
    rw [List.length_append] at behind
    have inRange : front.length < q.length := by simp [← whole]
    obtain ⟨plugin, policy⟩ := entry
    unfold runFrom
    split
    · exact behind w pctx (later _ w pctx h)
    · have look := looked _ w pctx h
      rcases found : ctxErr w with ⟨_ | _, w'⟩ <;> rw [found] at look
      · have call := called _ (plugin, policy) (by simp [← whole]) w' pctx look
        dsimp only at call ⊢
        rcases answer : dispatch plugin.name policy .request plugin.onRequest w'
          { pctx with dispatched := pctx.dispatched ++ [front.length] } with
          ⟨_ | action, w'', pctx''⟩ <;> rw [answer] at call
        · exact behind w'' pctx'' call
        · exact stops call inRange
      · exact stops look (Nat.le_of_lt inRange)

end Rules

end Pipeline

end Kagenti.AuthBridge
