import Kagenti.AuthBridge.Shadow
import Kagenti.AuthBridge.Trace
import Kagenti.Go.Defer
import Kagenti.Lib.Transition

/-!
The finish hook of one request (`RunFinish` and `dispatchFinish` in `pipeline/pipeline.go`).
`OnFinish` may panic, which is recovered for each plugin alone. The pipeline stays the same.
-/

namespace Kagenti.AuthBridge

open Go Lib.Transition

namespace Finish

variable {W : Type*}

/-- For the plugin at each position, whether its `OnFinish` panics, after what it does to its
state and the context. -/
abbrev Panics (W : Type*) := Nat → W → Context → Bool

section RunFinish

variable (panics : Panics W) (p : Pipeline W)

def dispatchFinish (i : Nat) (onFinish : W → Context → W × Context) (w : W) (pctx : Context) :
    Ended (W × Context) :=
  let during := { pctx with inFinish := true }
  let (left, after) := onFinish w during
  let onFinish : Ended (W × Context) := ⟨(left, during.keepPrivate after), panics i w during⟩
  (onFinish.deferred fun (w, pctx) => (w, { pctx with inFinish := false })).recovered

/-- The loop of `RunFinish`. An index out of range panics in the loop itself. -/
def finishLoop : List Nat → W → Context → Ended (W × Context)
  | [], w, pctx => .returned (w, pctx)
  | i :: rest, w, pctx =>
    match p[i]? with
    | none => ⟨(w, pctx), true⟩
    | some (plugin, _) =>
      match plugin.onFinish with
      | none => finishLoop rest w pctx
      | some onFinish =>
        (dispatchFinish panics i onFinish w pctx).andThen fun (w, pctx) =>
          finishLoop rest w pctx

def runFinish (outcome : Outcome) (w : W) (pctx : Context) : Ended (W × Context) :=
  if pctx.finished then .returned (w, pctx)
  else
    let pctx := { pctx with finished := true }
    if pctx.dispatched = [] then .returned (w, pctx)
    else
      (finishLoop panics p pctx.dispatched.reverse w
        { pctx with outcome := some outcome }).deferred fun (w, pctx) =>
          (w, { pctx with outcome := none })

variable {p}

theorem finishLoop_eq {indices : List Nat} (h : ∀ i ∈ indices, i < p.length) (w : W)
    (pctx : Context) :
    finishLoop panics p indices w pctx = .returned (Pipeline.finishIn p indices w pctx) := by
  induction indices generalizing w pctx with
  | nil => rfl
  | cons i rest ih =>
    have inRange := h i List.mem_cons_self
    have rest_eq := ih fun j member => h j (List.mem_cons_of_mem i member)
    simp only [finishLoop, Pipeline.finishIn, List.getElem?_eq_getElem inRange, Option.bind_some]
    cases (p[i]).1.onFinish with
    | none => exact rest_eq w pctx
    | some onFinish => exact rest_eq _ _

theorem runFinish_eq {pctx : Context} (h : ∀ i ∈ pctx.dispatched, i < p.length)
    (outcome : Outcome) (w : W) :
    runFinish panics p outcome w pctx = .returned (p.runFinish outcome w pctx) := by
  unfold runFinish Pipeline.runFinish
  split
  · rfl
  · dsimp only
    split
    · rfl
    · rw [finishLoop_eq panics fun i member => h i (List.mem_reverse.mp member)]
      rfl

end RunFinish

structure State (W : Type*) where
  world : W × Trace
  pctx : Context
  ran : Bool
  panicked : Bool

inductive Op where
  | write (fields : Context)
  | run
  | runResponse
  | runResponseFrame (frame : Bytes) (last : Bool)
  | runFinish (outcome : Outcome)

/-- A listener runs the request phase once, before `RunFinish`. It writes exported fields of
the context, runs response phases and calls `RunFinish` as often as it likes. -/
def step (ctxErr : Pipeline.CtxErr W) (panics : Panics W) (p : Pipeline W) (s : State W) :
    Op → Option (State W)
  | .write fields => some { s with pctx := s.pctx.keepPrivate fields }
  | .run =>
    if s.ran ∨ s.pctx.finished then none
    else
      let out := p.traced.run ctxErr.traced s.world s.pctx
      some { s with world := out.2.1, pctx := out.2.2, ran := true }
  | .runResponse =>
    let out := p.traced.runResponse ctxErr.traced s.world s.pctx
    some { s with world := out.2.1, pctx := out.2.2 }
  | .runResponseFrame frame last =>
    let out := p.traced.runResponseFrame ctxErr.traced frame last s.world s.pctx
    some { s with world := out.2.1, pctx := out.2.2 }
  | .runFinish outcome =>
    let out := runFinish (fun i w => panics i w.1) p.traced outcome s.world s.pctx
    some { s with
      world := out.state.1, pctx := out.state.2, panicked := s.panicked || out.panicking }

def system (ctxErr : Pipeline.CtxErr W) (panics : Panics W) (p : Pipeline W) (w : W)
    (pctx : Context) : System (State W) Op where
  init := { world := (w, []), pctx := pctx, ran := false, panicked := false }
  step := step ctxErr panics p

def callsOf (kind : CallKind) (trace : Trace) : List Nat :=
  (trace.filter fun call => call.kind = kind).map Call.index

def isFinisher (p : Pipeline W) (i : Nat) : Bool :=
  (p[i]?).any fun (plugin, _) => plugin.onFinish.isSome

/-- The finishers among the plugins whose `OnRequest` was called, the last one first. -/
def due (p : Pipeline W) (trace : Trace) : List Nat :=
  ((callsOf .request trace).filter (isFinisher p)).reverse

/-- What the finish hook promises about a request in a state of it. -/
structure Contract (ctxErr : Pipeline.CtxErr W) (panics : Panics W) (p : Pipeline W)
    (s : State W) : Prop where
  /-- No panic of a plugin leaves `RunFinish`. -/
  recovered : s.panicked = false
  /-- No plugin is called twice with the request. -/
  requestedOnce : (callsOf .request s.world.2).Nodup
  /-- `RunFinish` has called those plugins that it is due on, each once and in reverse order. -/
  finishes : callsOf .finish s.world.2 = if s.pctx.finished then due p s.world.2 else []
  /-- A first `RunFinish` finishes the request, a further one does nothing. -/
  again : ∀ outcome, ∃ s', step ctxErr panics p s (.runFinish outcome) = some s' ∧
    s'.pctx.finished = true ∧ (s.pctx.finished = true → s' = s)
  /-- Nothing that a plugin calls on the context while it finishes has an effect, whatever
  it has made of the exported fields. -/
  frozen : ∀ call ∈ s.world.2, call.kind = .finish → ∀ fields contextCall,
    (call.seen.keepPrivate fields).call contextCall = call.seen.keepPrivate fields
  /-- The plugins find an outcome while they finish, and at no other time. -/
  outcomeSeen : ∀ call ∈ s.world.2, call.seen.outcome.isSome = true ↔ call.kind = .finish
  /-- Between the phases there is none. -/
  outcomeCleared : s.pctx.outcome = none

structure Proper (call : Call) : Prop where
  outcome : call.seen.outcome.isSome = decide (call.kind = .finish)
  inFinish : call.seen.inFinish = decide (call.kind = .finish)

@[simp] theorem callsOf_concat (kind : CallKind) (trace : Trace) (call : Call) :
    callsOf kind (trace ++ [call]) =
      callsOf kind trace ++ if call.kind = kind then [call.index] else [] := by
  unfold callsOf
  rw [List.filter_append, List.map_append]
  split <;> simp [*]

variable {trace : Trace}

theorem proper_concat {new : Call} (h : ∀ call ∈ trace, Proper call) (hnew : Proper new) :
    ∀ call ∈ trace ++ [new], Proper call :=
  List.forall_mem_append.mpr ⟨h, List.forall_mem_singleton.mpr hnew⟩

variable {pctx : Context}

theorem call_eq_of_inFinish (h : pctx.inFinish = true) (contextCall : ContextCall) :
    pctx.call contextCall = pctx := by
  cases contextCall <;>
    simp [Context.call, Context.allow, Context.skip, Context.observe, Context.modify,
      Context.record, Context.recordInvocation, Context.setBody, Context.setResponseBody, h]

structure Between (trace : Trace) (pctx : Context) : Prop where
  requested : callsOf .request trace = pctx.dispatched
  ordered : pctx.dispatched.Pairwise (· < ·)
  proper : ∀ call ∈ trace, Proper call
  outcome : pctx.outcome = none
  inFinish : pctx.inFinish = false

variable {kind : CallKind}

theorem Between.proper_call (h : Between trace pctx) (hkind : kind ≠ .finish) (i : Nat)
    (name : String) (phase : InvocationPhase) (policy : ErrorPolicy) :
    Proper ⟨kind, i, pctx.setCurrent name phase policy⟩ where
  outcome := by simp [Context.setCurrent, h.outcome, hkind]
  inFinish := by simp [Context.setCurrent, h.inFinish, hkind]

variable (ctxErr : Pipeline.CtxErr W)

structure Responds (trace₀ trace : Trace) (pctx₀ pctx : Context) : Prop where
  between : Between trace pctx
  finish : callsOf .finish trace = callsOf .finish trace₀
  dispatched : pctx.dispatched = pctx₀.dispatched
  finished : pctx.finished = pctx₀.finished

theorem Responds.dispatch {trace₀ : Trace} {pctx₀ : Context} (h : Responds trace₀ trace pctx₀ pctx)
    (hrequest : kind ≠ .request) (hfinish : kind ≠ .finish) (i : Nat) (name : String)
    (policy : ErrorPolicy) (hook : Hook W) (w : W) :
    let out := Pipeline.dispatch name policy .response (hook.traced kind i) (w, trace) pctx
    Responds trace₀ out.2.1.2 pctx₀ out.2.2 := by
  intro out
  have marks := Pipeline.dispatch_keepsMarks name policy .response hook w pctx
  have eq : out = _ := Pipeline.dispatch_traced name policy .response kind i hook w trace pctx
  rw [eq]
  refine ⟨⟨?_, ?_, ?_, ?_, ?_⟩, ?_, ?_, ?_⟩
  · rw [callsOf_concat, if_neg hrequest, List.append_nil, marks.dispatched]
    exact h.between.requested
  · rw [marks.dispatched]
    exact h.between.ordered
  · exact proper_concat h.between.proper
      (h.between.proper_call hfinish i name .response policy)
  · exact marks.outcome.trans h.between.outcome
  · exact marks.inFinish.trans h.between.inFinish
  · rw [callsOf_concat, if_neg hfinish, List.append_nil]
    exact h.finish
  · exact marks.dispatched.trans h.dispatched
  · exact marks.finished.trans h.finished

variable {w : W × Trace}

theorem runResponse_responds (p : Pipeline W) (h : Between w.2 pctx) :
    let out := p.traced.runResponse ctxErr.traced w pctx
    Responds w.2 out.2.1.2 pctx out.2.2 := by
  refine Pipeline.respondIn_rule (I := fun w' => Responds w.2 w'.2 pctx) ?_ ?_ w pctx
    ⟨h, rfl, rfl, rfl⟩
  · exact fun _ _ => id
  intro entry member w' pctx' responds
  obtain ⟨plugin, i, traced⟩ := Pipeline.exists_of_mem_traced (List.mem_reverse.mp member)
  rw [traced]
  exact responds.dispatch (by decide) (by decide) i _ _ _ _

theorem runResponseFrame_responds (p : Pipeline W) (frame : Bytes) (last : Bool)
    (h : Between w.2 pctx) : let out := p.traced.runResponseFrame ctxErr.traced frame last w pctx
    Responds w.2 out.2.1.2 pctx out.2.2 := by
  refine Pipeline.frameIn_rule (I := fun w' => Responds w.2 w'.2 pctx) ?_ ?_ w pctx
    ⟨h, rfl, rfl, rfl⟩
  · exact fun _ _ => id
  intro entry member hook streams w' pctx' responds
  obtain ⟨plugin, i, traced⟩ := Pipeline.exists_of_mem_traced (List.mem_reverse.mp member)
  rw [traced] at streams ⊢
  obtain ⟨plain, -, rfl⟩ := Option.map_eq_some_iff.mp streams
  exact responds.dispatch (by simp) (by simp) i _ _ _ _

structure Requests (trace₀ : Trace) (pctx₀ : Context) (n : Nat) (trace : Trace)
    (pctx : Context) : Prop where
  between : Between trace pctx
  finish : callsOf .finish trace = callsOf .finish trace₀
  finished : pctx.finished = pctx₀.finished
  below : ∀ j ∈ pctx.dispatched, j < n

namespace Requests

variable {trace₀ trace : Trace} {pctx₀ pctx : Context} {n : Nat}

theorem mono (h : Requests trace₀ pctx₀ n trace pctx) {m : Nat} (le : n ≤ m) :
    Requests trace₀ pctx₀ m trace pctx where
  between := h.between
  finish := h.finish
  finished := h.finished
  below j member := Nat.lt_of_lt_of_le (h.below j member) le

variable {w : W × Trace}

theorem dispatch (h : Requests trace₀ pctx₀ n w.2 pctx) (name : String) (policy : ErrorPolicy)
    (hook : Hook W) :
    let out := Pipeline.dispatch name policy .request (hook.traced .request n) w
      { pctx with dispatched := pctx.dispatched ++ [n] }
    Requests trace₀ pctx₀ (n + 1) out.2.1.2 out.2.2 := by
  intro out
  let stamped : Context := { pctx with dispatched := pctx.dispatched ++ [n] }
  have eq : out = _ :=
    Pipeline.dispatch_traced name policy .request .request n hook w.1 w.2 stamped
  have marks := Pipeline.dispatch_keepsMarks name policy .request hook w.1 stamped
  rw [eq]
  refine ⟨⟨?_, ?_, ?_, ?_, ?_⟩, ?_, ?_, ?_⟩
  · rw [callsOf_concat, if_pos rfl, marks.dispatched, h.between.requested]
  · rw [marks.dispatched]
    refine List.pairwise_append.mpr ⟨h.between.ordered, List.pairwise_singleton _ _, ?_⟩
    intro j member k last
    rw [List.mem_singleton.mp last]
    exact h.below j member
  · refine proper_concat h.between.proper ⟨?_, ?_⟩
    · simp [stamped, Context.setCurrent, h.between.outcome]
    · simp [stamped, Context.setCurrent, h.between.inFinish]
  · exact marks.outcome.trans h.between.outcome
  · exact marks.inFinish.trans h.between.inFinish
  · rw [callsOf_concat, if_neg (by simp), List.append_nil]
    exact h.finish
  · exact marks.finished.trans h.finished
  · rw [marks.dispatched]
    exact List.forall_mem_append.mpr ⟨fun j before => Nat.lt_succ_of_lt (h.below j before),
      List.forall_mem_singleton.mpr (Nat.lt_succ_self n)⟩

theorem run (p : Pipeline W) (h : Requests trace₀ pctx₀ 0 w.2 pctx) :
    let out := p.traced.run ctxErr.traced w pctx
    Requests trace₀ pctx₀ p.length out.2.1.2 out.2.2 := by
  rw [← p.length_traced]
  refine Pipeline.run_rule (I := fun i (w' : W × Trace) => Requests trace₀ pctx₀ i w'.2)
    (fun i _ _ h => h.mono (Nat.le_succ i)) ?_ (fun i entry found w' pctx' h => ?_) w pctx h
  · exact fun _ _ _ => id
  rw [Pipeline.getElem?_traced] at found
  obtain ⟨⟨plugin, policy⟩, -, rfl⟩ := Option.map_eq_some_iff.mp found
  exact h.dispatch plugin.name policy plugin.onRequest

end Requests

theorem finishIn_calls {p : Pipeline W} {indices : List Nat} (inRange : ∀ i ∈ indices, i < p.length)
    (w : W × Trace) (pctx : Context) (proper : ∀ call ∈ w.2, Proper call)
    (outcome : pctx.outcome.isSome = true) (inFinish : pctx.inFinish = false) :
    let out := Pipeline.finishIn p.traced indices w pctx
    callsOf .finish out.1.2 = callsOf .finish w.2 ++ indices.filter (isFinisher p) ∧
      callsOf .request out.1.2 = callsOf .request w.2 ∧ (∀ call ∈ out.1.2, Proper call) ∧
      Pipeline.KeepsMarks pctx out.2 := by
  induction indices generalizing w pctx with
  | nil => exact ⟨by simp [Pipeline.finishIn], rfl, proper, rfl, rfl, rfl, rfl⟩
  | cons i rest ih =>
    obtain ⟨at_i, in_rest⟩ := List.forall_mem_cons.mp inRange
    have entry : p.traced[i]? = some ((p[i]).1.traced i, (p[i]).2) := by
      rw [Pipeline.getElem?_traced, List.getElem?_eq_getElem at_i]
      rfl
    have finisher : isFinisher p i = (p[i]).1.onFinish.isSome := by
      simp [isFinisher, List.getElem?_eq_getElem at_i]
    simp only [Pipeline.finishIn, entry, Option.bind_some]
    cases found : (p[i]).1.onFinish with
    | none =>
      have none_traced : ((p[i]).1.traced i).onFinish = none := by
        simp [Plugin.traced, found]
      rw [none_traced, List.filter_cons_of_neg (by simp [finisher, found])]
      exact ih in_rest w pctx proper outcome inFinish
    | some onFinish =>
      have some_traced : ((p[i]).1.traced i).onFinish = some fun w pctx =>
          (((onFinish w.1 pctx).1, w.2 ++ [⟨.finish, i, pctx⟩]), (onFinish w.1 pctx).2) := by
        simp [Plugin.traced, found]
      rw [some_traced, List.filter_cons_of_pos (by simp [finisher, found])]
      let during : Context := { pctx with inFinish := true }
      have call : Proper ⟨.finish, i, during⟩ := ⟨by simpa using outcome, by simp [during]⟩
      obtain ⟨finish, request, calls, marks⟩ := ih in_rest
        ((onFinish w.1 during).1, w.2 ++ [⟨.finish, i, during⟩])
        { during.keepPrivate (onFinish w.1 during).2 with inFinish := false }
        (proper_concat proper call) outcome rfl
      refine ⟨finish.trans ?_, request.trans ?_, calls, marks.dispatched, marks.finished,
        marks.outcome, marks.inFinish.trans inFinish.symm⟩
      · rw [callsOf_concat, if_pos rfl, List.append_assoc, List.singleton_append]
      · rw [callsOf_concat, if_neg (by simp), List.append_nil]

structure Inv (p : Pipeline W) (s : State W) : Prop where
  between : Between s.world.2 s.pctx
  recovered : s.panicked = false
  inRange : ∀ i ∈ s.pctx.dispatched, i < p.length
  pending : s.ran = false → s.pctx.dispatched = []
  finishes : callsOf .finish s.world.2 = if s.pctx.finished then due p s.world.2 else []

variable {ctxErr} {panics : Panics W} {p : Pipeline W} {s s' : State W}

section

variable (h : Inv p s)

include h

theorem Inv.write (fields : Context) : Inv p { s with pctx := s.pctx.keepPrivate fields } where
  between := ⟨h.between.requested, h.between.ordered, h.between.proper, h.between.outcome,
    h.between.inFinish⟩
  recovered := h.recovered
  inRange := h.inRange
  pending := h.pending
  finishes := h.finishes

theorem Inv.respond {world : W × Trace} (responds : Responds s.world.2 world.2 s.pctx pctx) :
    Inv p { s with world := world, pctx := pctx } where
  between := responds.between
  recovered := h.recovered
  inRange := by
    intro i member
    exact h.inRange i (responds.dispatched ▸ member)
  pending := fun ran => responds.dispatched.trans (h.pending ran)
  finishes := by
    have requested : callsOf .request world.2 = callsOf .request s.world.2 := by
      rw [responds.between.requested, h.between.requested, responds.dispatched]
    dsimp only [due]
    rw [responds.finish, responds.finished, requested]
    exact h.finishes

theorem Inv.run (ran : s.ran = false) (finished : s.pctx.finished = false) :
    let out := p.traced.run ctxErr.traced s.world s.pctx
    Inv p { s with world := out.2.1, pctx := out.2.2, ran := true } := by
  intro out
  have start : Requests s.world.2 s.pctx 0 s.world.2 s.pctx :=
    ⟨h.between, rfl, rfl, by simp [h.pending ran]⟩
  have requests : Requests s.world.2 s.pctx p.length out.2.1.2 out.2.2 := start.run ctxErr p
  refine ⟨requests.between, h.recovered, ?_, fun notRan => (by cases notRan), ?_⟩
  · exact requests.below
  · have none_yet := h.finishes
    rw [finished] at none_yet
    rw [requests.finished, finished]
    exact requests.finish.trans none_yet

theorem Inv.finish (outcome : Outcome) :
    let out := Pipeline.runFinish p.traced outcome s.world s.pctx
    Inv p { s with world := out.1, pctx := out.2 } := by
  have none_yet := h.finishes
  fun_cases Pipeline.runFinish with
  | case1 => exact h
  | case2 finished pctx empty =>
    rw [if_neg finished] at none_yet
    refine ⟨⟨h.between.requested, h.between.ordered, h.between.proper, h.between.outcome,
      h.between.inFinish⟩, h.recovered, h.inRange, h.pending, ?_⟩
    simpa [due, h.between.requested, show s.pctx.dispatched = [] from empty] using none_yet
  | case3 finished pctx filled w pctx' looped =>
    -- the loop runs over the dispatched indices from the last to the first
    rw [if_neg finished] at none_yet
    have calls := finishIn_calls
      (fun i member => h.inRange i (List.mem_reverse.mp member)) s.world
      { pctx with outcome := some outcome } h.between.proper rfl h.between.inFinish
    rw [looped] at calls
    obtain ⟨finish, request, proper, marks⟩ := calls
    refine ⟨⟨?_, ?_, proper, rfl, ?_⟩, h.recovered, ?_, ?_, ?_⟩
    · exact request.trans (h.between.requested.trans marks.dispatched.symm)
    · rw [marks.dispatched]
      exact h.between.ordered
    · exact marks.inFinish.trans h.between.inFinish
    · rw [marks.dispatched]
      exact h.inRange
    · exact fun ran => marks.dispatched.trans (h.pending ran)
    · rw [marks.finished, finish, none_yet]
      simp [pctx, due, request, h.between.requested, List.filter_reverse]

theorem step_runFinish (outcome : Outcome) :
    step ctxErr panics p s (.runFinish outcome) =
      let out := Pipeline.runFinish p.traced outcome s.world s.pctx
      some { s with world := out.1, pctx := out.2 } := by
  have inRange : ∀ i ∈ s.pctx.dispatched, i < p.traced.length := by
    rw [p.length_traced]
    exact h.inRange
  unfold step
  dsimp only
  rw [runFinish_eq _ inRange]
  simp [Ended.returned]

theorem inv_step (op : Op) (taken : step ctxErr panics p s op = some s') : Inv p s' := by
  cases op with
  | write fields =>
    cases taken
    exact h.write fields
  | run =>
    obtain ⟨fresh, ⟨⟩⟩ := Option.ite_none_left_eq_some.mp taken
    obtain ⟨ran, finished⟩ := not_or.mp fresh
    exact h.run (by simpa using ran) (by simpa using finished)
  | runResponse =>
    cases taken
    exact h.respond (runResponse_responds ctxErr p h.between)
  | runResponseFrame frame last =>
    cases taken
    exact h.respond (runResponseFrame_responds ctxErr p frame last h.between)
  | runFinish outcome =>
    rw [step_runFinish h] at taken
    cases taken
    exact h.finish outcome

end

theorem runFinish_finished (p : Pipeline W) (outcome : Outcome) (w : W) (pctx : Context) :
    (p.runFinish outcome w pctx).2.finished = true := by
  have kept (indices : List Nat) (w : W) (pctx : Context) :
      (p.finishIn indices w pctx).2.finished = pctx.finished := by
    induction indices generalizing w pctx with
    | nil => rfl
    | cons i rest ih =>
      unfold Pipeline.finishIn
      split
      · exact ih w pctx
      · exact (ih _ _).trans rfl
  unfold Pipeline.runFinish
  split
  · assumption
  · dsimp only
    split
    · rfl
    · exact (kept _ _ _).trans rfl

/-- In every run of the phases of one request, for every pipeline, whatever rejects or
cancels it and whichever plugins panic, the finish hook keeps its contract. -/
theorem finish_contract (ctxErr : Pipeline.CtxErr W) (panics : Panics W) (p : Pipeline W) (w : W)
    (pctx : Context)
    (fresh : pctx.dispatched = [] ∧ pctx.finished = false ∧ pctx.outcome = none ∧
      pctx.inFinish = false)
    (s : State W) (h : (system ctxErr panics p w pctx).Reachable System.anyAction s) :
    Contract ctxErr panics p s := by
  obtain ⟨dispatched, finished, outcome, inFinish⟩ := fresh
  have init : Inv p (system ctxErr panics p w pctx).init := by
    refine ⟨⟨?_, ?_, ?_, outcome, inFinish⟩, rfl, ?_, fun _ => dispatched, ?_⟩
    · simp [system, callsOf, dispatched]
    · simp [system, dispatched]
    · simp [system]
    · simp [system, dispatched]
    · simp [system, callsOf, finished]
  have inv : Inv p s := h.invariant (I := Inv p) init fun _ op _ inv _ taken =>
    inv_step inv op taken
  refine ⟨inv.recovered, ?_, inv.finishes, ?_, ?_, ?_, inv.between.outcome⟩
  · rw [inv.between.requested]
    exact inv.between.ordered.imp Nat.ne_of_lt
  · intro outcome
    refine ⟨_, step_runFinish inv outcome, runFinish_finished _ _ _ _, ?_⟩
    intro finished
    simp [Pipeline.runFinish, finished]
  · intro call member finish fields contextCall
    have during : call.seen.inFinish = true := by
      rw [(inv.between.proper call member).inFinish, finish]
      rfl
    have kept : (call.seen.keepPrivate fields).inFinish = true := during
    exact call_eq_of_inFinish kept contextCall
  · intro call member
    simp [(inv.between.proper call member).outcome]

def finisher (name : String) (answer : Action) : Plugin Unit where
  name := name
  capabilities := ⟨false, false, [], []⟩
  onRequest := fun w pctx => (answer, w, pctx)
  onResponse := fun w pctx => (.cont, w, pctx)
  onFinish := some fun w pctx => (w, pctx.modify "released")

def finishers : Pipeline Unit :=
  [(finisher "rate-limiter" .cont, .enforce), (finisher "audit" .cont, .off),
    (finisher "quota" (.deny "quota" "used up"), .enforce), (finisher "lease" .cont, .enforce)]

def agentRequest : Context := Context.ofRequest .outbound "GET" "http" "tool" (bytes "/") ∅ []

/-- The request is rejected, and the plugin that finishes first panics. -/
theorem finish_contract_rejected :
    ∃ s, (system (fun w => (false, w)) (fun i _ _ => i == 2) finishers () agentRequest).run
        System.anyAction [.run, .runFinish ⟨.deny, 0, "quota"⟩, .runFinish ⟨.allow, 200, ""⟩] =
          some s ∧
      callsOf .finish s.world.2 = [2, 0] ∧
      Contract (fun w => (false, w)) (fun i _ _ => i == 2) finishers s := by
  obtain ⟨s, ran, calls⟩ : ∃ s ∈ (system (fun w => (false, w)) (fun i _ _ => i == 2) finishers ()
      agentRequest).run System.anyAction
        [.run, .runFinish ⟨.deny, 0, "quota"⟩, .runFinish ⟨.allow, 200, ""⟩],
      callsOf .finish s.world.2 = [2, 0] := by
    decide +kernel
  exact ⟨s, ran, calls, finish_contract _ _ finishers () agentRequest
    ⟨rfl, rfl, rfl, rfl⟩ s (System.reachable_of_run _ ran)⟩

end Finish

end Kagenti.AuthBridge
