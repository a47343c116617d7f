import Kagenti.AuthBridge.Trace
import Kagenti.Lib.Transition

/-!
A request against a pipeline that is reloaded (`pipeline/holder.go`). The request keeps plugin
indices; every phase loads the pipeline anew.
-/

namespace Kagenti.AuthBridge

open Go Lib.Transition

namespace HotSwap

variable {W : Type*} (name : String) (policy : ErrorPolicy) (phase : InvocationPhase)
  (hook : Hook W)

structure Instance (W : Type*) where
  id : Nat
  plugin : Plugin W
  policy : ErrorPolicy

abbrev Chain (W : Type*) := List (Instance W)

structure Calls where
  requested : List (Nat × Bool)
  finished : List Nat
  deriving DecidableEq

namespace Instance

variable (x : Instance W)

def ident : Nat × Bool := (x.id, x.plugin.onFinish.isSome)

def silent (hook : Hook W) : Hook (W × Calls) := fun (w, calls) pctx =>
  let (action, w, pctx) := hook w pctx
  (action, (w, calls), pctx)

def entry : Plugin (W × Calls) × ErrorPolicy :=
  ({ name := x.plugin.name
     capabilities := x.plugin.capabilities
     onRequest := fun (w, calls) pctx =>
       silent x.plugin.onRequest (w, { calls with requested := calls.requested ++ [x.ident] })
         pctx
     onResponse := silent x.plugin.onResponse
     onResponseFrame := x.plugin.onResponseFrame.map fun hook frame last =>
       silent (hook frame last)
     onFinish := x.plugin.onFinish.map fun onFinish (w, calls) pctx =>
       let (w, pctx) := onFinish w pctx
       ((w, { calls with finished := calls.finished ++ [x.id] }), pctx) }, x.policy)

end Instance

def pipeline (p : Chain W) : Pipeline (W × Calls) := p.map Instance.entry

theorem pipeline_reverse (p : Chain W) : pipeline p.reverse = (pipeline p).reverse :=
  List.map_reverse

def identAt (p : Chain W) (i : Nat) : Option (Nat × Bool) := (p[i]?).map Instance.ident

/-- The loop of `RunFinish`, with the panic of an index out of range. -/
def finishLoop (p : Pipeline W) : List Nat → W → Context → (W × Context) × Bool
  | [], w, pctx => ((w, pctx), false)
  | i :: rest, w, pctx =>
    match p[i]? with
    | none => ((w, pctx), true)
    | some (plugin, _) =>
      match plugin.onFinish with
      | none => finishLoop p rest w pctx
      | some onFinish =>
        let (w, pctx) := Pipeline.dispatchFinish onFinish w pctx
        finishLoop p rest w pctx

/-- `RunFinish`, and whether it panics. -/
def runFinish (p : Pipeline W) (outcome : Outcome) (w : W) (pctx : Context) :
    (W × Context) × Bool :=
  if pctx.finished then ((w, pctx), false)
  else
    let pctx := { pctx with finished := true }
    if pctx.dispatched = [] then ((w, pctx), false)
    else
      let ((w, pctx), panicked) :=
        finishLoop p pctx.dispatched.reverse w { pctx with outcome := some outcome }
      ((w, { pctx with outcome := none }), panicked)

structure State (W : Type*) where
  chain : Chain W
  world : W × Calls
  pctx : Context
  ran : Bool
  panicked : Bool

inductive Op (W : Type*) where
  | store (p : Chain W)
  | run
  | runResponse
  | runResponseFrame (frame : Bytes) (last : Bool)
  | runFinish (outcome : Outcome)

def ctxOf (ctxErr : Pipeline.CtxErr W) : Pipeline.CtxErr (W × Calls) := fun (w, calls) =>
  ((ctxErr w).1, (ctxErr w).2, calls)

/-- A listener runs the request phase once, the response phases after it, and nothing
after `RunFinish`. -/
def step (ctxErr : Pipeline.CtxErr W) (s : State W) : Op W → Option (State W)
  | .store p => some { s with chain := p }
  | .run =>
    if s.ran ∨ s.pctx.finished then none
    else
      let out := (pipeline s.chain).run (ctxOf ctxErr) s.world s.pctx
      some { s with world := out.2.1, pctx := out.2.2, ran := true }
  | .runResponse =>
    if s.pctx.finished then none
    else
      let out := (pipeline s.chain).runResponse (ctxOf ctxErr) s.world s.pctx
      some { s with world := out.2.1, pctx := out.2.2 }
  | .runResponseFrame frame last =>
    if s.pctx.finished then none
    else
      let out := (pipeline s.chain).runResponseFrame (ctxOf ctxErr) frame last s.world s.pctx
      some { s with world := out.2.1, pctx := out.2.2 }
  | .runFinish outcome =>
    let out := runFinish (pipeline s.chain) outcome s.world s.pctx
    some { s with
      world := out.1.1, pctx := out.1.2, panicked := s.panicked || out.2 }

def system (ctxErr : Pipeline.CtxErr W) (p : Chain W) (w : W) (pctx : Context) :
    System (State W) (Op W) where
  init := { chain := p, world := (w, ⟨[], []⟩), pctx := pctx, ran := false, panicked := false }
  step := step ctxErr

/-- What no hook can change: the dispatched indices and the mark of `RunFinish`. -/
def Keeps (pctx pctx' : Context) : Prop :=
  pctx'.dispatched = pctx.dispatched ∧ pctx'.finished = pctx.finished

theorem Keeps.refl (pctx : Context) : Keeps pctx pctx := ⟨rfl, rfl⟩

theorem Keeps.trans {a b c : Context} (h : Keeps a b) (h' : Keeps b c) : Keeps a c :=
  ⟨h'.1.trans h.1, h'.2.trans h.2⟩

theorem dispatch_keeps (w : W) (pctx : Context) :
    Keeps pctx (Pipeline.dispatch name policy phase hook w pctx).2.2 :=
  have marks := Pipeline.dispatch_keepsMarks name policy phase hook w pctx
  ⟨marks.dispatched, marks.finished⟩

theorem dispatch_world (w : W) (pctx : Context) :
    (Pipeline.dispatch name policy phase hook w pctx).2.1 =
      (hook w (pctx.setCurrent name phase policy)).2.1 := by
  unfold Pipeline.dispatch
  dsimp only
  split
  · rfl
  · split <;> rfl

theorem dispatch_silent (w : W × Calls) (pctx : Context) :
    (Pipeline.dispatch name policy phase (Instance.silent hook) w pctx).2.1.2 = w.2 := by
  rw [dispatch_world]
  rfl

variable (ctxErr : Pipeline.CtxErr W)

theorem respondIn_calls (p : Chain W) (w : W × Calls) (pctx : Context) :
    let out := Pipeline.respondIn (ctxOf ctxErr) (pipeline p) w pctx
    out.2.1.2 = w.2 ∧ Keeps pctx out.2.2 := by
  refine Pipeline.respondIn_rule (I := fun w' pctx' => w'.2 = w.2 ∧ Keeps pctx pctx')
    ?_ (fun entry member w' pctx' h => ?_) w pctx ⟨rfl, .refl pctx⟩
  · exact fun _ _ h => h
  · obtain ⟨x, -, rfl⟩ := List.mem_map.mp member
    exact ⟨(dispatch_silent _ _ _ _ w' pctx').trans h.1, h.2.trans (dispatch_keeps _ _ _ _ w' pctx')⟩

theorem frameIn_calls (frame : Bytes) (last : Bool) (p : Chain W) (w : W × Calls)
    (pctx : Context) :
    let out := Pipeline.frameIn (ctxOf ctxErr) frame last (pipeline p) w pctx
    out.2.1.2 = w.2 ∧ Keeps pctx out.2.2 := by
  refine Pipeline.frameIn_rule (I := fun w' pctx' => w'.2 = w.2 ∧ Keeps pctx pctx')
    ?_ (fun entry member hook streams w' pctx' h => ?_) w pctx ⟨rfl, .refl pctx⟩
  · exact fun _ _ h => h
  · obtain ⟨x, -, rfl⟩ := List.mem_map.mp member
    obtain ⟨hook, -, rfl⟩ := Option.map_eq_some_iff.mp streams
    exact ⟨(dispatch_silent _ _ _ _ w' pctx').trans h.1, h.2.trans (dispatch_keeps _ _ _ _ w' pctx')⟩

/-- The calls of `OnRequest` are those of the instances at the dispatched indices. -/
def Recorded (p : Chain W) (calls : Calls) (pctx : Context) : Prop :=
  calls.requested.map some = pctx.dispatched.map (identAt p)

theorem run_calls (p : Chain W) (w : W × Calls) (pctx : Context) (hrecorded : Recorded p w.2 pctx) :
    let out := (pipeline p).run (ctxOf ctxErr) w pctx
    Recorded p out.2.1.2 out.2.2 ∧ out.2.1.2.finished = w.2.finished ∧
      out.2.2.finished = pctx.finished := by
  refine Pipeline.run_rule (I := fun _ w' pctx' => Recorded p w'.2 pctx' ∧
      w'.2.finished = w.2.finished ∧ pctx'.finished = pctx.finished)
    (fun _ _ _ => id) ?_ (fun i entry hentry w' pctx' h => ?_) w pctx ⟨hrecorded, rfl, rfl⟩
  · exact fun _ _ _ => id
  obtain ⟨x, hx, rfl⟩ := List.getElem?_map.symm.trans hentry |> Option.map_eq_some_iff.mp
  -- the index and the call are recorded together
  have hkeeps := dispatch_keeps x.entry.1.name x.entry.2 .request x.entry.1.onRequest w'
    { pctx' with dispatched := pctx'.dispatched ++ [i] }
  have hworld := congrArg Prod.snd (dispatch_world x.entry.1.name x.entry.2 .request
    x.entry.1.onRequest w' { pctx' with dispatched := pctx'.dispatched ++ [i] })
  have hident : identAt p i = some x.ident := by simp [identAt, hx]
  refine ⟨?_, (congrArg Calls.finished hworld).trans h.2.1, hkeeps.2.trans h.2.2⟩
  unfold Recorded at h ⊢
  rw [hkeeps.1, List.map_append, ← h.1]
  refine (congrArg (·.requested.map some) hworld).trans ?_
  simp [Instance.entry, Instance.silent, hident]

theorem finishLoop_calls (p : Chain W) {indices : List Nat} {idents : List (Nat × Bool)}
    (h : idents.map some = indices.map (identAt p)) (w : W × Calls) (pctx : Context) :
    let out := finishLoop (pipeline p) indices w pctx
    out.2 = false ∧ out.1.1.2.requested = w.2.requested ∧
      out.1.1.2.finished = w.2.finished ++ (idents.filter Prod.snd).map Prod.fst ∧
      Keeps pctx out.1.2 := by
  induction indices generalizing idents w pctx with
  | nil =>
    obtain rfl : idents = [] := by simpa using h
    exact ⟨rfl, rfl, by simp [finishLoop], .refl pctx⟩
  | cons i rest ih =>
    obtain ⟨ident, idents, rfl, hident, hrest⟩ := List.map_eq_cons_iff.mp h
    obtain ⟨x, hx, rfl⟩ := Option.map_eq_some_iff.mp hident.symm
    have hentry : (pipeline p)[i]? = some x.entry := by simp [pipeline, hx]
    simp only [finishLoop, hentry]
    cases hfinish : x.plugin.onFinish with
    | none =>
      have hnone : x.entry.1.onFinish = none := by simp [Instance.entry, hfinish]
      rw [hnone]
      simpa [Instance.ident, hfinish] using ih hrest w pctx
    | some onFinish =>
      simp only [Instance.entry, hfinish, Option.map_some]
      obtain ⟨hpanic, hreq, hfin, hkeeps⟩ := ih hrest _ _
      refine ⟨hpanic, hreq.trans rfl, ?_, Keeps.trans ⟨rfl, rfl⟩ hkeeps⟩
      rw [hfin]
      simp [Instance.ident, hfinish, Pipeline.dispatchFinish]

/-- The instances that have to be finished: the finishers among those whose `OnRequest` was
called, the last one first. -/
def Calls.due (calls : Calls) : List Nat :=
  ((calls.requested.filter Prod.snd).map Prod.fst).reverse

/-- No index was out of range, and after `RunFinish` the finishers among the instances whose
`OnRequest` was called, and no others, have been finished. -/
def Consistent (s : State W) : Prop :=
  s.panicked = false ∧ (s.pctx.finished = true → s.world.2.finished = s.world.2.due)

/-- The condition on runs: a reload between the request phase and `RunFinish` leaves the
same plugin instances at the positions that the request has dispatched to. -/
def KeepsDispatched (s : State W) : Op W → Prop
  | .store p => s.pctx.finished = true ∨
      ∀ i ∈ s.pctx.dispatched, identAt p i = identAt s.chain i
  | _ => True

structure Inv (s : State W) : Prop where
  panicked : s.panicked = false
  pending : s.pctx.finished = false →
    Recorded s.chain s.world.2 s.pctx ∧ s.world.2.finished = []
  done : s.pctx.finished = true → s.world.2.finished = s.world.2.due

variable {ctxErr} {s s' : State W}

theorem Inv.store (h : Inv s) {p : Chain W} (hguard : KeepsDispatched s (.store p)) :
    Inv { s with chain := p } := by
  refine ⟨h.panicked, ?_, h.done⟩
  intro hpending
  obtain ⟨hrecorded, hnone⟩ := h.pending hpending
  rcases hguard with hdone | hsame
  · rw [hdone] at hpending
    cases hpending
  · refine ⟨?_, hnone⟩
    unfold Recorded at hrecorded ⊢
    rw [hrecorded]
    exact (List.map_congr_left hsame).symm

theorem Inv.respond (h : Inv s) {world : W × Calls} {pctx : Context}
    (hcalls : world.2 = s.world.2) (hkeeps : Keeps s.pctx pctx) :
    Inv { s with world := world, pctx := pctx } := by
  refine ⟨h.panicked, ?_, ?_⟩
  · intro hpending
    obtain ⟨hrecorded, hnone⟩ := h.pending (hkeeps.2 ▸ hpending)
    unfold Recorded at hrecorded ⊢
    rw [hcalls, hkeeps.1]
    exact ⟨hrecorded, hnone⟩
  · intro hdone
    rw [hcalls]
    exact h.done (hkeeps.2 ▸ hdone)

theorem Inv.finish (h : Inv s) (outcome : Outcome) :
    let out := runFinish (pipeline s.chain) outcome s.world s.pctx
    Inv { s with world := out.1.1, pctx := out.1.2, panicked := s.panicked || out.2 } := by
  fun_cases runFinish with
  | case1 => exact ⟨by simpa using h.panicked, h.pending, h.done⟩
  | case2 hfinished pctx hempty =>
    obtain ⟨hrecorded, hnone⟩ := h.pending (by simpa using hfinished)
    have hrequested : s.world.2.requested = [] := by
      simpa [Recorded, show s.pctx.dispatched = [] from hempty] using hrecorded
    refine ⟨by simpa using h.panicked, nofun, fun _ => ?_⟩
    dsimp only
    rw [hnone, Calls.due, hrequested]
    rfl
  | case3 hfinished pctx hsome w pctx' panicked hloop =>
    -- the loop runs over the dispatched indices from the last to the first
    obtain ⟨hrecorded, hnone⟩ := h.pending (by simpa using hfinished)
    have hreverse : s.world.2.requested.reverse.map some =
        s.pctx.dispatched.reverse.map (identAt s.chain) := by
      rw [List.map_reverse, List.map_reverse, hrecorded]
    have hcalls := finishLoop_calls s.chain hreverse s.world { pctx with outcome := some outcome }
    rw [hloop] at hcalls
    obtain ⟨hpanic, hreq, hfin, hkeeps⟩ := hcalls
    refine ⟨Bool.or_eq_false_iff.mpr ⟨h.panicked, hpanic⟩, fun hpending => ?_, fun _ => ?_⟩
    · cases hkeeps.2.symm.trans hpending
    · rw [Calls.due, hreq, hfin, hnone]
      simp [List.filter_reverse, List.map_reverse]

theorem inv_step (h : Inv s) (op : Op W) (hguard : KeepsDispatched s op)
    (hstep : step ctxErr s op = some s') : Inv s' := by
  revert hstep
  fun_cases step ctxErr s op <;> rintro ⟨⟩
  case case1 => exact h.store hguard
  case case3 hpending _ =>
    have hpending : s.pctx.finished = false := by simpa using (not_or.mp hpending).2
    obtain ⟨hrecorded, hnone⟩ := h.pending hpending
    obtain ⟨hrec, hfin, hmark⟩ :=
      run_calls ctxErr s.chain s.world s.pctx hrecorded
    refine ⟨h.panicked, fun _ => ⟨hrec, hfin.trans hnone⟩, fun hdone => ?_⟩
    dsimp only at hdone
    cases hpending.symm.trans (hmark.symm.trans hdone)
  case case5 =>
    obtain ⟨hcalls, hkeeps⟩ := respondIn_calls ctxErr s.chain.reverse s.world s.pctx
    rw [pipeline_reverse] at hcalls hkeeps
    exact h.respond hcalls hkeeps
  case case7 frame last _ _ =>
    obtain ⟨hcalls, hkeeps⟩ := frameIn_calls ctxErr frame last s.chain.reverse s.world s.pctx
    rw [pipeline_reverse] at hcalls hkeeps
    exact h.respond hcalls hkeeps
  case case8 outcome _ => exact h.finish outcome

/-- In every run of reloads and phases of one request in which a reload during the request
keeps the dispatched positions, `OnFinish` is called on exactly the instances it is due
on, and no index is out of range. -/
theorem finish_consistent (ctxErr : Pipeline.CtxErr W) (p : Chain W) (w : W) (pctx : Context)
    (hfresh : pctx.dispatched = [] ∧ pctx.finished = false) (s : State W)
    (h : (system ctxErr p w pctx).Reachable KeepsDispatched s) : Consistent s := by
  have hinit : Inv (system ctxErr p w pctx).init := by
    refine ⟨rfl, fun _ => ⟨?_, rfl⟩, fun hdone => ?_⟩
    · simp [Recorded, system, hfresh.1]
    · have hpending : pctx.finished = true := hdone
      rw [hfresh.2] at hpending
      cases hpending
  have hs : Inv s := h.invariant (I := Inv) hinit fun _ op _ hinv hguard hstep =>
    inv_step hinv op hguard hstep
  exact ⟨hs.panicked, hs.done⟩

instance (s : State W) : DecidablePred (KeepsDispatched s)
  | .store _ => inferInstanceAs (Decidable (_ ∨ ∀ i ∈ _, _))
  | .run | .runResponse | .runResponseFrame _ _ | .runFinish _ => isTrue trivial

/-- A rate limiter that takes a slot in `OnRequest` and frees it in `OnFinish`, reduced to
its calls. -/
def rateLimiter (id : Nat) : Instance Unit where
  id := id
  plugin :=
    { name := "rate-limiter"
      capabilities := ⟨false, false, [], []⟩
      onRequest := fun w pctx => (.cont, w, pctx)
      onResponse := fun w pctx => (.cont, w, pctx)
      onFinish := some fun w pctx => (w, pctx) }
  policy := .enforce

def exampleRequest : Context :=
  Context.ofRequest .outbound "GET" "http" "tool" (bytes "/") ∅ []

def exampleOutcome : Outcome := ⟨.allow, 200, ""⟩

def alive : Pipeline.CtxErr Unit := fun w => (false, w)

def appendedRun : List (Op Unit) :=
  [.store [rateLimiter 1], .run, .store [rateLimiter 1, rateLimiter 2], .runResponse,
    .runFinish exampleOutcome]

/-- Reloads before the request and during it, the second of which appends a plugin. -/
theorem finish_consistent_appended :
    ∃ s, (system alive [rateLimiter 0] () exampleRequest).run KeepsDispatched appendedRun =
        some s ∧ s.pctx.finished = true ∧ Consistent s := by
  obtain ⟨s, hrun, hfinished⟩ : ∃ s ∈ (system alive [rateLimiter 0] () exampleRequest).run
      KeepsDispatched appendedRun, s.pctx.finished = true := by
    decide +kernel
  exact ⟨s, hrun, hfinished, finish_consistent alive [rateLimiter 0] () exampleRequest
    ⟨rfl, rfl⟩ s (System.reachable_of_run appendedRun hrun)⟩

def reloadedRun (p : Chain Unit) : List (Op Unit) :=
  [.run, .store p, .runFinish exampleOutcome]

/-- After a reload with new instances, the old one is never finished and a new one is; after
a reload that removes the plugin, `RunFinish` panics. -/
theorem finish_lost_after_reload :
    (∃ s, (system alive [rateLimiter 0] () exampleRequest).Reachable System.anyAction s ∧
      s.pctx.finished = true ∧ s.world.2 = ⟨[(0, true)], [1]⟩) ∧
    (∃ s, (system alive [rateLimiter 0] () exampleRequest).Reachable System.anyAction s ∧
      s.panicked = true) := by
  constructor
  · exact System.exists_reachable_of_run (reloadedRun [rateLimiter 1]) (by decide +kernel)
  · exact System.exists_reachable_of_run (reloadedRun []) (by decide +kernel)

end HotSwap

end Kagenti.AuthBridge
