import Kagenti.AuthBridge.Context

/-!
Plugins and the pipeline that dispatches to them (`pipeline/plugin.go`, `pipeline/pipeline.go`).
What plugins share outside of the request context is one state of type `W`. Logging and timeouts are
left out.
-/

namespace Kagenti.AuthBridge

open Go

structure Capabilities where
  readsBody : Bool
  writesBody : Bool
  requires : List String
  requiresAny : List String
  deriving DecidableEq

def Capabilities.normalize (c : Capabilities) : Capabilities :=
  { c with readsBody := c.readsBody || c.writesBody }

abbrev Hook (W : Type*) := W → Context → Action × W × Context

/-- A plugin. The methods of the optional interfaces it does not implement are `none`. -/
structure Plugin (W : Type*) where
  name : String
  capabilities : Capabilities
  onRequest : Hook W
  onResponse : Hook W
  onResponseFrame : Option (Bytes → Bool → Hook W) := none
  init : Option (W → Option String × W) := none
  shutdown : Option (W → Option String × W) := none
  onFinish : Option (W → Context → W × Context) := none
  ready : Option (W → Bool × W) := none
  rawConfig : Option Bytes := none

abbrev Pipeline (W : Type*) := List (Plugin W × ErrorPolicy)

namespace Context

variable (pctx : Context)

def setCurrent (name : String) (phase : InvocationPhase) (policy : ErrorPolicy) : Context :=
  { pctx with currentPlugin := name, currentPhase := phase, currentPolicy := policy }

def clearCurrent : Context :=
  { pctx with currentPlugin := "", currentPhase := .unset, currentPolicy := .enforce }

/-- A plugin has no access to the unexported fields, apart from the flags that `SetBody`
and `SetResponseBody` raise. -/
def keepPrivate (before after : Context) : Context :=
  { after with
    currentPlugin := before.currentPlugin
    currentPhase := before.currentPhase
    currentPolicy := before.currentPolicy
    dispatched := before.dispatched
    outcome := before.outcome
    rejectingPlugin := before.rejectingPlugin
    inFinish := before.inFinish
    finished := before.finished }

def setRejectingPlugin (name : String) : Context :=
  if pctx.rejectingPlugin = "" then { pctx with rejectingPlugin := name } else pctx

def markLast (plugin : String) (phase : InvocationPhase) : List Invocation → Option (List Invocation)
  | [] => none
  | inv :: rest =>
    match markLast plugin phase rest with
    | some rest => some (inv :: rest)
    | none =>
      if inv.plugin = plugin ∧ inv.phase = phase then some ({ inv with shadow := true } :: rest)
      else none

def markLastInvocationShadow (plugin : String) (phase : InvocationPhase) : Option Context :=
  let invocations := pctx.extensions.invocations
  let withInvocations (invocations : Invocations) : Context :=
    { pctx with extensions := { pctx.extensions with invocations := invocations } }
  match pctx.direction with
  | .inbound =>
    (markLast plugin phase invocations.inbound).map fun list =>
      withInvocations { invocations with inbound := list }
  | .outbound =>
    (markLast plugin phase invocations.outbound).map fun list =>
      withInvocations { invocations with outbound := list }

def markShadow (plugin : String) (phase : InvocationPhase) (violation : Violation) : Context :=
  match pctx.markLastInvocationShadow plugin phase with
  | some marked => marked
  | none =>
    pctx.recordInvocation
      { plugin := plugin
        action := .deny
        phase := phase
        reason := if violation.code = "" then "plugin.unspecified" else violation.code
        path := pctx.path
        details := [("synthesized", "true"), ("would_deny_reason", violation.reason)]
        shadow := true }

theorem markShadow_eq (plugin : String) (phase : InvocationPhase) (violation : Violation) :
    ∃ invocations, pctx.markShadow plugin phase violation =
      { pctx with extensions := { pctx.extensions with invocations := invocations } } := by
  unfold markShadow
  split
  next marked found => grind [markLastInvocationShadow, Option.map_eq_some_iff]
  · exact pctx.recordInvocation_eq _

end Context

def Violation.stamp (name : String) (violation : Option Violation) : Violation :=
  let v : Violation := violation.getD
    { code := "plugin.unspecified", reason := "plugin rejected without violation",
      description := "", status := 0, pluginName := "" }
  { v with pluginName := if v.pluginName = "" then name else v.pluginName }

def cancelled : Action := .deny "pipeline.cancelled" "request cancelled"

namespace Pipeline

variable {W : Type*}

def dispatch (name : String) (policy : ErrorPolicy) (phase : InvocationPhase) (hook : Hook W)
    (w : W) (pctx : Context) : Option Action × W × Context :=
  let stamped := pctx.setCurrent name phase policy
  let (action, w, after) := hook w stamped
  let pctx := (stamped.keepPrivate after).clearCurrent
  match action with
  | .cont => (none, w, pctx)
  | .reject violation =>
    let violation := Violation.stamp name violation
    if policy = .observe then (none, w, pctx.markShadow name phase violation)
    else (some (.reject (some violation)), w, pctx.setRejectingPlugin name)

theorem dispatch_context (name : String) (policy : ErrorPolicy) (phase : InvocationPhase)
    (hook : Hook W) (w : W) (pctx : Context) :
    let stamped := pctx.setCurrent name phase policy
    let after := (stamped.keepPrivate (hook w stamped).2.2).clearCurrent
    ∃ invocations rejectingPlugin, (dispatch name policy phase hook w pctx).2.2 =
      { after with
        extensions := { after.extensions with invocations := invocations }
        rejectingPlugin := rejectingPlugin } := by
  intro stamped after
  unfold dispatch
  dsimp only
  split
  · exact ⟨_, _, rfl⟩
  · split
    · obtain ⟨invocations, marked⟩ := after.markShadow_eq name phase (Violation.stamp name ‹_›)
      exact ⟨invocations, after.rejectingPlugin, marked⟩
    · unfold Context.setRejectingPlugin
      split
      · exact ⟨after.extensions.invocations, name, rfl⟩
      · exact ⟨_, _, rfl⟩

theorem dispatch_stops {name : String} {policy : ErrorPolicy} {phase : InvocationPhase}
    {hook : Hook W} {w w' : W} {pctx pctx' : Context} {action : Action}
    (h : dispatch name policy phase hook w pctx = (some action, w', pctx')) : action ≠ .cont := by
  unfold dispatch at h
  dsimp only at h
  split at h
  · have answer := congrArg Prod.fst h
    contradiction
  · grind

/-- The state of the caller's `ctx` when it is looked at. -/
abbrev CtxErr (W : Type*) := W → Bool × W

variable (ctxErr : CtxErr W)

def runFrom (i : Nat) : Pipeline W → Hook W
  | [], w, pctx => (.cont, w, pctx)
  | (plugin, policy) :: rest, w, pctx =>
    if policy = .off then runFrom (i + 1) rest w pctx
    else
      match ctxErr w with
      | (true, w) => (cancelled, w, pctx)
      | (false, w) =>
        let pctx := { pctx with dispatched := pctx.dispatched ++ [i] }
        match dispatch plugin.name policy .request plugin.onRequest w pctx with
        | (some action, w, pctx) => (action, w, pctx)
        | (none, w, pctx) => runFrom (i + 1) rest w pctx

def run (p : Pipeline W) : Hook W := runFrom ctxErr 0 p

/-- The loop of `RunResponse`, over the plugins in reverse order. -/
def respondIn : Pipeline W → Hook W
  | [], w, pctx => (.cont, w, pctx)
  | (plugin, policy) :: rest, w, pctx =>
    if policy = .off ∨ plugin.onResponseFrame.isSome then respondIn rest w pctx
    else
      match ctxErr w with
      | (true, w) => (cancelled, w, pctx)
      | (false, w) =>
        match dispatch plugin.name policy .response plugin.onResponse w pctx with
        | (some action, w, pctx) => (action, w, pctx)
        | (none, w, pctx) => respondIn rest w pctx

def runResponse (p : Pipeline W) : Hook W := respondIn ctxErr p.reverse

/-- The loop of `RunResponseFrame`. The `ctx` is looked at for every plugin that is not
off. -/
def frameIn (frame : Bytes) (last : Bool) : Pipeline W → Hook W
  | [], w, pctx => (.cont, w, pctx)
  | (plugin, policy) :: rest, w, pctx =>
    if policy = .off then frameIn frame last rest w pctx
    else
      match ctxErr w with
      | (true, w) => (cancelled, w, pctx)
      | (false, w) =>
        match plugin.onResponseFrame with
        | none => frameIn frame last rest w pctx
        | some hook =>
          match dispatch plugin.name policy .response (hook frame last) w pctx with
          | (some action, w, pctx) => (action, w, pctx)
          | (none, w, pctx) => frameIn frame last rest w pctx

def runResponseFrame (p : Pipeline W) (frame : Bytes) (last : Bool) : Hook W :=
  frameIn ctxErr frame last p.reverse

def hasStreamingResponders (p : Pipeline W) : Bool :=
  p.any fun (plugin, _) => plugin.onResponseFrame.isSome

def needsBody (p : Pipeline W) : Bool :=
  p.any fun (plugin, _) =>
    let caps := plugin.capabilities.normalize
    caps.readsBody || caps.writesBody

def writesBody (p : Pipeline W) : Bool :=
  p.any fun (plugin, _) => plugin.capabilities.normalize.writesBody

def notReadyPlugin : Pipeline W → W → Option String × W
  | [], w => (none, w)
  | (plugin, _) :: rest, w =>
    match plugin.ready with
    | none => notReadyPlugin rest w
    | some ready =>
      match ready w with
      | (true, w) => notReadyPlugin rest w
      | (false, w) => (some plugin.name, w)

/-- Calls `Shutdown` on plugins in the order given. Errors are logged only. -/
def shutdownIn : Pipeline W → W → W
  | [], w => w
  | (plugin, _) :: rest, w =>
    match plugin.shutdown with
    | none => shutdownIn rest w
    | some shutdown => shutdownIn rest (shutdown w).2

def stop (p : Pipeline W) (w : W) : W := shutdownIn p.reverse w

/-- `Start` behind the plugins `started`, the last of them first. A failed `Init` gives the
plugin and its error, after the shutdown of the plugins in front of it. -/
def startFrom (started : Pipeline W) : Pipeline W → W → Option (String × String) × W
  | [], w => (none, w)
  | (plugin, policy) :: rest, w =>
    match plugin.init with
    | none => startFrom ((plugin, policy) :: started) rest w
    | some init =>
      match init w with
      | (none, w) => startFrom ((plugin, policy) :: started) rest w
      | (some err, w) => (some (plugin.name, err), shutdownIn started w)

def start (p : Pipeline W) (w : W) : Option (String × String) × W := startFrom [] p w

def dispatchFinish (onFinish : W → Context → W × Context) (w : W) (pctx : Context) : W × Context :=
  let during := { pctx with inFinish := true }
  let (w, after) := onFinish w during
  (w, { during.keepPrivate after with inFinish := false })

/-- The loop of `RunFinish` over the dispatched indices, the last one first. -/
def finishIn (p : Pipeline W) : List Nat → W → Context → W × Context
  | [], w, pctx => (w, pctx)
  | i :: rest, w, pctx =>
    match p[i]?.bind fun (plugin, _) => plugin.onFinish with
    | none => finishIn p rest w pctx
    | some onFinish =>
      let (w, pctx) := dispatchFinish onFinish w pctx
      finishIn p rest w pctx

def runFinish (p : Pipeline W) (outcome : Outcome) (w : W) (pctx : Context) : W × Context :=
  if pctx.finished then (w, pctx)
  else
    let pctx := { pctx with finished := true }
    if pctx.dispatched = [] then (w, pctx)
    else
      let (w, pctx) := finishIn p pctx.dispatched.reverse w { pctx with outcome := some outcome }
      (w, { pctx with outcome := none })

/-- The refusals of `New`, with the plugins that the message names. -/
inductive CapabilityError where
  | twoMutators (first second : String)
  | readerAfterMutator (reader mutator : String)
  deriving DecidableEq

/-- The loop of `validateCapabilities`, with the mutator and the first reader behind it
found so far. -/
def validateFrom (mutator reader : Option String) : Pipeline W → Except CapabilityError Unit
  | [] =>
    match reader, mutator with
    | some reader, some mutator => .error (.readerAfterMutator reader mutator)
    | _, _ => .ok ()
  | (plugin, _) :: rest =>
    let caps := plugin.capabilities.normalize
    if caps.writesBody then
      match mutator with
      | some first => .error (.twoMutators first plugin.name)
      | none => validateFrom (some plugin.name) reader rest
    else if caps.readsBody && mutator.isSome && reader.isNone then
      validateFrom mutator (some plugin.name) rest
    else validateFrom mutator reader rest

def validateCapabilities (p : Pipeline W) : Except CapabilityError Unit := validateFrom none none p

variable {p : Pipeline W} {reader : Option String}

theorem noReader_of_validateFrom {mutator : String}
    (h : validateFrom (some mutator) reader p = .ok ()) :
    reader = none ∧ ∀ entry ∈ p, entry.1.capabilities.normalize.readsBody = false := by
  induction p generalizing reader with
  | nil =>
    cases reader with
    | none => simp
    | some reader => contradiction
  | cons head rest ih =>
    obtain ⟨plugin, policy⟩ := head
    unfold validateFrom at h
    dsimp only at h
    split at h
    · contradiction
    · split at h
      · obtain ⟨noReader, -⟩ := ih h
        contradiction
      next silent =>
        obtain ⟨rfl, readers⟩ := ih h
        refine ⟨rfl, List.forall_mem_cons.mpr ⟨?_, readers⟩⟩
        simpa using silent

theorem readers_before_writer {mutator : Option String} (h : validateFrom mutator reader p = .ok ())
    : p.Pairwise fun a b => a.1.capabilities.writesBody = true →
      b.1.capabilities.normalize.readsBody = false := by
  induction p generalizing mutator reader with
  | nil => exact .nil
  | cons head rest ih =>
    obtain ⟨plugin, policy⟩ := head
    unfold validateFrom at h
    dsimp only at h
    split at h
    · split at h
      · contradiction
      · exact .cons (fun b hb _ => (noReader_of_validateFrom h).2 b hb) (ih h)
    next silent =>
      refine .cons (fun b _ writes => absurd writes silent) ?_
      split at h
      · exact ih h
      · exact ih h

end Pipeline

end Kagenti.AuthBridge
