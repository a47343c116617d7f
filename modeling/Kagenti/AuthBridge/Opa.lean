import Kagenti.Lib.Transition
import Mathlib.Data.List.Basic

/-!
The policy engine that the instances of the OPA plugin share (`plugins/opa/plugin.go`). What an
engine answers is left out: a decision is the pair of the instance and the engine that it asks.
-/

namespace Kagenti.AuthBridge.Opa

open Kagenti.Lib.Transition

structure Config where
  bundleURL : String
  agentIDFile : String
  agentID : String
  pollingMinDelay : Int
  pollingMaxDelay : Int
  deriving DecidableEq

def Config.applyDefaults (c : Config) : Config where
  bundleURL := c.bundleURL
  agentIDFile :=
    if c.agentID = "" ∧ c.agentIDFile = "" then "/shared/client-id.txt" else c.agentIDFile
  agentID := c.agentID
  pollingMinDelay := if c.pollingMinDelay ≤ 0 then 10 else c.pollingMinDelay
  pollingMaxDelay := if c.pollingMaxDelay ≤ 0 then 120 else c.pollingMaxDelay

/-- What the configuration of an engine depends on. -/
structure Bundle where
  url : String
  spiffeID : List Char
  minDelay : Int
  maxDelay : Int
  deriving DecidableEq

/-- `sharedSDK`, with the number of `Stop` calls on its decider. -/
structure Engine where
  bundle : Bundle
  ready : Bool
  refCount : Int
  stops : Nat
  deriving DecidableEq

/-- How far an instance has come since `Configure`. Without an agent id, `Init` leaves the rest
to a goroutine, which waits for the file and then starts the engine. -/
inductive Stage where
  | configured
  | waiting
  | starting
  | settled
  deriving DecidableEq

/-- How far `Shutdown` has come. Behind `shared.Swap(nil)`, it still has to give back what it
found there. -/
inductive Shutdown where
  | open
  | cancelled
  | releasing (engine : Option Nat)
  | down
  deriving DecidableEq

def Shutdown.swapped : Shutdown → Bool
  | .open | .cancelled => false
  | .releasing _ | .down => true

structure Instance where
  cfg : Config
  agentID : String
  shared : Option Nat
  stage : Stage
  shutdown : Shutdown
  deriving DecidableEq

def Instance.held (p : Instance) : Option Nat :=
  match p.shutdown with
  | .releasing engine => engine
  | _ => p.shared

def holders (instances : List Instance) (n : Nat) : Nat :=
  (instances.map Instance.held).count (some n)

/-- `buildOPAConfig`, up to the encoding. -/
def Instance.buildOPAConfig (p : Instance) : Option Bundle :=
  if p.agentID = "" then none
  else some
    { url := p.cfg.bundleURL
      spiffeID :=
        if "spiffe://".toList.isPrefixOf p.agentID.toList then p.agentID.toList.drop 9
        else p.agentID.toList
      minDelay := p.cfg.pollingMinDelay
      maxDelay := p.cfg.pollingMaxDelay }

structure State where
  instances : List Instance
  engines : List Engine
  singleton : Option Nat
  decisions : List (Nat × Nat)
  deriving DecidableEq

namespace State

variable (s : State) (i : Nat) (p : Instance)

def put : State := { s with instances := s.instances.set i p }

/-- `Configure` of a new instance. The credential file may be readable already. -/
def configure (cfg : Config) (credential : Option String) : Option State :=
  let cfg := cfg.applyDefaults
  if cfg.bundleURL = "" then none
  else
    let agentID :=
      if cfg.agentID ≠ "" then cfg.agentID
      else if cfg.agentIDFile ≠ "" then credential.getD ""
      else ""
    let p : Instance :=
      { cfg := cfg, agentID := agentID, shared := none, stage := .configured, shutdown := .open }
    some { s with instances := s.instances ++ [p] }

/-- `startOPA`, all of it under the mutex. An error leaves the instance without an engine. -/
def startOPA (created : Bool) : State :=
  match s.singleton with
  | some n =>
    { s.put i { p with shared := some n } with
      engines := s.engines.modify n fun e => { e with refCount := e.refCount + 1 } }
  | none =>
    match p.buildOPAConfig with
    | none => s.put i p
    | some bundle =>
      if created then
        { s.put i { p with shared := some s.engines.length } with
          engines := s.engines ++ [{ bundle := bundle, ready := false, refCount := 1, stops := 0 }]
          singleton := some s.engines.length }
      else s.put i p

def init (created : Bool) : State :=
  if p.agentID ≠ "" then s.startOPA i { p with stage := .settled } created
  else if p.cfg.agentIDFile = "" then s.put i { p with stage := .settled }
  else s.put i { p with stage := .waiting }

/-- The end of `Shutdown`, under the mutex. -/
def release (n : Nat) : State :=
  let s := s.put i { p with shutdown := .down }
  match s.engines[n]? with
  | none => s
  | some e =>
    let refCount := e.refCount - 1
    if refCount ≤ 0 then
      { s with
        engines := s.engines.set n { e with refCount := refCount, stops := e.stops + 1 }
        singleton := none }
    else { s with engines := s.engines.set n { e with refCount := refCount } }

/-- `OnRequest` and `OnResponse` ask the engine if there is one and it is ready. -/
def decision : State :=
  match p.shared with
  | none => s
  | some n =>
    if s.engines[n]?.any (·.ready) then { s with decisions := s.decisions ++ [(i, n)] } else s

end State

/-- Steps of one instance. The pipeline calls `Init` once and `Shutdown` once, after `Init`. -/
inductive Move where
  | init (created : Bool)
  | credential (value : String)
  | giveUp
  | start (created : Bool)
  | decision
  | cancel
  | swap
  | release
  deriving DecidableEq

inductive Action where
  | configure (cfg : Config) (credential : Option String)
  | activate (engine : Nat)
  | move (i : Nat) (m : Move)
  deriving DecidableEq

def State.move (s : State) (i : Nat) (p : Instance) : Move → Option State
  | .init created => if p.stage = .configured then some (s.init i p created) else none
  -- The file is read before the cancellation is looked at.
  | .credential value =>
    if p.stage = .waiting then some (s.put i { p with agentID := value, stage := .starting })
    else none
  | .giveUp =>
    if p.stage = .waiting ∧ p.shutdown ≠ .open then some (s.put i { p with stage := .settled })
    else none
  | .start created =>
    if p.stage = .starting then some (s.startOPA i { p with stage := .settled } created) else none
  | .decision => some (s.decision i p)
  | .cancel =>
    if p.stage ≠ .configured ∧ p.shutdown = .open then
      some (s.put i { p with shutdown := .cancelled })
    else none
  | .swap =>
    if p.shutdown = .cancelled then
      some (s.put i { p with shared := none, shutdown := .releasing p.shared })
    else none
  | .release =>
    match p.shutdown with
    | .releasing none => some (s.put i { p with shutdown := .down })
    | .releasing (some n) => some (s.release i p n)
    | _ => none

def system : System State Action where
  init := { instances := [], engines := [], singleton := none, decisions := [] }
  step s
    | .configure cfg credential => s.configure cfg credential
    | .activate n => some { s with engines := s.engines.modify n ({ · with ready := true }) }
    | .move i m => s.instances[i]?.bind fun p => s.move i p m

def Engine.Ok (users : Nat) (inUse : Prop) (e : Engine) : Prop :=
  e.refCount = users ∧ e.stops = (if e.refCount = 0 then 1 else 0) ∧ (inUse ↔ e.refCount ≠ 0)

/-- The engines, against how many instances hold each of them. -/
structure Counted (engines : List Engine) (singleton : Option Nat) (users : Nat → Nat) : Prop where
  ok : ∀ (n : Nat) (e : Engine), engines[n]? = some e → e.Ok (users n) (singleton = some n)
  live : ∀ n, singleton = some n → n < engines.length

namespace Counted

variable {engines : List Engine} {singleton : Option Nat} {users users' : Nat → Nat} {n : Nat}
  {e : Engine}

theorem acquire (h : Counted engines (some n) users)
    (more : ∀ m, users' m = users m + if n = m then 1 else 0) :
    Counted (engines.modify n fun e => { e with refCount := e.refCount + 1 }) (some n) users' where
  ok m e at_m := by
    rw [List.getElem?_modify] at at_m
    obtain ⟨e, old, rfl⟩ := Option.map_eq_some_iff.mp at_m
    have := h.ok m e old
    grind [Engine.Ok]
  live m live := by simpa using h.live m live

theorem create (h : Counted engines none users) (unheld : users engines.length = 0)
    (bundle : Bundle) (more : ∀ m, users' m = users m + if engines.length = m then 1 else 0) :
    Counted (engines ++ [{ bundle := bundle, ready := false, refCount := 1, stops := 0 }])
      (some engines.length) users' where
  ok m e at_m := by
    have := h.ok m
    grind [Engine.Ok]
  live m live := by simp_all

section

variable (h : Counted engines singleton users) (found : engines[n]? = some e)
  (fewer : ∀ m, users m = users' m + if n = m then 1 else 0)

include h found fewer

theorem release (more : ¬e.refCount - 1 ≤ 0) :
    Counted (engines.set n { e with refCount := e.refCount - 1 }) singleton users' where
  ok m e' at_m := by
    have := h.ok n e found
    have := h.ok m e'
    rw [List.getElem?_set] at at_m
    grind [Engine.Ok]
  live m live := by simpa using h.live m live

/-- The engine that loses its last user is the one in use. -/
theorem stop (last : e.refCount - 1 ≤ 0) :
    Counted (engines.set n { e with refCount := e.refCount - 1, stops := e.stops + 1 }) none
      users' where
  ok m e' at_m := by
    have := h.ok n e found
    have := h.ok m e'
    rw [List.getElem?_set] at at_m
    grind [Engine.Ok]
  live := nofun

end

end Counted

namespace State

def bundleOf (s : State) (n : Nat) : Option Bundle := s.engines[n]?.map Engine.bundle

structure Sound (s : State) : Prop where
  counted : ∀ (n : Nat) (e : Engine), s.engines[n]? = some e → e.refCount = holders s.instances n
  stopped : ∀ (n : Nat) (e : Engine), s.engines[n]? = some e → e.stops = if e.refCount = 0 then 1 else 0
  released : ∀ p ∈ s.instances, p.shutdown.swapped = true → p.shared = none
  own : ∀ d ∈ s.decisions, ∃ p b, s.instances[d.1]? = some p ∧ p.buildOPAConfig = some b ∧
    s.bundleOf d.2 = some b

def sameBundle (s : State) (p : Instance) : Bool :=
  s.singleton.all fun n => s.bundleOf n = p.buildOPAConfig

/-- An instance that starts finds an engine for its own bundle or none, and no goroutine starts
one behind the `shared.Swap(nil)` of its instance. -/
def orderly (s : State) : Action → Bool
  | .move i (.init _) => s.instances[i]?.all fun p => p.agentID = "" || s.sameBundle p
  | .move i (.start _) => s.instances[i]?.all fun p => !p.shutdown.swapped && s.sameBundle p
  | _ => true

/-! The invariant -/

structure InstanceOk (s : State) (p : Instance) : Prop where
  uses : ∀ n, p.held = some n → ∃ b, p.buildOPAConfig = some b ∧ s.bundleOf n = some b
  released : p.shutdown.swapped = true → p.shared = none
  unsettled : p.stage ≠ .settled → p.held = none
  fresh : p.stage = .configured → p.shutdown = .open

structure Inv (s : State) : Prop where
  counted : Counted s.engines s.singleton (holders s.instances)
  instance_ : ∀ (i : Nat) (p : Instance), s.instances[i]? = some p → s.InstanceOk p
  own : ∀ d ∈ s.decisions, ∃ p b, s.instances[d.1]? = some p ∧ p.stage = .settled ∧
    p.buildOPAConfig = some b ∧ s.bundleOf d.2 = some b

theorem Inv.sound {s : State} (h : s.Inv) : s.Sound where
  counted n e found := (h.counted.ok n e found).1
  stopped n e found := (h.counted.ok n e found).2.1
  released p member := by
    obtain ⟨i, found⟩ := List.mem_iff_getElem?.mp member
    exact (h.instance_ i p found).released
  own d member := by
    obtain ⟨p, b, found, -, built⟩ := h.own d member
    exact ⟨p, b, found, built⟩

variable {s s' : State} {i n : Nat} {p p' : Instance}

theorem holders_set (p' : Instance) {instances : List Instance}
    (found : instances[i]? = some p) (n : Nat) :
    holders (instances.set i p') n + (if p.held = some n then 1 else 0) =
      holders instances n + (if p'.held = some n then 1 else 0) := by
  obtain ⟨bound, rfl⟩ := List.getElem?_eq_some_iff.mp found
  have held : i < (instances.map Instance.held).length := by simpa using bound
  have counted := List.count_set (a := p'.held) (b := some n) held
  have positive : (instances.map Instance.held)[i] = some n →
      0 < (instances.map Instance.held).count (some n) := fun here =>
    List.count_pos_iff.mpr (here ▸ List.getElem_mem held)
  simp only [holders, List.map_set]
  split_ifs at counted ⊢ <;> grind

theorem InstanceOk.mono (h : s.InstanceOk p)
    (keeps : ∀ n b, s.bundleOf n = some b → s'.bundleOf n = some b) : s'.InstanceOk p := by
  refine ⟨fun n held => ?_, h.released, h.unsettled, h.fresh⟩
  obtain ⟨b, built, known⟩ := h.uses n held
  exact ⟨b, built, keeps n b known⟩

theorem InstanceOk.idle (idle : p.held = none)
    (released : p.shutdown.swapped = true → p.shared = none)
    (fresh : p.stage = .configured → p.shutdown = .open) : s.InstanceOk p :=
  ⟨fun _ held => (by cases idle.symm.trans held), released, fun _ => idle, fresh⟩

theorem InstanceOk.down {engine : Option Nat} (h : s.InstanceOk p)
    (releasing : p.shutdown = .releasing engine) : s'.InstanceOk { p with shutdown := .down } :=
  have swapped : p.shared = none := h.released (by rw [releasing]; rfl)
  .idle swapped (fun _ => swapped) fun fresh => (by cases releasing.symm.trans (h.fresh fresh))

theorem bundleOf_set {e e' : Engine} (found : s.engines[n]? = some e)
    (set : s'.engines = s.engines.set n e') (same : e'.bundle = e.bundle) (m : Nat) :
    s'.bundleOf m = s.bundleOf m := by
  rw [bundleOf, set, List.getElem?_set]
  grind [bundleOf]

theorem held_of_running (running : p.shutdown.swapped = false) : p.held = p.shared := by
  unfold Instance.held
  split
  next releasing =>
    rw [releasing] at running
    cases running
  · rfl

theorem InstanceOk.acquired {b : Bundle} (running : p.shutdown.swapped = false)
    (built : p.buildOPAConfig = some b) (known : s'.bundleOf n = some b) :
    s'.InstanceOk { p with stage := .settled, shared := some n } where
  uses m held := by
    cases (held_of_running (p := { p with stage := .settled, shared := some n }) running).symm.trans
      held
    exact ⟨b, built, known⟩
  released swapped := by cases running.symm.trans swapped
  unsettled unsettled := absurd rfl unsettled
  fresh := nofun

variable (h : s.Inv)

include h

theorem Inv.holders_new : holders s.instances s.engines.length = 0 := by
  refine List.count_eq_zero.mpr fun member => ?_
  obtain ⟨p, mem, held⟩ := List.mem_map.mp member
  obtain ⟨i, found⟩ := List.mem_iff_getElem?.mp mem
  obtain ⟨b, -, known⟩ := (h.instance_ i p found).uses _ held
  simp [bundleOf] at known

section

variable (found : s.instances[i]? = some p)

include found

theorem Inv.update (set : s'.instances = s.instances.set i p')
    (decisions : s'.decisions = s.decisions)
    (keeps : ∀ n b, s.bundleOf n = some b → s'.bundleOf n = some b) (ok : s'.InstanceOk p')
    (settled : p.stage = .settled → p'.stage = .settled ∧ p'.buildOPAConfig = p.buildOPAConfig)
    (counted : Counted s'.engines s'.singleton (holders (s.instances.set i p'))) : s'.Inv := by
  refine ⟨set ▸ counted, fun j q at_j => ?_, fun d member => ?_⟩
  · rw [set] at at_j
    by_cases same : i = j
    · grind
    · exact (h.instance_ j q ((List.getElem?_set_ne same).symm.trans at_j)).mono keeps
  · obtain ⟨q, b, at_d, done, built, known⟩ := h.own d (decisions ▸ member)
    by_cases same : i = d.1
    · exact ⟨p', b, by grind⟩
    · exact ⟨q, b, by grind⟩

theorem Inv.put (held : p'.held = p.held) (ok : s.InstanceOk p')
    (settled : p.stage = .settled → p'.stage = .settled ∧ p'.buildOPAConfig = p.buildOPAConfig) :
    (s.put i p').Inv := by
  have same : holders (s.instances.set i p') = holders s.instances := by
    funext n
    have := holders_set p' found n
    rwa [held, Nat.add_right_cancel_iff] at this
  exact h.update found rfl rfl (fun _ _ => id) (ok.mono fun _ _ => id) settled (same ▸ h.counted)

section

variable (unsettled : p.stage ≠ .settled) (running : p.shutdown.swapped = false)

include unsettled running

theorem Inv.holders_acquire (m : Nat) :
    holders (s.instances.set i { p with stage := .settled, shared := some n }) m =
      holders s.instances m + if n = m then 1 else 0 := by
  have counted := holders_set { p with stage := .settled, shared := some n } found m
  have held := held_of_running (p := { p with stage := .settled, shared := some n }) running
  rw [(h.instance_ i p found).unsettled unsettled, held] at counted
  simpa using counted

theorem Inv.share (single : s.singleton = some n) (own : s.bundleOf n = p.buildOPAConfig) :
    Inv { s.put i { p with stage := .settled, shared := some n } with
      engines := s.engines.modify n fun e => { e with refCount := e.refCount + 1 } } := by
  obtain ⟨b, known⟩ : ∃ b, s.bundleOf n = some b :=
    ⟨_, congrArg _ (List.getElem?_eq_getElem (h.counted.live n single))⟩
  refine h.update found rfl rfl ?_ (.acquired running (own.symm.trans known) ?_)
    (fun settled => absurd settled unsettled) ?_
  · grind [bundleOf, State.put]
  · grind [bundleOf, State.put]
  · have counted := h.counted
    rw [single] at counted
    exact single ▸ counted.acquire (h.holders_acquire found unsettled running)

theorem Inv.create (single : s.singleton = none) {b : Bundle} (built : p.buildOPAConfig = some b) :
    Inv { s.put i { p with stage := .settled, shared := some s.engines.length } with
      engines := s.engines ++ [{ bundle := b, ready := false, refCount := 1, stops := 0 }]
      singleton := some s.engines.length } := by
  refine h.update found rfl rfl ?_ (.acquired running built ?_)
    (fun settled => absurd settled unsettled) ?_
  · grind [bundleOf, State.put]
  · simp [bundleOf]
  · have counted := h.counted
    rw [single] at counted
    exact counted.create h.holders_new b (h.holders_acquire found unsettled running)

theorem Inv.startOPA (created : Bool) (same : s.sameBundle p = true) :
    (s.startOPA i { p with stage := .settled } created).Inv := by
  have ok := h.instance_ i p found
  have failed : (s.put i { p with stage := .settled }).Inv :=
    h.put found rfl (.idle (ok.unsettled unsettled) ok.released nofun)
      fun settled => absurd settled unsettled
  unfold State.startOPA
  split
  next n single =>
    have own : s.bundleOf n = p.buildOPAConfig := by simpa [sameBundle, single] using same
    exact (h.share found unsettled running single own :)
  next single =>
    split
    · exact failed
    next b built =>
      split
      · exact h.create found unsettled running single built
      · exact failed

end

theorem Inv.init (created : Bool) (configured : p.stage = .configured)
    (allowed : s.orderly (.move i (.init created)) = true) : (s.init i p created).Inv := by
  have ok := h.instance_ i p found
  have unsettled : p.stage ≠ .settled := by rw [configured]; nofun
  have put (stage : Stage) (initialised : stage ≠ .configured) :
      (s.put i { p with stage := stage }).Inv :=
    h.put found rfl (.idle (ok.unsettled unsettled) ok.released
      fun fresh => absurd fresh initialised) fun settled => absurd settled unsettled
  unfold State.init
  split
  next identified =>
    have running : p.shutdown.swapped = false := by rw [ok.fresh configured]; rfl
    exact h.startOPA found unsettled running created
      (by simpa [orderly, found, identified] using allowed)
  · split
    · exact put .settled nofun
    · exact put .waiting nofun

theorem Inv.decision : (s.decision i p).Inv := by
  have ok := h.instance_ i p found
  unfold State.decision
  split
  · exact h
  next n shared =>
    split
    · refine ⟨h.counted, fun j q at_j => (h.instance_ j q at_j).mono fun _ _ => id,
        fun d member => ?_⟩
      rcases List.mem_append.mp member with old | new
      · exact h.own d old
      · obtain rfl := List.mem_singleton.mp new
        have held : p.held = some n :=
          (held_of_running (Bool.eq_false_iff.mpr fun swapped => by
            cases shared.symm.trans (ok.released swapped))).trans shared
        have settled : p.stage = .settled := by
          by_contra unsettled
          cases held.symm.trans (ok.unsettled unsettled)
        obtain ⟨b, built, known⟩ := ok.uses n held
        exact ⟨p, b, found, settled, built, known⟩
    · exact h

theorem Inv.release (releasing : p.shutdown = .releasing (some n)) : (s.release i p n).Inv := by
  have ok := h.instance_ i p found
  have held : p.held = some n := by rw [Instance.held, releasing]
  have down : Instance.held { p with shutdown := .down } = none :=
    ok.released (by rw [releasing]; rfl)
  obtain ⟨b, -, known⟩ := ok.uses n held
  obtain ⟨e, at_n, rfl⟩ := Option.map_eq_some_iff.mp known
  have fewer (m : Nat) : holders s.instances m =
      holders (s.instances.set i { p with shutdown := .down }) m + if n = m then 1 else 0 := by
    have counted := holders_set { p with shutdown := .down } found m
    rw [held, down] at counted
    simpa using counted.symm
  unfold State.release
  change Inv (match s.engines[n]? with | none => _ | some e => _)
  rw [at_n]
  dsimp only
  split
  next last =>
    refine h.update found rfl rfl (fun m _ => .trans ?_) (ok.down releasing)
      (fun settled => ⟨settled, rfl⟩) (h.counted.stop at_n fewer last)
    exact bundleOf_set at_n rfl (by rfl) m
  next more =>
    refine h.update found rfl rfl (fun m _ => .trans ?_) (ok.down releasing)
      (fun settled => ⟨settled, rfl⟩) (h.counted.release at_n fewer more)
    exact bundleOf_set at_n rfl (by rfl) m

theorem Inv.move {m : Move} (allowed : s.orderly (.move i m) = true) (next : s.move i p m = some s')
    : s'.Inv := by
  have ok := h.instance_ i p found
  cases m with
  | init created =>
    obtain ⟨configured, next⟩ := Option.ite_none_right_eq_some.mp next
    cases next
    exact h.init found created configured allowed
  | credential value =>
    obtain ⟨waiting, next⟩ := Option.ite_none_right_eq_some.mp next
    cases next
    have none_held := ok.unsettled (by rw [waiting]; nofun)
    exact h.put found rfl (.idle none_held ok.released nofun)
      fun settled => by cases waiting.symm.trans settled
  | giveUp =>
    obtain ⟨⟨waiting, -⟩, next⟩ := Option.ite_none_right_eq_some.mp next
    cases next
    exact h.put found rfl ⟨ok.uses, ok.released, fun unsettled => absurd rfl unsettled, nofun⟩
      fun settled => by cases waiting.symm.trans settled
  | start created =>
    obtain ⟨starting, next⟩ := Option.ite_none_right_eq_some.mp next
    cases next
    have ⟨running, same⟩ : p.shutdown.swapped = false ∧ s.sameBundle p = true := by
      simpa [orderly, found] using allowed
    exact h.startOPA found (by rw [starting]; nofun) running created same
  | decision =>
    cases next
    exact h.decision found
  | cancel =>
    obtain ⟨⟨initialised, running⟩, next⟩ := Option.ite_none_right_eq_some.mp next
    cases next
    have held : Instance.held { p with shutdown := .cancelled } = p.held := by
      rw [Instance.held, Instance.held, running]
    exact h.put found held ⟨fun n => held ▸ ok.uses n, nofun, fun unsettled =>
      held.trans (ok.unsettled unsettled), fun fresh => absurd fresh initialised⟩
      fun settled => ⟨settled, rfl⟩
  | swap =>
    obtain ⟨cancelled, next⟩ := Option.ite_none_right_eq_some.mp next
    cases next
    have held : p.held = p.shared := by rw [Instance.held, cancelled]
    exact h.put found held.symm ⟨fun n => held ▸ ok.uses n, fun _ => rfl, fun unsettled =>
      held ▸ ok.unsettled unsettled, fun fresh => by cases cancelled.symm.trans (ok.fresh fresh)⟩
      fun settled => ⟨settled, rfl⟩
  | release =>
    dsimp only [State.move] at next
    split at next
    next releasing =>
      cases next
      have held : p.held = none := by rw [Instance.held, releasing]
      have swapped : p.shared = none := ok.released (by rw [releasing]; rfl)
      exact h.put found (swapped.trans held.symm) (ok.down releasing)
        fun settled => ⟨settled, rfl⟩
    next n releasing =>
      cases next
      exact h.release found releasing
    · cases next

end

theorem Inv.add (configured : p.stage = .configured) (unused : p.shared = none)
    (running : p.shutdown = .open) : Inv { s with instances := s.instances ++ [p] } := by
  have held : p.held = none := by rw [Instance.held, running, unused]
  have same : holders (s.instances ++ [p]) = holders s.instances := by
    funext n
    simp [holders, held]
  refine ⟨same ▸ h.counted, fun i q at_i => ?_, fun d member => ?_⟩
  · rcases List.mem_append.mp (List.mem_of_getElem? at_i) with old | new
    · obtain ⟨j, at_j⟩ := List.mem_iff_getElem?.mp old
      exact (h.instance_ j q at_j).mono fun _ _ => id
    · obtain rfl := List.mem_singleton.mp new
      exact .idle held (fun _ => unused) fun _ => running
  · obtain ⟨q, b, found, rest⟩ := h.own d member
    have bound := (List.getElem?_eq_some_iff.mp found).1
    exact ⟨q, b, (List.getElem?_append_left bound).trans found, rest⟩

theorem Inv.activate (n : Nat) :
    Inv { s with engines := s.engines.modify n ({ · with ready := true }) } := by
  have keeps (m : Nat) (b : Bundle) (known : s.bundleOf m = some b) :
      bundleOf { s with engines := s.engines.modify n ({ · with ready := true }) } m = some b := by
    grind [bundleOf, State.put]
  refine ⟨⟨fun m e at_m => ?_, fun m live => ?_⟩, fun i p found => ?_, fun d member => ?_⟩
  · have := h.counted.ok m
    grind [Engine.Ok]
  · simpa using h.counted.live m live
  · exact (h.instance_ i p found).mono keeps
  · obtain ⟨p, b, found, settled, built, known⟩ := h.own d member
    exact ⟨p, b, found, settled, built, keeps _ b known⟩

end State

/-- In an orderly run, the engines are counted, stopped and used as they should be. -/
theorem sound_of_orderly {s : State} (h : system.Reachable (fun s a => s.orderly a = true) s) :
    s.Sound := by
  refine State.Inv.sound (h.invariant ?_ fun s a s' inv allowed next => ?_)
  · exact ⟨⟨nofun, nofun⟩, nofun, nofun⟩
  · cases a with
    | configure cfg credential =>
      obtain ⟨-, next⟩ := Option.ite_none_left_eq_some.mp next
      cases next
      exact inv.add rfl rfl rfl
    | activate n =>
      cases next
      exact inv.activate n
    | move i m =>
      obtain ⟨p, found, moved⟩ := Option.bind_eq_some_iff.mp next
      exact inv.move found allowed moved

def sampleConfig (bundleURL : String) : Config where
  bundleURL := bundleURL
  agentIDFile := ""
  agentID := "agent"
  pollingMinDelay := 10
  pollingMaxDelay := 120

/-- A reload that shares the OPA instance, and the shutdown of both plugins. -/
theorem sound_behind_reload :
    ∃ s, system.Reachable (fun s a => s.orderly a = true) s ∧ s.decisions = [(0, 0), (1, 0)] ∧
      s.singleton = none ∧ s.Sound := by
  have reach := System.reachable_of_run (S := system) (G := fun s a => s.orderly a = true)
    [.configure (sampleConfig "a") none, .move 0 (.init true), .activate 0, .move 0 .decision,
      .configure (sampleConfig "a") none, .move 1 (.init true), .move 0 .cancel, .move 0 .swap,
      .move 0 .release, .move 1 .decision, .move 1 .cancel, .move 1 .swap, .move 1 .release] rfl
  exact ⟨_, reach, rfl, rfl, sound_of_orderly reach⟩

/-- An instance with another bundle URL gets the decisions of the engine in use. -/
theorem foreign_decision :
    (∃ s, system.Reachable System.anyAction s ∧ (1, 0) ∈ s.decisions ∧
      s.instances[1]?.bind Instance.buildOPAConfig ≠ s.bundleOf 0) ∧
    ∃ s, system.Reachable System.anyAction s ∧
      s.instances.map (fun p => (p.shutdown, p.shared)) = [(.down, some 0)] := by
  have reload := System.reachable_of_run (S := system) (G := System.anyAction)
    [.configure (sampleConfig "a") none, .move 0 (.init true), .activate 0,
      .configure (sampleConfig "b") none, .move 1 (.init true), .move 1 .decision] rfl
  have late := System.reachable_of_run (S := system) (G := System.anyAction)
    [.configure { sampleConfig "a" with agentID := "" } none, .move 0 (.init true),
      .move 0 (.credential "agent"), .move 0 .cancel, .move 0 .swap, .move 0 .release,
      .move 0 (.start true)] rfl
  exact ⟨⟨_, reload, by decide +kernel, by decide +kernel⟩, _, late, rfl⟩

end Kagenti.AuthBridge.Opa
