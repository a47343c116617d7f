import Kagenti.Lib.Entries
import Kagenti.Lib.Transition
import Kagenti.Operator.AgentRuntime.Config

/-!
The restart of a Sandbox, whose pods do not follow changes of their template
(`agentruntime_controller.go`). Every update can fail or be answered with an error, the controller
can crash between any two, and others may write everything but the hash and the mark.
-/

namespace Kagenti.Operator.AgentRuntime

open Go Lib.Transition

structure Sandbox where
  workload : Workload
  annotations : StringMap
  -- `spec.replicas`, with its default
  replicas : Int

def kindSandbox : String := "Sandbox"

def annotationRestartPending : String := "kagenti.io/restart-pending"

def annotationRestartPendingValue : String := "true"

def annotationPodName : String := "agents.x-k8s.io/pod-name"

namespace Sandbox

def restartPending (s : Sandbox) : Bool :=
  s.annotations.value annotationRestartPending = annotationRestartPendingValue

def configHash (s : Sandbox) : String := s.workload.template.annotations.value annotationConfigHash

/-- Phase 1. -/
def beginSandboxRestart (s : Sandbox) : Sandbox :=
  { s with
    replicas := 0
    annotations := s.annotations.insert annotationRestartPending annotationRestartPendingValue }

/-- Phase 2. -/
def completeSandboxRestart (s : Sandbox) : Sandbox :=
  { s with
    annotations := (s.annotations.erase annotationPodName).erase annotationRestartPending
    replicas := 1 }

end Sandbox

/-! Reconciles, update by update -/

inductive Outcome where
  | failed
  | written
  -- written, with an error in place of the answer
  | lost
  deriving DecidableEq

inductive Phase where
  | idle
  -- the config hash has been changed, and the first update of the restart comes next
  | beginning
  deriving DecidableEq

/-- The Sandbox, where the controller is, and what it still owes. -/
structure RestartState where
  sandbox : Sandbox
  phase : Phase
  -- the hash on the template has been changed, and no restart has begun or ended since
  owed : Bool
  -- the replicas before the restart that is under way
  before : Option Int
  -- every restart that has ended has left the replicas from before it
  restored : Bool

inductive RestartAction where
  -- a reconcile up to its first update, with the answer to the read that looks for the mark
  | reconcile (spec : RuntimeSpec) (configHash : String) (found : Bool) (outcome : Outcome)
  | beginRestart (outcome : Outcome)
  | crash
  | edit (sandbox : Sandbox)

namespace RestartState

variable (s : RestartState)

def begun : RestartState :=
  { s with
    sandbox := s.sandbox.beginSandboxRestart
    phase := .idle
    owed := false
    before := s.before.or (some s.sandbox.replicas) }

def completed : RestartState :=
  { s with
    sandbox := s.sandbox.completeSandboxRestart
    owed := false
    before := none
    restored := s.restored && s.before.all (· = s.sandbox.completeSandboxRestart.replicas) }

/-- The update of `applyWorkloadConfig`, and whether the same reconcile goes on to restart. A
restart is owed by the change of the hash, whatever the controller makes of it. -/
def applied (spec : RuntimeSpec) (configHash : String) (continues : Bool) : RestartState :=
  let (workload, begins) := applyWorkloadConfig spec configHash s.sandbox.workload
  let sandbox := { s.sandbox with workload := workload }
  { s with
    sandbox := sandbox
    phase := if begins && continues then .beginning else .idle
    owed := s.owed || sandbox.configHash ≠ s.sandbox.configHash }

def step : RestartAction → Option RestartState
  | .reconcile spec configHash found outcome =>
    if s.phase = .idle ∧ spec.kind = kindSandbox then
      if found && s.sandbox.restartPending then
        match outcome with
        | .failed => some s
        | .written | .lost => some s.completed
      else if alreadyConfigured spec configHash s.sandbox.workload then some s
      else
        match outcome with
        | .failed => some s
        | .written => some (s.applied spec configHash true)
        | .lost => some (s.applied spec configHash false)
    else none
  | .beginRestart outcome =>
    if s.phase = .beginning then
      match outcome with
      | .failed => some { s with phase := .idle }
      | .written | .lost => some s.begun
    else none
  | .crash => some { s with phase := .idle }
  | .edit sandbox =>
    if sandbox.configHash = s.sandbox.configHash ∧
        sandbox.restartPending = s.sandbox.restartPending then
      some { s with sandbox := sandbox }
    else none

structure Consistent : Prop where
  restart : s.phase = .idle → s.owed = true → s.sandbox.restartPending = true ∨
    ∀ spec configHash, alreadyConfigured spec configHash s.sandbox.workload = false
  replicas : s.restored = true

end RestartState

def restartSystem (sandbox : Sandbox) : System RestartState RestartAction where
  init := ⟨sandbox, .idle, false, none, true⟩
  step s := s.step

/-- What must not happen in between: a first hash is given to the Sandbox, an update that changes
the hash is answered with an error, the first update of the restart fails or the controller crashes
before it, all of this unless a restart is pending already; and a restart does not begin at other
replicas than one. -/
def Uninterrupted (s : RestartState) : RestartAction → Prop
  | .reconcile _ configHash _ .lost =>
    s.sandbox.configHash = configHash ∨ s.sandbox.restartPending = true
  | .reconcile _ configHash _ .written =>
    s.sandbox.configHash ≠ "" ∨ s.sandbox.configHash = configHash ∨ s.sandbox.restartPending = true
  | .reconcile _ _ _ .failed => True
  | .beginRestart .failed => s.sandbox.restartPending = true
  | .beginRestart _ => s.before = none → s.sandbox.replicas = 1
  | .crash => s.phase = .beginning → s.sandbox.restartPending = true
  | .edit _ => True

/-! Invariants -/

/-- An update that changes the hash writes the new one, and of a Sandbox that had a hash it begins
a restart. -/
theorem applyWorkloadConfig_changed {spec : RuntimeSpec} {configHash : String} {w : Workload}
    (h : (applyWorkloadConfig spec configHash w).1.template.annotations.value annotationConfigHash ≠
      w.template.annotations.value annotationConfigHash) :
    w.template.annotations.value annotationConfigHash ≠ configHash ∧
      (spec.kind = kindSandbox → w.template.annotations.value annotationConfigHash ≠ "" →
        (applyWorkloadConfig spec configHash w).2 = true) := by
  unfold applyWorkloadConfig at h ⊢
  split
  next same =>
    rw [if_pos same] at h
    exact absurd rfl h
  next differs =>
    rw [if_neg differs] at h
    have changed : w.template.annotations.value annotationConfigHash ≠ configHash := by
      simpa [StringMap.value, AList.lookup_insert_ne, annotationConfigHash, annotationMTLSMode,
        ne_comm] using h
    refine ⟨changed, fun kind enrolled => ?_⟩
    simpa [kindSandbox, kind, enrolled] using changed

variable {s : RestartState}

structure RestartInv (s : RestartState) : Prop where
  owed : s.owed = true → s.phase = .beginning ∨ s.sandbox.restartPending = true
  before : ∀ n ∈ s.before, n = 1
  restored : s.restored = true

theorem RestartInv.completed (inv : RestartInv s) : RestartInv s.completed where
  owed h := nomatch h
  before := nofun
  restored := by
    simp only [RestartState.completed, inv.restored, Bool.true_and]
    cases hbefore : s.before with
    | none => rfl
    | some n => simp [inv.before n hbefore, Sandbox.completeSandboxRestart]

theorem RestartInv.begun (inv : RestartInv s) (one : s.before = none → s.sandbox.replicas = 1) :
    RestartInv s.begun where
  owed h := nomatch h
  before n mem := by
    cases hbefore : s.before with
    | none =>
      simp only [RestartState.begun, hbefore, Option.none_or, Option.mem_def,
        Option.some.injEq] at mem
      rw [← mem, one hbefore]
    | some m =>
      simp only [RestartState.begun, hbefore, Option.some_or, Option.mem_def,
        Option.some.injEq] at mem
      rw [← mem, inv.before m hbefore]
  restored := inv.restored

theorem RestartInv.applied (inv : RestartInv s) (idle : s.phase = .idle) {spec : RuntimeSpec}
    {configHash : String} {continues : Bool} (kind : spec.kind = kindSandbox)
    (safe : s.sandbox.configHash ≠ "" ∧ continues = true ∨ s.sandbox.configHash = configHash ∨
      s.sandbox.restartPending = true) :
    RestartInv (s.applied spec configHash continues) where
  owed h := by
    have pending : s.owed = true → s.sandbox.restartPending = true := fun owed =>
      (inv.owed owed).resolve_left (by rw [idle]; exact nofun)
    simp only [RestartState.applied, Bool.or_eq_true, decide_eq_true_eq] at h ⊢
    rcases h with owed | changed
    · exact .inr (pending owed)
    · obtain ⟨differs, begins⟩ := applyWorkloadConfig_changed changed
      rcases safe with ⟨enrolled, continues⟩ | same | pending
      · simp [begins kind enrolled, continues]
      · exact absurd same differs
      · exact .inr pending
  before := inv.before
  restored := inv.restored

theorem RestartInv.step {s' : RestartState} {action : RestartAction} (inv : RestartInv s)
    (guard : Uninterrupted s action) (h : s.step action = some s') : RestartInv s' := by
  revert h
  fun_cases RestartState.step <;> rintro ⟨⟩
  case case1 | case4 | case5 => exact inv
  case case2 | case3 => exact inv.completed
  case case6 enabled _ _ =>
    exact inv.applied enabled.1 enabled.2 (guard.imp_left fun enrolled => ⟨enrolled, rfl⟩)
  case case7 enabled _ _ => exact inv.applied enabled.1 enabled.2 (.inr guard)
  case case9 => exact ⟨fun _ => .inr guard, inv.before, inv.restored⟩
  case case10 | case11 => exact inv.begun guard
  case case13 =>
    exact ⟨fun owed => .inr ((inv.owed owed).elim guard id), inv.before, inv.restored⟩
  case case14 same =>
    exact ⟨fun owed => (inv.owed owed).imp_right fun pending => same.2.trans pending,
      inv.before, inv.restored⟩

/-- In every run without an interruption, no restart is missed and each leaves the replicas as
they were, whatever else fails and however often reconciles are retried. -/
theorem restart_consistent_of_uninterrupted {sandbox : Sandbox} {s : RestartState}
    (h : (restartSystem sandbox).Reachable Uninterrupted s) : s.Consistent := by
  have init : RestartInv (restartSystem sandbox).init := ⟨nofun, nofun, rfl⟩
  have inv : RestartInv s :=
    h.invariant (I := RestartInv) init fun _ _ _ inv guard step => inv.step guard step
  refine ⟨fun idle owed => .inl ?_, inv.restored⟩
  exact (inv.owed owed).resolve_left (by rw [idle]; exact nofun)

instance (s : RestartState) : DecidablePred (Uninterrupted s) := by
  intro action
  unfold Uninterrupted
  split <;> infer_instance

/-! Runs of one Sandbox whose configuration changes -/

namespace ChangedConfig

def spec : RuntimeSpec := ⟨"agent", "", kindSandbox⟩

def configured (configHash : String) : Workload :=
  (applyWorkloadConfig spec configHash ⟨∅, ⟨∅, ∅⟩⟩).1

def sandbox (replicas : Int) : Sandbox := ⟨configured "old", ∅, replicas⟩

def change : RestartAction := .reconcile spec "new" true .written

/-- The controller crashes and an update of the second phase fails, but not between the first
two updates. -/
theorem consistent_after_retried_restart :
    ∃ s, (restartSystem (sandbox 1)).Reachable Uninterrupted s ∧
      (s.sandbox.replicas = 1 ∧ s.sandbox.configHash = "new") ∧ s.Consistent := by
  obtain ⟨s, ran, ended⟩ : ∃ s ∈ (restartSystem (sandbox 1)).run Uninterrupted
      [change, .beginRestart .written, .crash, .reconcile spec "new" true .failed,
        .reconcile spec "new" true .written, .reconcile spec "new" true .written],
      s.sandbox.replicas = 1 ∧ s.sandbox.configHash = "new" := by
    decide +kernel
  have reached := System.reachable_of_run _ ran
  exact ⟨s, reached, ended, restart_consistent_of_uninterrupted reached⟩

/-- A crash after the update of the hash leaves the Sandbox with its old pod for good, and a
restart scales a Sandbox up that was at zero. -/
theorem crash_misses_restart :
    (∃ s, (restartSystem (sandbox 1)).Reachable System.anyAction s ∧
      s.sandbox.replicas = 1 ∧ ¬s.Consistent) ∧
    ∃ s, (restartSystem (sandbox 0)).Reachable System.anyAction s ∧
      s.sandbox.replicas = 1 ∧ ¬s.Consistent := by
  constructor
  · obtain ⟨s, ran, ended, idle, owed, notPending, configured⟩ :
        ∃ s ∈ (restartSystem (sandbox 1)).run System.anyAction
          [change, .crash, .reconcile spec "new" true .written], s.sandbox.replicas = 1 ∧
        s.phase = .idle ∧ s.owed = true ∧ s.sandbox.restartPending = false ∧
        alreadyConfigured spec "new" s.sandbox.workload = true := by
      decide +kernel
    refine ⟨s, System.reachable_of_run _ ran, ended, fun consistent => ?_⟩
    rcases consistent.restart idle owed with pending | notConfigured
    · rw [notPending] at pending
      cases pending
    · rw [notConfigured] at configured
      cases configured
  · obtain ⟨s, ran, ended, notRestored⟩ : ∃ s ∈ (restartSystem (sandbox 0)).run System.anyAction
        [change, .beginRestart .written, .reconcile spec "new" true .written],
        s.sandbox.replicas = 1 ∧ s.restored = false := by
      decide +kernel
    refine ⟨s, System.reachable_of_run _ ran, ended, fun consistent => ?_⟩
    rw [consistent.replicas] at notRestored
    cases notRestored

end ChangedConfig

end Kagenti.Operator.AgentRuntime
