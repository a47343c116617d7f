import Kagenti.Operator.Webhook.Disjointness

/-!
What a call of `InjectAuthBridge` leaves behind, also when it does not inject: each return leaves
the pod and the cluster as they are at that point.
-/

namespace Kagenti.Operator.Webhook

open Go AgentRuntime Lib.Outcome
open Injector (authBridgeProxyContainerName)

/-! The frame of a call that does not inject -/

def Write.changes (stored : AgentConfigMap → Bool) : Write → Bool
  | .serviceAccount _ _ => true
  | .configMap cm => !stored cm

/-- The pod is as it was, and so is the cluster. -/
structure Returned.Framed (stored : AgentConfigMap → Bool) (spec : PodSpec) (r : Returned) :
    Prop where
  pod : r.spec = spec
  cluster : ∀ w ∈ r.writes, w.changes stored = false

namespace PodMutator

variable (m : PodMutator) (stored : AgentConfigMap → Bool) (ns crName : String)
  (labels : Option StringMap) (annotations : StringMap) (spec : PodSpec)

def KeepsAccount (p : Posture) : Prop :=
  lacksAccount spec p = true →
    spec.serviceAccountName = crName ∧ m.createServiceAccount ns crName ≠ .ok ()

/-- No container has a port that an injection would move. -/
def NothingToMove : Prop :=
  ∀ c ∈ spec.containers, c.name = authBridgeProxyContainerName ∨ c.ports = []

def LeavesNoTrace (p : Posture) : Prop :=
  match p.mode with
  | .waypoint => True
  | .proxySidecar | .lite => NothingToMove spec ∨ ∃ e, choosePorts spec.containers = .error e
  | .envoySidecar => ∀ cm, m.ensurePerAgentConfigMap ns crName
      (readNamespaceConfig m.apiReader ns) (envoyOverrides p) = .ok cm → stored cm = true

end PodMutator

variable {cs : List Container}

theorem relocate_eq_self_iff {port : Int} (new : port ∉ declaredPorts cs) :
    relocate port cs = cs ↔ ∀ c ∈ cs, c.name = authBridgeProxyContainerName ∨ c.ports = [] := by
  induction cs with
  | nil => simp [relocate]
  | cons c cs ih =>
    rw [declaredPorts, List.flatMap_cons, List.mem_append, not_or] at new
    rw [relocate, List.forall_mem_cons]
    by_cases sidecar : c.name = authBridgeProxyContainerName
    · rw [if_pos sidecar, List.cons_inj_right, ih new.2]
      simp [sidecar]
    · rw [if_neg sidecar]
      cases ports : c.ports with
      | nil =>
        rw [List.cons_inj_right, ih new.2]
        simp
      | cons p ps => grind

theorem newAgent_notMem {ports : Ports} (h : choosePorts cs = .ok ports) :
    ports.newAgent ∉ declaredPorts cs :=
  fun declared => (Chosen.of_choosePorts h).agent_not_mem (List.mem_cons_of_mem _ declared)

namespace PodMutator

variable {m : PodMutator} {stored : AgentConfigMap → Bool} {ns crName : String}
  {labels : Option StringMap} {annotations : StringMap} {spec settled : PodSpec} {p : Posture}
  {nsConfig : NamespaceConfig} {writes : List Write}

theorem lacksAccount_iff : lacksAccount spec p = true ↔ p.spireEnabled = true ∧
    (spec.serviceAccountName = "" ∨ spec.serviceAccountName = "default") := by
  simp [lacksAccount]

theorem exists_settled_iff : (∃ settled, m.settleServiceAccount p ns crName spec = .ok settled) ↔
    (lacksAccount spec p = true → m.ensureServiceAccount ns crName = .ok ()) := by
  simp only [settleServiceAccount_eq_ok, lacksAccount_iff]
  split
  · next lacks => simp [lacks]
  · next has => simp [has]

theorem framed_settled_iff (stored : AgentConfigMap → Bool)
    (h : m.settleServiceAccount p ns crName spec = .ok settled) :
    (settled = spec ∧ ∀ w ∈ m.accountWrites ns crName spec p, w.changes stored = false) ↔
      m.KeepsAccount ns crName spec p := by
  rw [settleServiceAccount_eq_ok] at h
  unfold KeepsAccount accountWrites
  by_cases lacks : lacksAccount spec p = true
  · rw [if_pos (lacksAccount_iff.mp lacks)] at h
    obtain ⟨-, rfl⟩ := h
    have renamed : ({ spec with serviceAccountName := crName } : PodSpec) = spec ↔
        spec.serviceAccountName = crName :=
      ⟨fun same => (congrArg PodSpec.serviceAccountName same).symm, fun same => by rw [← same]⟩
    simp only [lacks, true_and, forall_const, renamed]
    refine and_congr_right fun _ => ?_
    by_cases created : m.createServiceAccount ns crName = .ok ()
    · simp [created, Write.changes]
    · simp [created]
  · rw [if_neg (mt lacksAccount_iff.mpr lacks)] at h
    subst h
    simp [lacks]

section Modes

variable {before : PodSpec}

theorem framed_injectProxySidecar_iff
    (account : { before with serviceAccountName := spec.serviceAccountName } = spec)
    (h : (m.injectProxySidecar ns crName annotations spec p nsConfig writes).mutated ≠ .ok true) :
    (m.injectProxySidecar ns crName annotations spec p nsConfig writes).Framed stored before ↔
      (spec = before ∧ ∀ w ∈ writes, w.changes stored = false) ∧
        (NothingToMove before ∨ ∃ e, choosePorts before.containers = .error e) := by
  have containers : before.containers = spec.containers := by rw [← account]
  unfold injectProxySidecar at h ⊢
  rw [NothingToMove, containers]
  cases chosen : choosePorts spec.containers with
  | error e =>
    simp only [Except.error.injEq, exists_eq', or_true, and_true]
    exact ⟨fun framed => ⟨framed.pod, framed.cluster⟩, fun ⟨pod, cluster⟩ => ⟨pod, cluster⟩⟩
  | ok ports =>
    have moves := relocate_eq_self_iff (newAgent_notMem chosen)
    rw [chosen] at h
    dsimp only at h ⊢
    cases applied : m.ensurePerAgentConfigMap ns crName nsConfig (proxyOverrides p ports) with
    | ok cm =>
      rw [applied] at h
      exact absurd rfl h
    | error e =>
      simp only [reduceCtorEq, exists_false, or_false, ← moves]
      constructor
      · rintro ⟨pod, cluster⟩
        have stays : relocate ports.newAgent spec.containers = spec.containers := by
          rw [← containers]
          exact containers ▸ congrArg PodSpec.containers pod
        rw [stays] at pod
        exact ⟨⟨pod, cluster⟩, stays⟩
      · rintro ⟨⟨pod, cluster⟩, stays⟩
        refine ⟨?_, cluster⟩
        rw [stays]
        exact pod

theorem framed_injectEnvoySidecar_iff
    (h : (m.injectEnvoySidecar ns crName annotations spec p nsConfig writes).mutated ≠ .ok true) :
    (m.injectEnvoySidecar ns crName annotations spec p nsConfig writes).Framed stored before ↔
      (spec = before ∧ ∀ w ∈ writes, w.changes stored = false) ∧
        ∀ cm, m.ensurePerAgentConfigMap ns crName nsConfig (envoyOverrides p) = .ok cm →
          stored cm = true := by
  unfold injectEnvoySidecar at h ⊢
  cases applied : m.ensurePerAgentConfigMap ns crName nsConfig (envoyOverrides p) with
  | error e =>
    simp only [reduceCtorEq, false_implies, implies_true, and_true]
    exact ⟨fun framed => ⟨framed.pod, framed.cluster⟩, fun ⟨pod, cluster⟩ => ⟨pod, cluster⟩⟩
  | ok cm =>
    rw [applied] at h
    cases envoy : m.ensurePerAgentEnvoyConfigMap ns crName p.mtlsMode with
    | ok envoyCM =>
      rw [envoy] at h
      exact absurd rfl h
    | error e =>
      simp only [Except.ok.injEq, forall_eq']
      constructor
      · rintro ⟨pod, cluster⟩
        have last := cluster (.configMap cm) (List.mem_append_right _ List.mem_cons_self)
        refine ⟨⟨pod, fun w hw => cluster w (List.mem_append_left _ hw)⟩, ?_⟩
        simpa [Write.changes] using last
      · rintro ⟨⟨pod, cluster⟩, known⟩
        refine ⟨pod, fun w hw => ?_⟩
        rcases List.mem_append.mp hw with hw | hw
        · exact cluster w hw
        · rw [List.mem_singleton.mp hw, Write.changes, known]
          rfl

end Modes

/-- A call that does not inject leaves the pod and the cluster as they were exactly if it comes to
an end before the ServiceAccount is settled, or the pod keeps its account and nothing after it
leaves a trace. -/
theorem framed_iff_keepsAccount (h : (m.call ns crName labels annotations spec).mutated ≠ .ok true) :
    (m.call ns crName labels annotations spec).Framed stored spec ↔
      (injectable m.featureGates labels = true →
        (lacksAccount spec (m.posture ns labels annotations) = true →
          m.ensureServiceAccount ns crName = .ok ()) →
        m.KeepsAccount ns crName spec (m.posture ns labels annotations) ∧
          m.LeavesNoTrace stored ns crName spec (m.posture ns labels annotations)) := by
  rw [← exists_settled_iff]
  unfold call at h ⊢
  dsimp only at h ⊢
  split
  · next on =>
    rw [if_pos on] at h
    cases settles : m.settleServiceAccount (m.posture ns labels annotations) ns crName spec with
    | error e =>
      simp only [reduceCtorEq, exists_false, false_implies, implies_true, iff_true]
      exact ⟨rfl, fun w hw => by cases hw⟩
    | ok settled =>
      rw [settles] at h
      simp only [on, Except.ok.injEq, exists_eq', forall_const]
      rw [← framed_settled_iff stored settles]
      have account := settleServiceAccount_spec settles
      unfold LeavesNoTrace
      generalize hposture : m.posture ns labels annotations = p at h settles ⊢
      cases mode : p.mode with
      | waypoint =>
        simp only [and_true]
        exact ⟨fun framed => ⟨framed.pod, framed.cluster⟩, fun ⟨pod, cluster⟩ => ⟨pod, cluster⟩⟩
      | proxySidecar =>
        simp only [mode] at h
        exact framed_injectProxySidecar_iff account h
      | lite =>
        simp only [mode] at h
        exact framed_injectProxySidecar_iff account h
      | envoySidecar =>
        simp only [mode] at h
        exact framed_injectEnvoySidecar_iff h
  · next off =>
    simp only [off, Bool.false_eq_true, false_implies, iff_true]
    exact ⟨rfl, fun w hw => by cases hw⟩

/-- A pod that has opted out, and a pod in waypoint mode with a ServiceAccount of its own, in a
cluster with no ConfigMap. -/
theorem framed_opted_out :
    let agent := (∅ : StringMap).insert labelAgentType "agent"
    let waypoint := (∅ : StringMap).insert annotationAuthBridgeMode "waypoint"
    let pod (account : String) : PodSpec := ⟨account, [.agent "agent" []], [], [], none⟩
    (inEmptyCluster.call "team" "agent" (some (agent.insert authBridgeInjectLabel "disabled")) ∅
        (pod "")).Framed (fun _ => false) (pod "") ∧
      (inEmptyCluster.call "team" "agent" (some agent) waypoint (pod "own")).Framed (fun _ => false)
        (pod "own") := by
  refine ⟨(framed_iff_keepsAccount ?_).mpr fun on => ?_, (framed_iff_keepsAccount ?_).mpr ?_⟩
  · decide +kernel
  · exact absurd on (by decide +kernel)
  · decide +kernel
  · refine fun _ _ => ⟨fun lacks => absurd lacks (by decide +kernel), ?_⟩
    have mode : (inEmptyCluster.posture "team" (some ((∅ : StringMap).insert labelAgentType "agent"))
        ((∅ : StringMap).insert annotationAuthBridgeMode "waypoint")).mode = .waypoint := by
      decide +kernel
    simp only [LeavesNoTrace, mode]

/-- A pod in waypoint mode is not injected, and has another ServiceAccount afterwards, which was
created for it. -/
theorem waypoint_creates_account :
    let before : PodSpec := ⟨"", [.agent "agent" []], [], [], none⟩
    let after := inEmptyCluster.call "team" "agent"
      (some ((∅ : StringMap).insert labelAgentType "agent"))
      ((∅ : StringMap).insert annotationAuthBridgeMode "waypoint") before
    after.mutated = .ok false ∧ after.spec ≠ before ∧
      after.writes = [.serviceAccount "team" "agent"] := by
  decide +kernel

end PodMutator

end Kagenti.Operator.Webhook
