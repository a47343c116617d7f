import Mathlib.Tactic.Tauto
import Kagenti.AuthBridge.Config
import Kagenti.Operator.Webhook.Additions
import Kagenti.Operator.Webhook.Effects

/-!
Which pods have their ports apart after an injection in proxy-sidecar or lite mode. The search for
ports knows neither the listeners that the sidecar's own preset (`authlib/config/presets.go`) adds
nor the ports of init containers.
-/

namespace Kagenti.Operator.Webhook

open Lib.Keyed Lib.Outcome
open Injector (authBridgeProxyContainerName nextFree nextPort Room)

/-! The ports of a pod -/

/-- The ports that the containers other than the sidecar declare. -/
def appPorts (cs : List Container) : List Int :=
  declaredPorts (cs.filter fun c => c.name ≠ authBridgeProxyContainerName)

/-- All ports that a pod declares but the first one, which is the agent's. -/
def otherPorts (spec : PodSpec) : List Int :=
  (appPorts spec.containers).tail ++ declaredPorts spec.initContainers

def Container.exposed (c : Container) : String × List ContainerPort := (c.name, c.ports)

theorem appPorts_cons (c : Container) (cs : List Container) : appPorts (c :: cs) =
    (if c.name = authBridgeProxyContainerName then [] else
      c.ports.map ContainerPort.containerPort) ++ appPorts cs := by
  by_cases h : c.name = authBridgeProxyContainerName <;> simp [appPorts, declaredPorts, h]

theorem appPorts_congr {cs cs' : List Container}
    (h : cs.map Container.exposed = cs'.map Container.exposed) : appPorts cs = appPorts cs' := by
  have eq (cs : List Container) : appPorts cs =
      ((cs.map Container.exposed).filter fun e => e.1 ≠ authBridgeProxyContainerName).flatMap
        fun e => e.2.map ContainerPort.containerPort := by
    rw [List.filter_map, List.flatMap_map]
    rfl
  rw [eq, eq, h]

theorem appPorts_relocate (p : Int) (cs : List Container) :
    (appPorts (relocate p cs)).tail = (appPorts cs).tail := by
  induction cs with
  | nil => rfl
  | cons c cs ih =>
    rw [relocate]
    split
    next hsidecar => simpa [appPorts_cons, hsidecar] using ih
    next happ =>
      split
      next hports => simpa [appPorts_cons, hports] using ih
      next hports => simp [appPorts_cons, happ, hports]

theorem exposed_finishContainer (credentials : String) (tlsBridge : Bool) (c : Container) :
    (finishContainer credentials tlsBridge c).exposed = c.exposed := by
  have bridged (c : Container) : (mountTLSBridge c).ports = c.ports := by
    unfold mountTLSBridge
    split <;> rfl
  have mounted : (withCredentials credentials c).ports = c.ports := by
    unfold withCredentials mountCredentials
    split
    · rfl
    · split <;> rfl
  rw [Container.exposed, name_finishContainer, Container.exposed, finishContainer]
  split
  · rw [bridged, mounted]
  · rw [mounted]

/-- An injection leaves the other ports as they are. -/
theorem otherPorts_placeProxySidecar (b : ContainerBuilder) (p : Posture) (annotations : Go.StringMap)
    (volumes : List Volume) (crName : String) (ports : Ports) (spec : PodSpec) :
    otherPorts (placeProxySidecar b p annotations volumes crName ports spec) = otherPorts spec := by
  unfold placeProxySidecar
  obtain ⟨fsGroup, finished⟩ := finishPod_eq annotations _ p crName p.tlsBridge
  rw [finished]
  have finish (cs : List Container) : appPorts (cs.map (finishContainer
      (credentialsSecretName annotations) p.tlsBridge)) = appPorts cs := by
    refine appPorts_congr ?_
    rw [List.map_map]
    exact List.map_congr_left fun c _ => exposed_finishContainer _ _ c
  have added (cs : List Container) : appPorts (addIfMissing Container.name cs
      (b.buildProxySidecarContainerWithPorts p.spireEnabled (proxyImage b p) ports.original
        ports.forwardProxy)) = appPorts cs := by
    unfold addIfMissing
    split
    · rfl
    · rw [appPorts, List.filter_append]
      exact congrArg declaredPorts (List.append_nil _)
  have inits : declaredPorts (if p.egressEnforcement = .enforceRedirect then
      addIfMissing Container.name spec.initContainers (b.buildProxyInitContainer .enforceRedirect "" "")
      else spec.initContainers) = declaredPorts spec.initContainers := by
    split
    · unfold addIfMissing
      split
      · rfl
      · rw [declaredPorts, List.flatMap_append]
        exact List.append_nil _
    · rfl
  have env {cs cs' : List Container} := @appPorts_congr cs cs'
  rw [otherPorts, finish, env (map_injectHTTPProxyEnvs (fun _ _ => rfl) _ _),
    env (map_setEnvOf (fun _ _ => rfl) _ _ _ _), added, appPorts_relocate, inits]
  rfl

/-! What an injection chooses -/

def usedPorts (cs : List Container) : List Int := originalAgentPort cs :: declaredPorts cs

def searchStart (cs : List Container) : Int := nextPort (originalAgentPort cs)

structure Chosen (cs : List Container) (ports : Ports) : Prop where
  original_eq : ports.original = originalAgentPort cs
  agent_eq : nextFree (usedPorts cs) (searchStart cs) = ports.newAgent
  agent_le : ports.newAgent ≤ 65535
  forward_eq : nextFree (ports.newAgent :: usedPorts cs) 8081 = ports.forwardProxy
  forward_le : ports.forwardProxy ≤ 65535

/-- Neither search ends at the port: it is taken before, or there is a free one earlier. -/
def Missed (cs : List Container) (q : Int) : Prop :=
  q ∈ usedPorts cs ∨
    (q < searchStart cs ∨ Room (usedPorts cs) (searchStart cs) q) ∧
      (q < 8081 ∨ ∃ p, 8081 ≤ p ∧ p < q ∧ p ∉ usedPorts cs ∧
        (p < searchStart cs ∨ Room (usedPorts cs) (searchStart cs) p))

section Choice

variable {cs : List Container} {ports : Ports} {q : Int}

theorem Chosen.of_choosePorts (h : choosePorts cs = .ok ports) : Chosen cs ports := by
  simp only [choosePorts, bind_eq_ok, pure_eq_ok] at h
  obtain ⟨⟨agent, used⟩, hagent, ⟨forward, used'⟩, hforward, rfl⟩ := h
  obtain ⟨agent_eq, agent_le, rfl⟩ := Injector.findFreePort_ok hagent
  obtain ⟨forward_eq, forward_le, -⟩ := Injector.findFreePort_ok hforward
  exact ⟨rfl, agent_eq, agent_le, forward_eq, forward_le⟩

variable (h : Chosen cs ports)

include h

theorem Chosen.agent_not_mem : ports.newAgent ∉ usedPorts cs := by
  have hle := h.agent_le
  rw [← h.agent_eq] at hle ⊢
  exact Injector.nextFree_not_mem hle

theorem Chosen.forward_not_mem : ports.forwardProxy ∉ ports.newAgent :: usedPorts cs := by
  have hle := h.forward_le
  rw [← h.forward_eq] at hle ⊢
  exact Injector.nextFree_not_mem hle

theorem Chosen.agent_ne_iff (hq : q ∉ usedPorts cs) :
    ports.newAgent ≠ q ↔ q < searchStart cs ∨ Room (usedPorts cs) (searchStart cs) q := by
  have hle := h.agent_le
  rw [← h.agent_eq] at hle ⊢
  exact Injector.nextFree_ne_iff hle hq

theorem Chosen.forward_ne_iff (hq : q ∉ usedPorts cs) (hagent : ports.newAgent ≠ q) :
    ports.forwardProxy ≠ q ↔ q < 8081 ∨ ∃ p, 8081 ≤ p ∧ p < q ∧ p ∉ usedPorts cs ∧
      (p < searchStart cs ∨ Room (usedPorts cs) (searchStart cs) p) := by
  have hle := h.forward_le
  have hq' : q ∉ ports.newAgent :: usedPorts cs := by
    simpa [List.mem_cons, not_or] using ⟨hagent.symm, hq⟩
  rw [← h.forward_eq] at hle ⊢
  rw [Injector.nextFree_ne_iff hle hq']
  apply or_congr_right
  -- a port that the agent leaves free is one that its search does not come to
  constructor
  · rintro ⟨p, hstart, hlt, hfree⟩
    rw [List.mem_cons, not_or] at hfree
    exact ⟨p, hstart, hlt, hfree.2, (h.agent_ne_iff hfree.2).mp (Ne.symm hfree.1)⟩
  · rintro ⟨p, hstart, hlt, hfree, hroom⟩
    refine ⟨p, hstart, hlt, ?_⟩
    rw [List.mem_cons, not_or]
    exact ⟨((h.agent_ne_iff hfree).mpr hroom).symm, hfree⟩

theorem Chosen.missed_iff (q : Int) :
    (ports.newAgent ≠ q ∧ ports.forwardProxy ≠ q) ↔ Missed cs q := by
  by_cases hq : q ∈ usedPorts cs
  · refine iff_of_true ⟨?_, ?_⟩ (.inl hq)
    · rintro rfl
      exact h.agent_not_mem hq
    · rintro rfl
      exact h.forward_not_mem (List.mem_cons_of_mem _ hq)
  · rw [Missed, or_iff_right hq, ← h.agent_ne_iff hq]
    exact and_congr_right fun hagent => h.forward_ne_iff hq hagent

end Choice

/-! The listeners of the sidecar -/

def setListener (l : AuthBridge.ListenerConfig) (entry : String × String) :
    AuthBridge.ListenerConfig :=
  if entry.1 = "reverse_proxy_addr" then { l with reverseProxyAddr := entry.2 }
  else if entry.1 = "reverse_proxy_backend" then { l with reverseProxyBackend := entry.2 }
  else if entry.1 = "forward_proxy_addr" then { l with forwardProxyAddr := entry.2 }
  else l

/-- The configuration of a sidecar: a base one with its agent's overrides, after `ApplyPreset`. -/
def sidecarConfig (base : AuthBridge.Config) (o : AgentOverrides) : AuthBridge.Config :=
  AuthBridge.Config.applyPreset
    { base with mode := o.mode, listener := o.listener.foldl setListener base.listener }

def HasPort (addr : String) (p : Int) : Prop := ∃ host, addr = host ++ ":" ++ toString p

structure ListensOn (cfg : AuthBridge.Config) (ports : Ports) (transparent session : Int) :
    Prop where
  reverseProxy : HasPort cfg.listener.reverseProxyAddr ports.original
  backend : HasPort cfg.listener.reverseProxyBackend ports.newAgent
  forwardProxy : HasPort cfg.listener.forwardProxyAddr ports.forwardProxy
  transparent : HasPort cfg.listener.transparentProxyAddr transparent
  session : HasPort cfg.listener.sessionAPIAddr session

/-- The sidecar listens on the ports that the injection chose. -/
theorem listensOn_iff {base : AuthBridge.Config} {p : Posture} {ports : Ports}
    {transparent session : Int} :
    ListensOn (sidecarConfig base (PodMutator.proxyOverrides p ports)) ports transparent session ↔
      HasPort (AuthBridge.Config.setDefault base.listener.transparentProxyAddr ":8082") transparent ∧
        HasPort (AuthBridge.Config.setDefault base.listener.sessionAPIAddr ":9094") session := by
  have chosen (q : Int) (default : String) :
      AuthBridge.Config.setDefault (":" ++ toString q) default = "" ++ ":" ++ toString q :=
    if_neg (by simp [String.append_eq_empty_iff])
  have mode : (PodMutator.proxyOverrides p ports).mode = "proxy-sidecar" := rfl
  have listener : (PodMutator.proxyOverrides p ports).listener.foldl setListener base.listener =
      { base.listener with
        reverseProxyAddr := ":" ++ toString ports.original
        reverseProxyBackend := "http://127.0.0.1:" ++ toString ports.newAgent
        forwardProxyAddr := ":" ++ toString ports.forwardProxy } := rfl
  constructor
  · rintro ⟨-, -, -, transparent, session⟩
    simp [sidecarConfig, AuthBridge.Config.applyPreset, mode, listener] at transparent session
    exact ⟨transparent, session⟩
  · rintro ⟨transparent, session⟩
    refine ⟨⟨"", ?_⟩, ⟨"http://127.0.0.1", ?_⟩, ⟨"", ?_⟩, ?_, ?_⟩ <;>
      simp_all [sidecarConfig, AuthBridge.Config.applyPreset]

/-! Ports apart -/

def boundPorts (ports : Ports) (transparent session : Int) : List Int :=
  [ports.original, ports.newAgent, ports.forwardProxy, transparent, session]

/-- The sidecar listens on ports that differ, also with traffic redirected to `redirects`, and no
container of the pod declares one of them. -/
structure PortsApart (cfg : AuthBridge.Config) (ports : Ports) (transparent session : Int)
    (redirects : List Int) (spec : PodSpec) : Prop where
  listens : ListensOn cfg ports transparent session
  apart : ∀ port ∈ transparent :: redirects, (boundPorts ports port session).Nodup ∧
    ∀ p ∈ boundPorts ports port session, p ∉ otherPorts spec

structure Spared (spec : PodSpec) (q : Int) : Prop where
  original : q ≠ originalAgentPort spec.containers
  other : q ∉ otherPorts spec
  missed : Missed spec.containers q

theorem Chosen.apart_iff {spec : PodSpec} {ports : Ports} (h : Chosen spec.containers ports)
    (transparent session : Int) :
    (boundPorts ports transparent session).Nodup ∧
        (∀ p ∈ boundPorts ports transparent session, p ∉ otherPorts spec) ↔
      originalAgentPort spec.containers ∉ otherPorts spec ∧
        (∀ q ∈ declaredPorts spec.initContainers, Missed spec.containers q) ∧
        transparent ≠ session ∧ Spared spec transparent ∧ Spared spec session := by
  have hagent := h.agent_not_mem
  have hforward := h.forward_not_mem
  have used {q : Int} (hq : q ∈ (appPorts spec.containers).tail) : q ∈ usedPorts spec.containers := by
    obtain ⟨c, hc, declared⟩ := List.mem_flatMap.mp (List.mem_of_mem_tail hq)
    exact List.mem_cons_of_mem _ (List.mem_flatMap.mpr ⟨c, List.mem_of_mem_filter hc, declared⟩)
  have inits : (∀ q ∈ declaredPorts spec.initContainers, Missed spec.containers q) ↔
      ports.newAgent ∉ otherPorts spec ∧ ports.forwardProxy ∉ otherPorts spec := by
    simp only [← h.missed_iff, otherPorts, List.mem_append, not_or]
    constructor
    · grind
    · rintro ⟨⟨-, agent⟩, -, forward⟩ q hq
      exact ⟨fun same => agent (same ▸ hq), fun same => forward (same ▸ hq)⟩
  have spared (q : Int) : Spared spec q ↔ q ≠ ports.original ∧ q ∉ otherPorts spec ∧
      ports.newAgent ≠ q ∧ ports.forwardProxy ≠ q := by
    rw [h.original_eq, h.missed_iff]
    exact ⟨fun ⟨a, b, c⟩ => ⟨a, b, c⟩, fun ⟨a, b, c⟩ => ⟨a, b, c⟩⟩
  have hagent_original : ports.original ≠ ports.newAgent := by
    intro same
    exact hagent (same ▸ h.original_eq ▸ List.mem_cons_self)
  have hforward_original : ports.original ≠ ports.forwardProxy := by
    intro same
    exact hforward (same ▸ h.original_eq ▸ List.mem_cons_of_mem _ List.mem_cons_self)
  have hforward_agent : ports.newAgent ≠ ports.forwardProxy := by
    intro same
    exact hforward (same ▸ List.mem_cons_self)
  rw [inits, spared, spared, ← h.original_eq]
  simp only [boundPorts, List.nodup_cons, List.mem_cons, List.not_mem_nil, or_false, not_or, not_false_eq_true,
    List.nodup_nil, and_true, forall_eq_or_imp, forall_eq]
  tauto

section Handler

variable {w : AuthBridgeWebhook} {req : Request} {pod : Pod} {cms : List AgentConfigMap}

/-- The port to which the traffic of the pod is redirected, if it is. -/
def AuthBridgeWebhook.redirects (w : AuthBridgeWebhook) (req : Request) : List Int :=
  if (w.posture req).egressEnforcement = .enforceRedirect then
    [w.mutator.platformConfig.proxy.transparentPort]
  else []

theorem otherPorts_of_handle (h : w.handle req = .patched pod cms)
    (fresh : isAlreadyInjected req.pod.spec = false)
    (mode : (w.posture req).mode = .proxySidecar ∨ (w.posture req).mode = .lite) :
    otherPorts pod.spec = otherPorts req.pod.spec := by
  obtain ⟨-, -, ⟨injected, -⟩ | ⟨-, injection⟩⟩ := AuthBridgeWebhook.handle_eq_patched.mp h
  · rw [fresh] at injected
    contradiction
  obtain ⟨-, settled, settles, ⟨-, proxied⟩ | ⟨envoy, -⟩⟩ :=
    PodMutator.injectAuthBridge_eq_some.mp injection
  · obtain ⟨ports, cm, -, -, placed⟩ := proxied
    have spec := congrArg Injection.spec placed
    rw [← show _ = pod.spec from spec, otherPorts_placeProxySidecar,
      ← PodMutator.settleServiceAccount_spec settles]
    rfl
  · rw [AuthBridgeWebhook.posture, envoy] at mode
    simp at mode

end Handler

/-! Requests of an agent with ports -/

namespace AgentWithPorts

/-- An agent with some ports beside an init container with one. -/
def request (ports : List Int) (initPort : Int) : Request :=
  let declaring (name : String) (ports : List Int) : Container :=
    { Container.agent name [] with ports := ports.map fun p => ⟨"", p, "TCP"⟩ }
  .ofStatefulSet [declaring "agent" ports] [declaring "warm-up" [initPort]] []

def base : AuthBridge.Config where
  mode := ""
  listener := ⟨"", "", "", "", "", "", "", []⟩
  pipeline := ⟨[], []⟩
  session := ⟨none, "", 0, 0⟩

open AuthBridgeWebhook in
/-- The ports of the patched pod are apart, with the listeners that the preset sets. -/
def Apart (req : Request) (ports : Ports) (spec : PodSpec) : Prop :=
  PortsApart (sidecarConfig base (PodMutator.proxyOverrides (inEmptyCluster.posture req) ports))
    ports 8082 9094 (inEmptyCluster.redirects req) spec

theorem missed_of_lt {q : Int} (hq : 8081 < q) :
    Missed (request [8000] 9000).pod.spec.containers q := by
  refine .inr ⟨.inr ⟨8001, ?_, ?_, ?_⟩, .inr ⟨8081, ?_, hq, ?_, .inr ⟨8001, ?_, ?_, ?_⟩⟩⟩ <;>
    first | decide +kernel | omega

end AgentWithPorts

end Kagenti.Operator.Webhook
