import Kagenti.Operator.Webhook.WellFormed

/-!
The handler is idempotent: a pod that it has let through is one that it leaves alone. The next pass
may see a later state of the cluster, in which the ServiceAccount exists.
-/

namespace Kagenti.Operator.Webhook

open Go AgentRuntime Lib.Keyed Lib.Outcome
open Injector (authBridgeProxyContainerName envoyProxyContainerName proxyInitContainerName)

/-! Credentials -/

structure Mounted (credentials : String) (spec : PodSpec) : Prop where
  volume : credentials ∈ spec.volumes.map Volume.name
  files : ∀ c ∈ spec.containers, Shares c →
    (credentials, clientSecretPath) ∈ c.volumeMounts.map VolumeMount.place ∧
      (credentials, clientIDPath) ∈ c.volumeMounts.map VolumeMount.place

section Credentials

variable {credentials crName : String} {annotations : StringMap} {spec : PodSpec} {c : Container}

theorem needsPatch_of_mounted
    (h : credentialsSecretName annotations ≠ "" → Mounted (credentialsSecretName annotations) spec) :
    needsKeycloakClientCredentialsVolumePatch spec annotations = false := by
  unfold needsKeycloakClientCredentialsVolumePatch
  generalize credentialsSecretName annotations = credentials at h
  by_cases none : credentials = ""
  · simp [none]
  · obtain ⟨volume, files⟩ := h none
    have mounted : ∀ c ∈ spec.containers, Shares c →
        containerHasKeycloakCredentialsMount c credentials clientSecretPath = true ∧
          containerHasKeycloakCredentialsMount c credentials clientIDPath = true :=
      fun c hc shared => (files c hc shared).imp hasKey_iff.mpr hasKey_iff.mpr
    have present : volumeExists spec.volumes credentials = true := hasKey_iff.mpr volume
    simp only [keycloakClientCredentialsVolumeName, present, Bool.not_true, Bool.false_or,
      Bool.and_eq_false_iff, List.any_eq_false, Bool.and_eq_true, not_and]
    refine .inr fun c hc shared => ?_
    obtain ⟨secret, id⟩ := mounted c hc (hasKey_iff.mp shared)
    simp [secret, id]

theorem tlsBridgeVolumeFor_ne_shared : tlsBridgeVolumeFor c ≠ "shared-data" := by
  unfold tlsBridgeVolumeFor
  split <;> decide

variable {tlsBridge : Bool} {p : Posture}

theorem shares_of_finishContainer (h : Shares (finishContainer credentials tlsBridge c)) :
    Shares c := by
  have before : Shares (withCredentials credentials c) → Shares c := fun shared =>
    ((mem_names_withCredentials (by decide)).mp shared).elim id And.left
  cases tlsBridge with
  | false => exact before h
  | true =>
    have named : "shared-data" ∈ (mountTLSBridge (withCredentials credentials c)).volumeMounts.map
        VolumeMount.name := h
    rw [volumeMounts_mountTLSBridge, mem_map_addIfMissing] at named
    exact before (named.resolve_right tlsBridgeVolumeFor_ne_shared.symm)

theorem place_mem_mountCredentials (shared : Shares c) :
    (credentials, clientSecretPath) ∈
        (mountCredentials credentials c).volumeMounts.map VolumeMount.place ∧
      (credentials, clientIDPath) ∈
        (mountCredentials credentials c).volumeMounts.map VolumeMount.place := by
  have mounted : mountCredentials credentials c =
      appendSubPathMount credentials "client-id.txt" clientIDPath
        (appendSubPathMount credentials "client-secret.txt" clientSecretPath c) :=
    if_pos (hasKey_iff.mpr shared)
  rw [mounted]
  refine ⟨mem_map_addIfMissing.mpr (.inl ?_), mem_map_addIfMissing.mpr (.inr rfl)⟩
  exact mem_map_addIfMissing.mpr (.inr rfl)

theorem place_mem_finishContainer {place : String × String}
    (h : place ∈ (withCredentials credentials c).volumeMounts.map VolumeMount.place) :
    place ∈ (finishContainer credentials tlsBridge c).volumeMounts.map VolumeMount.place := by
  cases tlsBridge with
  | false => exact h
  | true =>
    unfold finishContainer
    rw [if_pos rfl, volumeMounts_mountTLSBridge]
    exact (sublist_addIfMissing.map _).subset h

theorem mounted_of_finished (crName : String) {spec' : PodSpec} (some : credentials ≠ "")
    (containers : spec'.containers = spec.containers.map (finishContainer credentials tlsBridge))
    (volumes : spec'.volumes = finishVolumes credentials crName tlsBridge spec.volumes) :
    Mounted credentials spec' := by
  refine ⟨?_, ?_⟩
  · rw [volumes]
    exact mem_finishVolumes.mpr (.inl (.inr ⟨some, rfl⟩))
  · rw [containers]
    simp only [List.forall_mem_map]
    intro c hc shared
    have added : withCredentials credentials c = mountCredentials credentials c := if_neg some
    obtain ⟨secret, id⟩ := @place_mem_mountCredentials credentials c
      (shares_of_finishContainer shared)
    rw [← added] at secret id
    exact ⟨place_mem_finishContainer secret, place_mem_finishContainer id⟩

theorem applyCredentials_mounted (some : credentialsSecretName annotations ≠ "") :
    Mounted (credentialsSecretName annotations)
      (applyKeycloakClientCredentialsSecretVolumes annotations spec) := by
  rw [applyCredentials_eq]
  generalize credentialsSecretName annotations = credentials at some ⊢
  exact mounted_of_finished "" some rfl rfl

theorem finishPod_mounted (tlsBridge : Bool) (some : credentialsSecretName annotations ≠ "") :
    Mounted (credentialsSecretName annotations)
      (finishPod p annotations (if tlsBridge then applyTLSBridgeMounts crName else id) spec) := by
  obtain ⟨fsGroup, finished⟩ := finishPod_eq annotations spec p crName tlsBridge
  rw [finished]
  generalize credentialsSecretName annotations = credentials at some ⊢
  exact mounted_of_finished _ some rfl rfl

theorem mountCredentials_of_mem
    (h : Shares c → (credentials, clientSecretPath) ∈ c.volumeMounts.map VolumeMount.place ∧
      (credentials, clientIDPath) ∈ c.volumeMounts.map VolumeMount.place) :
    mountCredentials credentials c = c := by
  unfold mountCredentials
  split
  · next shared =>
    obtain ⟨secret, id⟩ := h (hasKey_iff.mp shared)
    have first : appendSubPathMount credentials "client-secret.txt" clientSecretPath c = c := by
      unfold appendSubPathMount
      rw [addIfMissing_of_mem secret]
    rw [first]
    unfold appendSubPathMount
    rw [addIfMissing_of_mem id]
  · rfl

theorem applyCredentials_of_mounted
    (h : credentialsSecretName annotations ≠ "" → Mounted (credentialsSecretName annotations) spec) :
    applyKeycloakClientCredentialsSecretVolumes annotations spec = spec := by
  unfold applyKeycloakClientCredentialsSecretVolumes
  generalize credentialsSecretName annotations = credentials at h
  dsimp only
  split
  · rfl
  · next some =>
    obtain ⟨volume, files⟩ := h some
    have volumes : addIfMissing Volume.name spec.volumes (credentialsVolume credentials) =
        spec.volumes := addIfMissing_of_mem volume
    have containers : spec.containers.map (mountCredentials credentials) = spec.containers :=
      (List.map_congr_left fun c hc => mountCredentials_of_mem (files c hc)).trans
        (List.map_id spec.containers)
    rw [keycloakClientCredentialsVolumeName, volumes, containers]

theorem names_finishPod (p : Posture) (annotations : StringMap) (crName : String) (spec : PodSpec)
    (tlsBridge : Bool) :
    let finished := finishPod p annotations (if tlsBridge then applyTLSBridgeMounts crName else id)
      spec
    finished.serviceAccountName = spec.serviceAccountName ∧
      finished.containers.map Container.name = spec.containers.map Container.name ∧
      finished.initContainers = spec.initContainers ∧
      spec.volumes.map Volume.name ⊆ finished.volumes.map Volume.name := by
  obtain ⟨fsGroup, finished⟩ := finishPod_eq annotations spec p crName tlsBridge
  rw [finished]
  generalize credentialsSecretName annotations = credentials
  refine ⟨rfl, ?_, rfl, fun v hv => mem_finishVolumes.mpr (.inl (.inl hv))⟩
  rw [List.map_map]
  exact List.map_congr_left fun c _ => name_finishContainer

theorem finishPod_of_mounted
    (h : credentialsSecretName annotations ≠ "" → Mounted (credentialsSecretName annotations) spec)
    (group : p.spireEnabled = true → spec.fsGroup ≠ none) :
    finishPod p annotations id spec = spec := by
  unfold finishPod
  rw [applyCredentials_of_mounted h]
  dsimp only [id]
  split
  · next on =>
    obtain ⟨gid, set⟩ := Option.ne_none_iff_exists'.mp (group on)
    unfold ensureFSGroup
    rw [set, Option.getD_some, ← set]
  · rfl

theorem fsGroup_finishPod (steps : PodSpec → PodSpec) (on : p.spireEnabled = true) :
    (finishPod p annotations steps spec).fsGroup ≠ none := by
  unfold finishPod
  rw [if_pos on]
  exact Option.some_ne_none _

end Credentials

/-! The pod without a sidecar -/

theorem setEnvOf_of_notMem {containerName name value : String} {cs : List Container}
    (h : containerName ∉ cs.map Container.name) : setEnvOf containerName name value cs = cs := by
  induction cs with
  | nil => rfl
  | cons c cs ih =>
    rw [List.map_cons, List.mem_cons, not_or] at h
    rw [setEnvOf, if_neg (Ne.symm h.1), ih h.2]

section Bare

variable {b : ContainerBuilder} {p : Posture} {annotations : StringMap} {volumes : List Volume}
  {spec : PodSpec}

theorem placeEnvoySidecar_of_none (noEnvoy : p.decision.envoyProxy = false)
    (noInit : p.decision.proxyInit = false)
    (fresh : envoyProxyContainerName ∉ spec.containers.map Container.name) :
    placeEnvoySidecar b p annotations volumes spec =
      finishPod p annotations id
        { spec with volumes := addAll Volume.name spec.volumes volumes } := by
  unfold placeEnvoySidecar
  simp only [noEnvoy, noInit, Bool.false_eq_true, if_false, setEnvOf_of_notMem fresh]

theorem placeEnvoySidecar_again (noEnvoy : p.decision.envoyProxy = false)
    (noInit : p.decision.proxyInit = false)
    (fresh : envoyProxyContainerName ∉ spec.containers.map Container.name) :
    placeEnvoySidecar b p annotations volumes (placeEnvoySidecar b p annotations volumes spec) =
      placeEnvoySidecar b p annotations volumes spec := by
  rw [placeEnvoySidecar_of_none noEnvoy noInit fresh]
  generalize hbase : { spec with volumes := addAll Volume.name spec.volumes volumes } = base
  have group := @fsGroup_finishPod annotations base p id
  have mounted := @finishPod_mounted "" annotations base p false
  have names := names_finishPod p annotations "" base false
  simp only [Bool.false_eq_true, if_false] at mounted names
  obtain ⟨-, containers, -, kept⟩ := names
  generalize finishPod p annotations id base = placed at *
  have fresh : envoyProxyContainerName ∉ placed.containers.map Container.name := by
    rw [containers, ← hbase]
    exact fresh
  have present : ∀ v ∈ volumes, v.name ∈ placed.volumes.map Volume.name := by
    refine fun v hv => kept ?_
    rw [← hbase]
    exact mem_map_addAll.mpr (.inr (List.mem_map_of_mem hv))
  rw [placeEnvoySidecar_of_none noEnvoy noInit fresh, addAll_of_mem present]
  exact finishPod_of_mounted mounted group

end Bare

/-! Two passes -/

def Response.output (pod : Pod) : Response → Option Pod
  | .allowed _ => some pod
  | .patched pod' _ => some pod'
  | .errored _ _ => none

def Response.configMaps : Response → List AgentConfigMap
  | .patched _ cms => cms
  | _ => []

variable {spec : PodSpec} {ns crName : String} {m : PodMutator}

theorem settleServiceAccount_again {p : Posture} {settled placed : PodSpec}
    (h : m.settleServiceAccount p ns crName spec = .ok settled)
    (account : placed.serviceAccountName = settled.serviceAccountName) :
    m.settleServiceAccount p ns crName placed = .ok placed := by
  rw [PodMutator.settleServiceAccount_eq_ok] at h ⊢
  split at h
  · next missing =>
    obtain ⟨created, rfl⟩ := h
    have name : crName = placed.serviceAccountName := account.symm
    split
    · exact ⟨created, by rw [name]⟩
    · rfl
  · next given =>
    rw [← h] at account
    rw [account, if_neg given]

theorem isAlreadyInjected_eq_true : isAlreadyInjected spec = true ↔
      (envoyProxyContainerName ∈ spec.containers.map Container.name ∨
        authBridgeProxyContainerName ∈ spec.containers.map Container.name) ∨
      proxyInitContainerName ∈ spec.initContainers.map Container.name := by
  simp only [isAlreadyInjected, containerExists, Bool.or_eq_true, hasKey_iff]

section Placed

variable (b : ContainerBuilder) (p : Posture) (annotations : StringMap) (volumes : List Volume)
  (crName : String) (ports : Ports) (spec : PodSpec)

theorem serviceAccountName_placeProxySidecar :
    (placeProxySidecar b p annotations volumes crName ports spec).serviceAccountName =
      spec.serviceAccountName := by
  exact (names_finishPod _ _ _ _ _).1

theorem placeProxySidecar_injected :
    isAlreadyInjected (placeProxySidecar b p annotations volumes crName ports spec) = true := by
  refine isAlreadyInjected_eq_true.mpr (.inl (.inr ?_))
  unfold placeProxySidecar
  rw [(names_finishPod _ _ _ _ _).2.1, map_name_of_shape (map_shape_injectHTTPProxyEnvs _ _),
    map_name_of_shape (map_shape_setEnvOf _ _ _ _)]
  exact mem_map_addIfMissing.mpr (.inr rfl)

theorem names_placeEnvoySidecar :
    let placed := placeEnvoySidecar b p annotations volumes spec
    placed.serviceAccountName = spec.serviceAccountName ∧
      placed.containers.map Container.name =
        (if p.decision.envoyProxy then addIfMissing Container.name spec.containers
          (b.buildEnvoyProxyContainerWithSpireOption p.spireEnabled)
          else spec.containers).map Container.name ∧
      placed.initContainers =
        if p.decision.proxyInit then
          addIfMissing Container.name spec.initContainers
            (b.buildProxyInitContainer .redirect (annotations.value outboundPortsExcludeKey)
              (annotations.value inboundPortsExcludeKey))
        else spec.initContainers := by
  have finished := fun spec => names_finishPod p annotations "" spec false
  obtain ⟨account, containers, inits, -⟩ := finished _
  exact ⟨account, containers.trans (map_name_of_shape (map_shape_setEnvOf _ _ _ _)), inits⟩

theorem placeEnvoySidecar_injected
    (h : p.decision.envoyProxy = true ∨ p.decision.proxyInit = true) :
    isAlreadyInjected (placeEnvoySidecar b p annotations volumes spec) = true := by
  obtain ⟨-, containers, inits⟩ := names_placeEnvoySidecar b p annotations volumes spec
  rw [isAlreadyInjected_eq_true, containers, inits]
  rcases h with on | on
  · rw [if_pos on]
    exact .inl (.inl (mem_map_addIfMissing.mpr (.inr rfl)))
  · rw [if_pos on]
    exact .inr (mem_map_addIfMissing.mpr (.inr rfl))

end Placed

theorem applyCredentials_injected (annotations : StringMap) (spec : PodSpec) :
    isAlreadyInjected (applyKeycloakClientCredentialsSecretVolumes annotations spec) =
      isAlreadyInjected spec := by
  rw [applyCredentials_eq, Bool.eq_iff_iff, isAlreadyInjected_eq_true, isAlreadyInjected_eq_true]
  have names : (spec.containers.map (finishContainer (credentialsSecretName annotations) false)).map
      Container.name = spec.containers.map Container.name := by
    rw [List.map_map]
    exact List.map_congr_left fun c _ => name_finishContainer
  rw [names]

theorem PodMutator.injectAuthBridge_again {labels : Option StringMap} {annotations : StringMap}
    {i : Injection} (fresh : isAlreadyInjected spec = false)
    (h : m.injectAuthBridge ns crName labels annotations spec = .ok (some i))
    (bare : isAlreadyInjected i.spec = false) :
    m.injectAuthBridge ns crName labels annotations i.spec = .ok (some i) := by
  obtain ⟨injectable, settled, account, ⟨-, injection⟩ | ⟨mode, injection⟩⟩ :=
    injectAuthBridge_eq_some.mp h
  · obtain ⟨ports, cm, -, -, rfl⟩ := injection
    rw [placeProxySidecar_injected] at bare
    cases bare
  · obtain ⟨cm, envoyCM, config, envoyConfig, rfl⟩ := injection
    have off : ¬ ((m.posture ns labels annotations).decision.envoyProxy = true ∨
        (m.posture ns labels annotations).decision.proxyInit = true) := by
      intro on
      rw [placeEnvoySidecar_injected _ _ _ _ _ on] at bare
      cases bare
    rw [not_or, Bool.not_eq_true, Bool.not_eq_true] at off
    have absent : envoyProxyContainerName ∉ settled.containers.map Container.name := by
      rw [← settleServiceAccount_spec account]
      exact (isAlreadyInjected_eq_false.mp fresh).1.1
    have kept := (names_placeEnvoySidecar (m.builder (readNamespaceConfig m.apiReader ns))
      (m.posture ns labels annotations) annotations
      (m.envoyVolumes (m.posture ns labels annotations) cm.name envoyCM.name) settled).1
    refine injectAuthBridge_eq_some.mpr
      ⟨injectable, _, settleServiceAccount_again account kept, .inr ⟨mode, ?_⟩⟩
    refine ⟨cm, envoyCM, config, envoyConfig, ?_⟩
    rw [placeEnvoySidecar_again off.1 off.2 absent]

/-! A later state of the cluster -/

structure PodMutator.Reinvoked (m m' : PodMutator) : Prop where
  same : m' = { m with
    createServiceAccount := m'.createServiceAccount
    getServiceAccount := m'.getServiceAccount
    apply := m'.apply }
  accounts : ∀ ns name, m.ensureServiceAccount ns name = .ok () →
    m'.ensureServiceAccount ns name = .ok ()
  applies : ∀ cm, m.apply cm = .ok () → m'.apply cm = .ok ()

namespace PodMutator.Reinvoked

variable {m m' : PodMutator} (again : m.Reinvoked m') {ns crName : String} {p : Posture}
  {nsConfig : NamespaceConfig} {annotations : StringMap} {spec settled : PodSpec}
include again

theorem settleServiceAccount (h : m.settleServiceAccount p ns crName spec = .ok settled) :
    m'.settleServiceAccount p ns crName spec = .ok settled := by
  rw [settleServiceAccount_eq_ok] at h ⊢
  split at h
  · next missing =>
    rw [if_pos missing]
    exact ⟨again.accounts _ _ h.1, h.2⟩
  · next given => rwa [if_neg given]

variable {cm : AgentConfigMap}

theorem ensurePerAgentConfigMap {o : AgentOverrides}
    (h : m.ensurePerAgentConfigMap ns crName nsConfig o = .ok cm) :
    m'.ensurePerAgentConfigMap ns crName nsConfig o = .ok cm := by
  simp only [PodMutator.ensurePerAgentConfigMap, bind_eq_ok, mapError_eq_ok, pure_eq_ok] at h ⊢
  obtain ⟨base, parsed, _, applied, written⟩ := h
  rw [again.same]
  exact ⟨base, parsed, (), again.applies _ applied, written⟩

theorem ensurePerAgentEnvoyConfigMap {mtlsMode : MTLSMode}
    (h : m.ensurePerAgentEnvoyConfigMap ns crName mtlsMode = .ok cm) :
    m'.ensurePerAgentEnvoyConfigMap ns crName mtlsMode = .ok cm := by
  simp only [PodMutator.ensurePerAgentEnvoyConfigMap, renderEnvoyConfig, bind_eq_ok,
    mapError_eq_ok, pure_eq_ok] at h ⊢
  obtain ⟨rendered, ok, _, applied, written⟩ := h
  rw [again.same]
  exact ⟨rendered, ok, (), again.applies _ applied, written⟩

theorem injectAuthBridge {labels : Option StringMap} {result : Option Injection}
    (h : m.injectAuthBridge ns crName labels annotations spec = .ok result) :
    m'.injectAuthBridge ns crName labels annotations spec = .ok result := by
  have gates : m'.featureGates = m.featureGates := by rw [again.same]
  have reader : m'.apiReader = m.apiReader := by rw [again.same]
  have posture : m'.posture ns labels annotations = m.posture ns labels annotations := by
    rw [again.same]
    rfl
  cases result with
  | none =>
    rw [injectAuthBridge_eq_none] at h ⊢
    rw [gates, posture]
    intro on
    obtain ⟨mode, settled, account⟩ := h on
    exact ⟨mode, settled, again.settleServiceAccount account⟩
  | some i =>
    rw [injectAuthBridge_eq_some] at h ⊢
    rw [gates, posture, reader]
    obtain ⟨on, settled, account, injection⟩ := h
    refine ⟨on, settled, again.settleServiceAccount account, ?_⟩
    refine injection.imp (And.imp_right fun proxy => ?_) (And.imp_right fun envoy => ?_)
    · obtain ⟨ports, cm, chosen, config, written⟩ := proxy
      refine ⟨ports, cm, chosen, again.ensurePerAgentConfigMap config, ?_⟩
      rw [← written, again.same]
      rfl
    · obtain ⟨cm, envoyCM, config, envoyConfig, written⟩ := envoy
      refine ⟨cm, envoyCM, again.ensurePerAgentConfigMap config,
        again.ensurePerAgentEnvoyConfigMap envoyConfig, ?_⟩
      rw [← written, again.same]
      rfl

end PodMutator.Reinvoked

namespace AuthBridgeWebhook

variable {w : AuthBridgeWebhook} {req : Request} {pod : Pod} {cms : List AgentConfigMap}

theorem credentialsName_ne_empty (sha256 : Bytes → Bytes) (ns workload : String) :
    keycloakClientCredentialsSecretName sha256 ns workload ≠ "" := by
  unfold keycloakClientCredentialsSecretName
  simp

theorem prepopulate_again {ns resourceName : String} {pod' : Pod}
    (labels : pod'.labels = pod.labels)
    (written : pod'.annotations = w.prepopulate ns resourceName pod) :
    w.prepopulate ns resourceName pod' = pod'.annotations := by
  unfold prepopulate at written ⊢
  rw [labels]
  split at written
  · refine if_neg fun missing => credentialsName_ne_empty w.sha256 ns resourceName ?_
    rw [← missing.1, written]
    simp [StringMap.value]
  · next present =>
    rw [written]
    exact if_neg present

section

variable (h : w.handle req = .patched pod cms)

include h

theorem annotations_again : w.annotations { req with pod := pod } = w.annotations req := by
  obtain ⟨-, same, -⟩ := handle_eq_patched.mp h
  have written : pod.annotations = w.annotations req := by rw [← same]
  have owner : deriveWorkloadName pod = deriveWorkloadName req.pod := by rw [← same]; rfl
  have labels : pod.labels = req.pod.labels := by rw [← same]
  rw [← written]
  unfold annotations at written ⊢
  rw [owner]
  exact prepopulate_again labels written

theorem mounted_of_handle (some : credentialsSecretName (w.annotations req) ≠ "") :
    Mounted (credentialsSecretName (w.annotations req)) pod.spec := by
  obtain ⟨-, -, ⟨-, -, applied, -⟩ | ⟨-, injection⟩⟩ := handle_eq_patched.mp h
  · rw [← applied]
    exact applyCredentials_mounted some
  · obtain ⟨-, settled, -, ⟨-, injection⟩ | ⟨-, injection⟩⟩ :=
      PodMutator.injectAuthBridge_eq_some.mp injection
    · obtain ⟨ports, cm, -, -, injected⟩ := injection
      rw [← (Injection.mk.inj injected).1]
      exact finishPod_mounted _ some
    · obtain ⟨cm, envoyCM, -, -, injected⟩ := injection
      rw [← (Injection.mk.inj injected).1]
      exact @finishPod_mounted "" _ _ _ false some

theorem serviceAccountName_of_handle (given : req.pod.spec.serviceAccountName ∉ ["", "default"]) :
    pod.spec.serviceAccountName = req.pod.spec.serviceAccountName := by
  rw [List.mem_cons, List.mem_singleton] at given
  obtain ⟨-, -, ⟨-, -, applied, -⟩ | ⟨-, injection⟩⟩ := handle_eq_patched.mp h
  · rw [← applied, applyCredentials_eq]
  · obtain ⟨-, settled, account, injection⟩ := PodMutator.injectAuthBridge_eq_some.mp injection
    rw [PodMutator.settleServiceAccount_eq_ok, if_neg fun missing => given missing.2] at account
    subst account
    rcases injection with ⟨-, injection⟩ | ⟨-, injection⟩
    · obtain ⟨ports, cm, -, -, injected⟩ := injection
      rw [← (Injection.mk.inj injected).1]
      exact serviceAccountName_placeProxySidecar _ _ _ _ _ _ _
    · obtain ⟨cm, envoyCM, -, -, injected⟩ := injection
      rw [← (Injection.mk.inj injected).1]
      exact (names_placeEnvoySidecar _ _ _ _ _).1

theorem handle_again :
    w.handle { req with pod := pod } = .allowed "already injected" ∨
      w.handle { req with pod := pod } = .patched pod cms := by
  have annotations := annotations_again h
  have mounted := mounted_of_handle h
  obtain ⟨hpod, same, patch⟩ := handle_eq_patched.mp h
  cases injected : isAlreadyInjected pod.spec with
  | true =>
    refine .inl ((@handle_of_pod w { req with pod := pod } hpod).trans ?_)
    rw [if_pos injected, annotations, needsPatch_of_mounted mounted]
    rfl
  | false =>
    refine .inr (handle_eq_patched.mpr ⟨hpod, ?_, .inr ⟨injected, ?_⟩⟩)
    · rw [annotations, ← same]
    · have owner : deriveWorkloadName pod = deriveWorkloadName req.pod := by rw [← same]; rfl
      have labels : pod.labels = req.pod.labels := by rw [← same]
      rw [annotations, owner, labels]
      rcases patch with ⟨already, -, applied, -⟩ | ⟨fresh, injection⟩
      · rw [← applied, applyCredentials_injected, already] at injected
        cases injected
      · exact PodMutator.injectAuthBridge_again fresh injection injected

end

theorem handle_of_reinvoked {w' : AuthBridgeWebhook} (sha256 : w'.sha256 = w.sha256)
    (again : w.mutator.Reinvoked w'.mutator) (ok : (w.handle req).output req.pod = some pod) :
    w'.handle req = w.handle req := by
  have gates : w'.mutator.featureGates = w.mutator.featureGates := by rw [again.same]
  have annotations : w'.annotations req = w.annotations req := by
    unfold AuthBridgeWebhook.annotations prepopulate
    rw [sha256, gates]
  by_cases hpod : req.kind = "Pod" ∧ req.group = ""
  · rw [handle_of_pod hpod] at ok ⊢
    rw [handle_of_pod hpod, annotations]
    split
    · rfl
    · next fresh =>
      rw [if_neg fresh] at ok
      cases result : w.mutator.injectAuthBridge req.ns (deriveWorkloadName req.pod) req.pod.labels
          (w.annotations req) req.pod.spec with
      | error e =>
        rw [result] at ok
        cases ok
      | ok result' => rw [again.injectAuthBridge result]
  · have other : req.kind ≠ "Pod" ∨ req.group ≠ "" := by rwa [not_and_or] at hpod
    unfold handle
    rw [if_pos other, if_pos other]

/-- The handler makes no further change to a pod that it has let through: the pod stays the same,
and so do the ConfigMaps that it has applied. -/
theorem handle_idempotent {w' : AuthBridgeWebhook} (sha256 : w'.sha256 = w.sha256)
    (again : w.mutator.Reinvoked w'.mutator) (first : (w.handle req).output req.pod = some pod) :
    (w'.handle { req with pod := pod }).output pod = some pod ∧
      (w'.handle { req with pod := pod }).configMaps ⊆ (w.handle req).configMaps := by
  have second : (w.handle { req with pod := pod }).output pod = some pod ∧
      (w.handle { req with pod := pod }).configMaps ⊆ (w.handle req).configMaps := by
    cases h : w.handle req with
    | allowed message =>
      rw [h] at first
      cases first
      rw [h]
      exact ⟨rfl, List.Subset.refl _⟩
    | patched patched cms =>
      rw [h] at first
      cases first
      rcases handle_again h with kept | kept
      · rw [kept]
        exact ⟨rfl, List.nil_subset _⟩
      · rw [kept]
        exact ⟨rfl, List.Subset.refl _⟩
    | errored status message =>
      rw [h] at first
      cases first
  rw [handle_of_reinvoked sha256 again second.1]
  exact second

def withAccounts (w : AuthBridgeWebhook) : AuthBridgeWebhook :=
  { w with mutator := { w.mutator with
    createServiceAccount := fun _ _ => .error .alreadyExists
    getServiceAccount := fun _ _ => .ok () } }

/-- A pod that gets a sidecar and a ServiceAccount. -/
theorem handle_idempotent_agent : ∃ pod,
    (inEmptyCluster.handle (.ofStatefulSet [.agent "agent" []] [] [])).output
        (Request.ofStatefulSet [.agent "agent" []] [] []).pod = some pod ∧
      (isAlreadyInjected pod.spec = true ∧ pod.spec.serviceAccountName = "agent") ∧
      (inEmptyCluster.withAccounts.handle
        { Request.ofStatefulSet [.agent "agent" []] [] [] with pod := pod }).output pod =
          some pod := by
  obtain ⟨pod, cms, h, changed⟩ : ∃ pod cms,
      inEmptyCluster.handle (.ofStatefulSet [.agent "agent" []] [] []) = .patched pod cms ∧
        isAlreadyInjected pod.spec = true ∧ pod.spec.serviceAccountName = "agent" := by
    decide +kernel
  have first : (inEmptyCluster.handle (.ofStatefulSet [.agent "agent" []] [] [])).output
      (Request.ofStatefulSet [.agent "agent" []] [] []).pod = some pod := by rw [h]; rfl
  have again : inEmptyCluster.mutator.Reinvoked inEmptyCluster.withAccounts.mutator :=
    ⟨rfl, fun _ _ _ => rfl, fun _ _ => rfl⟩
  have second := @handle_idempotent inEmptyCluster _ pod inEmptyCluster.withAccounts rfl again first
  exact ⟨pod, first, changed, second.1⟩

end AuthBridgeWebhook

end Kagenti.Operator.Webhook
