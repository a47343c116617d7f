import Kagenti.Operator.Webhook.Additions

/-!
Which pods stay well formed. The webhook looks for the name of a container only in the list that it
adds the container to, and for mounts not at the paths that are taken.
-/

namespace Kagenti.Operator.Webhook

open Go AgentRuntime Lib.Keyed
open Container (shape)
open VolumeMount (mountPath)
open Injector (authBridgeProxyContainerName envoyProxyContainerName proxyInitContainerName)

/-! What an injection adds -/

def sidecars (b : ContainerBuilder) (p : Posture) : List Container :=
  match p.mode with
  | .proxySidecar | .lite =>
    [b.buildProxySidecarContainerWithPorts p.spireEnabled (proxyImage b p) 0 0]
  | .envoySidecar =>
    if p.decision.envoyProxy then [b.buildEnvoyProxyContainerWithSpireOption p.spireEnabled]
    else []
  | .waypoint => []

/-- The traffic of the pod is redirected, by an init container. -/
def Posture.redirects (p : Posture) : Bool :=
  match p.mode with
  | .proxySidecar | .lite => p.egressEnforcement = .enforceRedirect
  | .envoySidecar => p.decision.proxyInit
  | .waypoint => false

def Posture.bridges (p : Posture) : Bool := p.tlsBridge && p.mode ≠ .envoySidecar

def AuthBridgeMode.sidecarPaths : AuthBridgeMode → List String
  | .envoySidecar =>
    ["/etc/envoy", "/shared", "/etc/authproxy", "/etc/authbridge", "/opt", "/etc/spiffe-helper"]
  | _ => ["/shared", "/etc/authbridge", "/etc/authproxy", "/opt", "/etc/spiffe-helper"]

def Posture.sidecarName (p : Posture) : Option String :=
  match p.mode with
  | .proxySidecar | .lite => some authBridgeProxyContainerName
  | .envoySidecar => if p.decision.envoyProxy then some envoyProxyContainerName else none
  | .waypoint => none

@[mk_iff]
structure SocketFits (p : Posture) (credentials dir : String) : Prop where
  own : dir ∉ p.mode.sidecarPaths
  credentialFiles : credentials ∉ ["", "spire-agent-socket"] →
    dir ∉ [clientSecretPath, clientIDPath]
  bridgeCA : p.bridges = true → credentials ≠ tlsBridgeCAVolumeName → dir ≠ tlsBridgeCAMountPath

instance (p : Posture) (credentials dir : String) : Decidable (SocketFits p credentials dir) :=
  decidable_of_iff _ (socketFits_iff p credentials dir).symm

@[mk_iff]
structure Fits (p : Posture) (socketPath credentials : String) (spec : PodSpec) : Prop where
  sidecarName : ∀ name ∈ p.sidecarName, name ∉ spec.initContainers.map Container.name
  initName : p.redirects = true → proxyInitContainerName ∉ spec.containers.map Container.name
  socket : p.spireEnabled = true → p.sidecarName ≠ none →
    SocketFits p credentials (spireSocketDir socketPath)
  mounts : ∀ c ∈ spec.containers, MountsFit credentials p.bridges c

instance (p : Posture) (socketPath credentials : String) (spec : PodSpec) :
    Decidable (Fits p socketPath credentials spec) :=
  decidable_of_iff _ (fits_iff p socketPath credentials spec).symm

variable {p : Posture} {spec : PodSpec}

theorem Fits.congr {socketPath credentials : String} {spec' : PodSpec}
    (containers : spec.containers = spec'.containers)
    (initContainers : spec.initContainers = spec'.initContainers)
    (h : Fits p socketPath credentials spec) : Fits p socketPath credentials spec' :=
  ⟨initContainers ▸ h.sidecarName, containers ▸ h.initName, h.socket, containers ▸ h.mounts⟩

theorem nodup_append_singleton {l : List String} (h : l.Nodup) (x : String) :
    (l ++ [x]).Nodup ↔ x ∉ l := by
  rw [List.nodup_append_comm]
  simp [h]

section Sidecar

variable (b : ContainerBuilder) (spireEnabled : Bool) {path : String}

theorem notMem_spire_paths_iff (fixed : path ∉ ["/opt", "/etc/spiffe-helper"]) :
    path ∉ b.spireMounts.map mountPath ↔ spireSocketDir b.cfg.spiffe.socketPath ≠ path := by
  simp only [List.mem_cons, List.not_mem_nil, or_false, not_or] at fixed
  simp [ContainerBuilder.spireMounts, fixed, eq_comm]

theorem free_spireMounts_iff {vol : String} (fixed : path ∉ ["/opt", "/etc/spiffe-helper"]) :
    Free vol path b.spireMounts ↔
      (vol ≠ "spire-agent-socket" → spireSocketDir b.cfg.spiffe.socketPath ≠ path) := by
  simp only [List.mem_cons, List.not_mem_nil, or_false, not_or, eq_comm (a := path)] at fixed
  simp only [Free, ContainerBuilder.spireMounts, List.forall_mem_cons, fixed, false_imp_iff,
    true_and, List.not_mem_nil, implies_true, and_true]
  rw [not_imp_not, eq_comm (a := vol)]

section Own

variable {b spireEnabled} (credentials : String) {path : String} {own : List VolumeMount} {s : Container}
  (mounts : s.volumeMounts = own ++ if spireEnabled then b.spireMounts else [])
include mounts

theorem nodup_sidecar_paths_iff {paths : List String} (nodup : paths.Nodup)
    (all : paths = own.map mountPath ++ ["/opt", "/etc/spiffe-helper"]) :
    (s.volumeMounts.map mountPath).Nodup ↔
      (spireEnabled = true → spireSocketDir b.cfg.spiffe.socketPath ∉ paths) := by
  rw [mounts, List.map_append]
  cases spireEnabled with
  | false =>
    rw [all] at nodup
    simpa using nodup.of_append_left
  | true =>
    have socket : own.map mountPath ++ b.spireMounts.map mountPath =
        paths ++ [spireSocketDir b.cfg.spiffe.socketPath] := by
      rw [all, List.append_assoc]
      rfl
    rw [if_pos rfl, socket, nodup_append_singleton nodup, forall_prop_of_true rfl]

theorem free_sidecar_iff (fixed : path ∉ ["/opt", "/etc/spiffe-helper"])
    (unused : path ∉ own.map mountPath) :
    Free credentials path s.volumeMounts ↔
      (spireEnabled = true → credentials ≠ "spire-agent-socket" →
        spireSocketDir b.cfg.spiffe.socketPath ≠ path) := by
  have ownFree : Free credentials path own :=
    fun m hm same => absurd (List.mem_map.mpr ⟨m, hm, same⟩) unused
  rw [mounts, Free, List.forall_mem_append]
  cases spireEnabled with
  | false => exact ⟨fun _ off => absurd off Bool.false_ne_true, fun _ => ⟨ownFree, by simp⟩⟩
  | true =>
    rw [forall_prop_of_true rfl, ← free_spireMounts_iff b fixed]
    exact ⟨fun h => h.2, fun h => ⟨ownFree, h⟩⟩

theorem bridge_sidecar_iff (unmounted : tlsBridgeCAVolumeName ∉ own.map VolumeMount.name)
    (unused : tlsBridgeCAMountPath ∉ own.map mountPath) :
    (tlsBridgeCAVolumeName ∈ s.volumeMounts.map VolumeMount.name ∨
        tlsBridgeCAVolumeName = credentials ∨
        tlsBridgeCAMountPath ∉ s.volumeMounts.map mountPath) ↔
      (spireEnabled = true → credentials ≠ tlsBridgeCAVolumeName →
        spireSocketDir b.cfg.spiffe.socketPath ≠ tlsBridgeCAMountPath) := by
  rw [mounts, List.map_append, List.map_append]
  simp only [List.mem_append, unmounted, unused, false_or]
  cases spireEnabled with
  | false => simp
  | true =>
    have spire : tlsBridgeCAVolumeName ∉ b.spireMounts.map VolumeMount.name :=
      (by decide : tlsBridgeCAVolumeName ∉
        ["svid-output", "spiffe-helper-config", "spire-agent-socket"])
    have fixed : tlsBridgeCAMountPath ∉ ["/opt", "/etc/spiffe-helper"] := by decide
    simp only [if_true, spire, false_or, forall_const]
    rw [notMem_spire_paths_iff b fixed, eq_comm (a := tlsBridgeCAVolumeName)]
    exact or_iff_not_imp_left

theorem mountsFit_sidecar_iff {tlsBridge : Bool}
    (shares : "shared-data" ∈ own.map VolumeMount.name)
    (files : ∀ path ∈ [clientSecretPath, clientIDPath, tlsBridgeCAMountPath],
      path ∉ own.map mountPath)
    (bridge : tlsBridge = true → tlsBridgeVolumeFor s = tlsBridgeCAVolumeName ∧
      tlsBridgeCAVolumeName ∉ own.map VolumeMount.name) :
    MountsFit credentials tlsBridge s ↔
      (spireEnabled = true →
        (credentials ∉ ["", "spire-agent-socket"] →
          spireSocketDir b.cfg.spiffe.socketPath ∉ [clientSecretPath, clientIDPath]) ∧
        (tlsBridge = true → credentials ≠ tlsBridgeCAVolumeName →
          spireSocketDir b.cfg.spiffe.socketPath ≠ tlsBridgeCAMountPath)) := by
  have shares : Shares s := by
    rw [Shares, mounts, List.map_append]
    exact List.mem_append_left _ shares
  have secret := free_sidecar_iff credentials mounts
    (by decide : clientSecretPath ∉ ["/opt", "/etc/spiffe-helper"]) (files _ (by simp))
  have id := free_sidecar_iff credentials mounts
    (by decide : clientIDPath ∉ ["/opt", "/etc/spiffe-helper"]) (files _ (by simp))
  have ca : tlsBridge = true → _ := fun on =>
    bridge_sidecar_iff credentials mounts (bridge on).2 (files _ (by simp))
  simp only [List.mem_cons, List.not_mem_nil, or_false, not_or]
  constructor
  · intro h spire
    refine ⟨fun named => ?_, fun on other => ?_⟩
    · obtain ⟨secretFree, idFree⟩ := h.credentialFiles named.1 shares
      exact ⟨secret.mp secretFree spire named.2, id.mp idFree spire named.2⟩
    · have room := h.bridgeCA on
      rw [(bridge on).1] at room
      exact (ca on).mp (room.imp_right (Or.imp_left And.right)) spire other
  · intro h
    refine ⟨fun named _ => ⟨?_, ?_⟩, fun on => ?_⟩
    · exact secret.mpr fun spire other => ((h spire).1 ⟨named, other⟩).1
    · exact id.mpr fun spire other => ((h spire).1 ⟨named, other⟩).2
    · grind

end Own

end Sidecar

variable {s : Container} {b : ContainerBuilder} (m : PodMutator)

theorem socketFits_sidecar_iff {own : List VolumeMount} (credentials : String)
    (mounts : s.volumeMounts = own ++ if p.spireEnabled then b.spireMounts else [])
    (paths : p.mode.sidecarPaths = own.map mountPath ++ ["/opt", "/etc/spiffe-helper"])
    (shares : "shared-data" ∈ own.map VolumeMount.name)
    (bridge : p.bridges = true → tlsBridgeVolumeFor s = tlsBridgeCAVolumeName ∧
      tlsBridgeCAVolumeName ∉ own.map VolumeMount.name) :
    (s.volumeMounts.map mountPath).Nodup ∧ MountsFit credentials p.bridges s ↔
      (p.spireEnabled = true →
        SocketFits p credentials (spireSocketDir b.cfg.spiffe.socketPath)) := by
  have apart (mode : AuthBridgeMode) : mode.sidecarPaths.Nodup ∧
      ∀ path ∈ [clientSecretPath, clientIDPath, tlsBridgeCAMountPath],
        path ∉ mode.sidecarPaths := by
    cases mode <;> decide
  have files : ∀ path ∈ [clientSecretPath, clientIDPath, tlsBridgeCAMountPath],
      path ∉ own.map mountPath := fun path file used =>
    (apart p.mode).2 path file (paths ▸ List.mem_append_left _ used)
  rw [nodup_sidecar_paths_iff mounts (apart p.mode).1 paths,
    mountsFit_sidecar_iff credentials mounts shares files bridge, socketFits_iff, ← imp_and]

theorem sidecar_mounts_iff (b : ContainerBuilder) (p : Posture) (credentials : String) :
    (∀ s ∈ sidecars b p, (s.volumeMounts.map mountPath).Nodup ∧
        MountsFit credentials p.bridges s) ↔
      (p.spireEnabled = true → p.sidecarName ≠ none →
        SocketFits p credentials (spireSocketDir b.cfg.spiffe.socketPath)) := by
  cases hmode : p.mode with
  | proxySidecar | lite =>
    simp only [sidecars, Posture.sidecarName, hmode, List.forall_mem_singleton, ne_eq,
      reduceCtorEq, not_false_eq_true, forall_const]
    exact socketFits_sidecar_iff _ rfl (by rw [hmode]; rfl) List.mem_cons_self
      fun _ => ⟨rfl, by decide⟩
  | envoySidecar =>
    have bridges : p.bridges = false := by simp [Posture.bridges, hmode]
    cases on : p.decision.envoyProxy with
    | true =>
      simp only [sidecars, Posture.sidecarName, hmode, on, if_true, List.forall_mem_singleton,
        ne_eq, reduceCtorEq, not_false_eq_true, forall_const]
      exact socketFits_sidecar_iff _ rfl (by rw [hmode]; rfl) (by decide) fun on => by
        cases bridges.symm.trans on
    | false => simp [sidecars, Posture.sidecarName, hmode, on]
  | waypoint => simp [sidecars, Posture.sidecarName, hmode]

/-! Volumes -/

def sidecarVolumeNames (spireEnabled : Bool) : List String :=
  ["shared-data"] ++
    (if spireEnabled then ["spire-agent-socket", "spiffe-helper-config", "svid-output"] else []) ++
    ["envoy-config", "authproxy-routes", "authbridge-runtime-config"]

theorem map_name_overrideConfigMap (volumeName cmName : String) (volumes : List Volume) :
    (volumes.map (overrideConfigMap volumeName cmName)).map Volume.name =
      volumes.map Volume.name := by
  rw [List.map_map]
  refine List.map_congr_left fun v _ => ?_
  dsimp only [Function.comp_apply, overrideConfigMap]
  split
  · split <;> rfl
  · rfl

theorem map_name_requiredVolumes (spireEnabled : Bool) :
    (m.requiredVolumes spireEnabled).map Volume.name = sidecarVolumeNames spireEnabled := by
  unfold PodMutator.requiredVolumes
  cases m.featureGates.perWorkloadConfigResolution <;> cases spireEnabled <;> rfl

theorem map_name_proxyVolumes (p : Posture) (cmName : String) :
    (m.proxyVolumes p cmName).map Volume.name = sidecarVolumeNames p.spireEnabled :=
  (map_name_overrideConfigMap _ _ _).trans (map_name_requiredVolumes m _)

theorem map_name_envoyVolumes (p : Posture) (cmName envoyCMName : String) :
    (m.envoyVolumes p cmName envoyCMName).map Volume.name = sidecarVolumeNames p.spireEnabled :=
  (map_name_overrideConfigMap _ _ _).trans (map_name_proxyVolumes m p cmName)

theorem sidecar_volumes_subset {own : List VolumeMount} {spireEnabled : Bool}
    (mounts : s.volumeMounts = own ++ if spireEnabled then b.spireMounts else [])
    (h : own.map VolumeMount.name ⊆ sidecarVolumeNames false) :
    s.volumeMounts.map VolumeMount.name ⊆ sidecarVolumeNames spireEnabled := by
  rw [mounts, List.map_append]
  cases spireEnabled with
  | false => simpa using h
  | true =>
    have spire : ["svid-output", "spiffe-helper-config", "spire-agent-socket"] ++
        sidecarVolumeNames false ⊆ sidecarVolumeNames true := by decide
    exact List.append_subset.mpr ⟨fun _ mem => spire (List.mem_append_right _ (h mem)),
      fun _ mem => spire (List.mem_append_left _ mem)⟩

theorem mem_sidecarVolumeNames {m : VolumeMount} (hs : s ∈ sidecars b p) (hm : m ∈ s.volumeMounts) :
    m.name ∈ sidecarVolumeNames p.spireEnabled := by
  have mem := List.mem_map_of_mem (f := VolumeMount.name) hm
  unfold sidecars at hs
  cases hmode : p.mode with
  | proxySidecar | lite =>
    rw [hmode] at hs
    rw [List.mem_singleton.mp hs] at mem
    exact sidecar_volumes_subset rfl (by decide) mem
  | envoySidecar =>
    simp only [hmode] at hs
    split at hs
    · rw [List.mem_singleton.mp hs] at mem
      exact sidecar_volumes_subset rfl (by decide) mem
    · cases hs
  | waypoint =>
    rw [hmode] at hs
    cases hs

section Volumes

variable {credentials crName name : String} {tlsBridge : Bool} {volumes : List Volume}

theorem nodup_finishVolumes (h : (volumes.map Volume.name).Nodup) :
    ((finishVolumes credentials crName tlsBridge volumes).map Volume.name).Nodup := by
  unfold finishVolumes
  have files : ((if credentials = "" then volumes else
      addIfMissing Volume.name volumes (credentialsVolume credentials)).map Volume.name).Nodup := by
    split
    · exact h
    · exact nodup_map_addIfMissing h
  dsimp only
  split
  · exact nodup_map_addAll files
  · exact files

theorem mem_finishVolumes :
    name ∈ (finishVolumes credentials crName tlsBridge volumes).map Volume.name ↔
      (name ∈ volumes.map Volume.name ∨ credentials ≠ "" ∧ name = credentials) ∨
        tlsBridge = true ∧ name ∈ [tlsBridgeCAVolumeName, tlsBridgeCACertVolumeName] := by
  unfold finishVolumes
  by_cases hnone : credentials = "" <;> cases tlsBridge <;>
    simp [hnone, -List.mem_map, mem_map_addAll, mem_map_addIfMissing, tlsBridgeVolumes,
      credentialsVolume, keycloakClientCredentialsVolumeName]

end Volumes

/-! Injections -/

theorem isAlreadyInjected_eq_false : isAlreadyInjected spec = false ↔
      (envoyProxyContainerName ∉ spec.containers.map Container.name ∧
        authBridgeProxyContainerName ∉ spec.containers.map Container.name) ∧
      proxyInitContainerName ∉ spec.initContainers.map Container.name := by
  simp only [isAlreadyInjected, containerExists, Bool.or_eq_false_iff, hasKey_eq_false]

theorem map_name_sidecars (b : ContainerBuilder) (p : Posture) :
    (sidecars b p).map Container.name = p.sidecarName.toList := by
  unfold sidecars Posture.sidecarName
  cases p.mode with
  | envoySidecar => cases p.decision.envoyProxy <;> rfl
  | proxySidecar | lite | waypoint => rfl

theorem mem_sidecarName_iff {name : String} :
    name ∈ p.sidecarName ↔ ∃ s ∈ sidecars b p, s.name = name := by
  rw [← List.mem_map, map_name_sidecars, Option.mem_toList, Option.mem_def]

theorem sidecarName_cases (p : Posture) :
    p.sidecarName = none ∨ p.sidecarName = some authBridgeProxyContainerName ∨
      p.sidecarName = some envoyProxyContainerName := by
  unfold Posture.sidecarName
  cases p.mode with
  | proxySidecar | lite => exact .inr (.inl rfl)
  | envoySidecar => cases p.decision.envoyProxy <;> simp
  | waypoint => exact .inl rfl

def redirector (b : ContainerBuilder) (p : Posture) (mode : ProxyInitMode)
    (outbound inbound : String) : List Container :=
  if p.redirects then [b.buildProxyInitContainer mode outbound inbound] else []

section Inject

variable {b : ContainerBuilder} {p : Posture} {crName outbound inbound : String}
  {mode : ProxyInitMode} {volumes : List Volume} {spec : PodSpec} {c : Container}

theorem eq_of_mem_redirector (h : c ∈ redirector b p mode outbound inbound) :
    p.redirects = true ∧ c = b.buildProxyInitContainer mode outbound inbound := by
  unfold redirector at h
  split at h
  · next on => exact ⟨on, List.mem_singleton.mp h⟩
  · cases h

theorem additions (b : ContainerBuilder) (credentials crName outbound inbound : String)
    (mode : ProxyInitMode) (fresh : isAlreadyInjected spec = false) (h : WellFormed spec)
    (names : volumes.map Volume.name = sidecarVolumeNames p.spireEnabled) :
    Additions credentials p.bridges (sidecars b p) (redirector b p mode outbound inbound)
      (finishVolumes credentials crName p.bridges (addAll Volume.name spec.volumes volumes))
      spec := by
  obtain ⟨⟨noEnvoy, noProxy⟩, noInit⟩ := isAlreadyInjected_eq_false.mp fresh
  have inits : (redirector b p mode outbound inbound).map Container.name = [] ∨
      (redirector b p mode outbound inbound).map Container.name = [proxyInitContainerName] := by
    unfold redirector
    split
    · exact .inr rfl
    · exact .inl rfl
  constructor
  · rw [map_name_sidecars]
    rcases sidecarName_cases p with hs | hs | hs <;> rcases inits with hi | hi <;>
      rw [hs, hi] <;> decide
  · intro s hs
    have mem := mem_sidecarName_iff.mpr ⟨s, hs, rfl⟩
    rcases sidecarName_cases p with none | proxy | envoy
    · rw [none] at mem
      cases mem
    · rw [proxy] at mem
      rwa [← Option.mem_some.mp mem]
    · rw [envoy] at mem
      rwa [← Option.mem_some.mp mem]
  · intro i hi
    rw [(eq_of_mem_redirector hi).2]
    exact noInit
  · intro i hi
    rw [(eq_of_mem_redirector hi).2]
    rfl
  · exact nodup_finishVolumes (nodup_map_addAll h.volumes)
  · intro v hv
    exact mem_finishVolumes.mpr (.inl (.inl (mem_map_addAll.mpr (.inl hv))))
  · intro s hs m hm
    refine mem_finishVolumes.mpr (.inl (.inl (mem_map_addAll.mpr (.inr ?_))))
    rw [names]
    exact mem_sidecarVolumeNames hs hm
  · intro some
    exact mem_finishVolumes.mpr (.inl (.inr ⟨some, rfl⟩))
  · intro on c
    refine mem_finishVolumes.mpr (.inr ⟨on, ?_⟩)
    unfold tlsBridgeVolumeFor
    split <;> simp

variable {annotations : StringMap}

theorem finishPod_wellFormed_iff (crName : String) {containers inits : List Container}
    (fresh : isAlreadyInjected spec = false) (h : WellFormed spec)
    (names : volumes.map Volume.name = sidecarVolumeNames p.spireEnabled)
    (shapes : containers.map shape = (spec.containers ++ sidecars b p).map shape)
    (redirected : inits = spec.initContainers ++ redirector b p mode outbound inbound) :
    WellFormed (finishPod p annotations (if p.bridges then applyTLSBridgeMounts crName else id)
      { spec with
        containers := containers
        initContainers := inits
        volumes := addAll Volume.name spec.volumes volumes }) ↔
      Fits p b.cfg.spiffe.socketPath (credentialsSecretName annotations) spec := by
  have add := additions b (credentialsSecretName annotations) crName outbound inbound mode fresh h
    names
  have fits : WellFormed (extend (credentialsSecretName annotations) p.bridges (sidecars b p)
      (redirector b p mode outbound inbound)
      (finishVolumes (credentialsSecretName annotations) crName p.bridges
        (addAll Volume.name spec.volumes volumes)) spec) ↔
          Fits p b.cfg.spiffe.socketPath (credentialsSecretName annotations) spec := by
    rw [add.wellFormed_iff h, List.forall_mem_append]
    constructor
    · rintro ⟨⟨sidecar, init⟩, paths, mounts, own⟩
      refine ⟨fun name hname => ?_, fun on => ?_, ?_, mounts⟩
      · obtain ⟨s, hs, rfl⟩ := mem_sidecarName_iff.mp hname
        exact sidecar s hs
      · exact init (b.buildProxyInitContainer mode outbound inbound) (by simp [redirector, on])
      · exact (sidecar_mounts_iff b p _).mp fun s hs => ⟨paths s hs, own s hs⟩
    · intro fits
      have own := (sidecar_mounts_iff b p _).mpr fits.socket
      refine ⟨⟨fun s hs => ?_, fun i hi => ?_⟩, fun s hs => (own s hs).1, fits.mounts,
        fun s hs => (own s hs).2⟩
      · exact fits.sidecarName _ (mem_sidecarName_iff.mpr ⟨s, hs, rfl⟩)
      · obtain ⟨on, rfl⟩ := eq_of_mem_redirector hi
        exact fits.initName on
  rw [← fits]
  obtain ⟨fsGroup, finished⟩ := finishPod_eq annotations
    { spec with
      containers := containers
      initContainers := inits
      volumes := addAll Volume.name spec.volumes volumes } p crName p.bridges
  rw [finished]
  have same := map_shape_finishContainer (credentialsSecretName annotations) p.bridges shapes
  constructor
  · exact WellFormed.congr same (congrArg _ redirected) rfl
  · exact WellFormed.congr same.symm (congrArg _ redirected.symm) rfl

theorem addIfMissing_shape {cs cs' : List Container}
    (shapes : cs.map shape = cs'.map shape)
    (new : c.name ∉ cs'.map Container.name) :
    (addIfMissing Container.name cs c).map shape = (cs' ++ [c]).map shape := by
  rw [← map_name_of_shape shapes] at new
  rw [addIfMissing_of_notMem new, List.map_append, List.map_append, shapes]

theorem initContainers_eq (b : ContainerBuilder) {q : Prop} [Decidable q] (mode : ProxyInitMode)
    (outbound inbound : String)
    (new : proxyInitContainerName ∉ spec.initContainers.map Container.name)
    (redirects : p.redirects = decide q) :
    (if q then addIfMissing Container.name spec.initContainers
        (b.buildProxyInitContainer mode outbound inbound) else spec.initContainers) =
      spec.initContainers ++ redirector b p mode outbound inbound := by
  rw [redirector, redirects]
  by_cases on : q
  · rw [if_pos on, if_pos (decide_eq_true on)]
    exact addIfMissing_of_notMem new
  · simp [on]

theorem placeProxySidecar_wellFormed_iff {ports : Ports} (fresh : isAlreadyInjected spec = false)
    (h : WellFormed spec) (hmode : p.mode = .proxySidecar ∨ p.mode = .lite)
    (names : volumes.map Volume.name = sidecarVolumeNames p.spireEnabled) :
    WellFormed (placeProxySidecar b p annotations volumes crName ports spec) ↔
      Fits p b.cfg.spiffe.socketPath (credentialsSecretName annotations) spec := by
  obtain ⟨⟨-, noProxy⟩, noInit⟩ := isAlreadyInjected_eq_false.mp fresh
  have bridges : p.bridges = p.tlsBridge := by
    rcases hmode with hmode | hmode <;> simp [Posture.bridges, hmode]
  let sidecar := b.buildProxySidecarContainerWithPorts p.spireEnabled (proxyImage b p)
    ports.original ports.forwardProxy
  have own : [sidecar].map shape = (sidecars b p).map shape := by
    rcases hmode with hmode | hmode <;> simp only [sidecars, hmode] <;> rfl
  have containers : (injectHTTPProxyEnvs ports.forwardProxy
      (setEnvOf authBridgeProxyContainerName "MTLS_MODE" p.mtlsMode.text
        (addIfMissing Container.name (relocate ports.newAgent spec.containers) sidecar))).map
          shape = (spec.containers ++ sidecars b p).map shape := by
    rw [map_shape_injectHTTPProxyEnvs, map_shape_setEnvOf,
      addIfMissing_shape (map_shape_relocate _ _) noProxy, List.map_append, own, List.map_append]
  have redirects : p.redirects = decide (p.egressEnforcement = .enforceRedirect) := by
    rcases hmode with hmode | hmode <;> simp [Posture.redirects, hmode]
  have inits := initContainers_eq b .enforceRedirect "" "" noInit redirects
  rw [← finishPod_wellFormed_iff crName fresh h names containers inits, bridges]
  rfl

theorem placeEnvoySidecar_wellFormed_iff (fresh : isAlreadyInjected spec = false)
    (h : WellFormed spec) (hmode : p.mode = .envoySidecar)
    (names : volumes.map Volume.name = sidecarVolumeNames p.spireEnabled) :
    WellFormed (placeEnvoySidecar b p annotations volumes spec) ↔
      Fits p b.cfg.spiffe.socketPath (credentialsSecretName annotations) spec := by
  obtain ⟨⟨noEnvoy, -⟩, noInit⟩ := isAlreadyInjected_eq_false.mp fresh
  have bridges : p.bridges = false := by simp [Posture.bridges, hmode]
  have containers : (setEnvOf envoyProxyContainerName "MTLS_MODE" p.mtlsMode.text
      (if p.decision.envoyProxy then addIfMissing Container.name spec.containers
        (b.buildEnvoyProxyContainerWithSpireOption p.spireEnabled) else spec.containers)).map
          shape = (spec.containers ++ sidecars b p).map shape := by
    rw [map_shape_setEnvOf]
    cases on : p.decision.envoyProxy with
    | true =>
      simp only [sidecars, hmode, on, if_true]
      exact addIfMissing_shape rfl noEnvoy
    | false => simp [sidecars, hmode, on]
  have redirects : p.redirects = decide (p.decision.proxyInit = true) := by
    simp [Posture.redirects, hmode]
  have inits := initContainers_eq b .redirect (annotations.value outboundPortsExcludeKey)
    (annotations.value inboundPortsExcludeKey) noInit redirects
  rw [← finishPod_wellFormed_iff "" fresh h names containers inits, bridges]
  rfl

end Inject

theorem applyCredentials_wellFormed_iff {annotations : StringMap} (h : WellFormed spec) :
    WellFormed (applyKeycloakClientCredentialsSecretVolumes annotations spec) ↔
      ∀ c ∈ spec.containers, MountsFit (credentialsSecretName annotations) false c := by
  have add : Additions (credentialsSecretName annotations) false [] []
      (finishVolumes (credentialsSecretName annotations) "" false spec.volumes) spec := by
    constructor
    · exact List.nodup_nil
    · exact List.forall_mem_nil _
    · exact List.forall_mem_nil _
    · exact List.forall_mem_nil _
    · exact nodup_finishVolumes h.volumes
    · exact fun v hv => mem_finishVolumes.mpr (.inl (.inl hv))
    · exact List.forall_mem_nil _
    · exact fun some => mem_finishVolumes.mpr (.inl (.inr ⟨some, rfl⟩))
    · exact fun on => absurd on Bool.false_ne_true
  have fits := add.wellFormed_iff h
  rw [applyCredentials_eq]
  simpa only [extend, List.append_nil, List.not_mem_nil, IsEmpty.forall_iff, implies_true,
    and_self, true_and] using fits

/-! The handler -/

namespace AuthBridgeWebhook

variable (w : AuthBridgeWebhook)

def Fits (req : Request) : Prop :=
  if isAlreadyInjected req.pod.spec then
    ∀ c ∈ req.pod.spec.containers, MountsFit (credentialsSecretName (w.annotations req)) false c
  else
    Webhook.Fits (w.posture req) w.mutator.platformConfig.spiffe.socketPath
      (credentialsSecretName (w.annotations req)) req.pod.spec

instance (req : Request) : Decidable (w.Fits req) := by
  unfold Fits
  infer_instance

variable {w} {req : Request} {pod : Pod} {cms : List AgentConfigMap}

/-- A patch keeps a pod well formed exactly if the pod leaves room for it. -/
theorem pod_wellFormed_iff_fits (h : w.handle req = .patched pod cms)
    (before : WellFormed req.pod.spec) : WellFormed pod.spec ↔ w.Fits req := by
  obtain ⟨-, -, ⟨injected, -, applied, -⟩ | ⟨fresh, injection⟩⟩ := handle_eq_patched.mp h
  · rw [Fits, if_pos injected, ← applied]
    exact applyCredentials_wellFormed_iff before
  · rw [Fits, fresh, if_neg Bool.false_ne_true]
    obtain ⟨-, settled, account, injection⟩ := PodMutator.injectAuthBridge_eq_some.mp injection
    have spec := PodMutator.settleServiceAccount_spec account
    have containers : req.pod.spec.containers = settled.containers := by rw [← spec]
    have initContainers : req.pod.spec.initContainers = settled.initContainers := by rw [← spec]
    have fresh : isAlreadyInjected settled = false := by rw [← spec]; exact fresh
    have before : WellFormed settled :=
      before.congr (by rw [containers]) (by rw [initContainers]) (by rw [← spec])
    refine Iff.trans ?_ ⟨Webhook.Fits.congr containers.symm initContainers.symm,
      Webhook.Fits.congr containers initContainers⟩
    rcases injection with ⟨hmode, injection⟩ | ⟨hmode, injection⟩
    · obtain ⟨ports, cm, -, -, injected⟩ := injection
      rw [← (Injection.mk.inj injected).1]
      exact placeProxySidecar_wellFormed_iff fresh before hmode (map_name_proxyVolumes _ _ _)
    · obtain ⟨cm, envoyCM, -, -, injected⟩ := injection
      rw [← (Injection.mk.inj injected).1]
      exact placeEnvoySidecar_wellFormed_iff fresh before hmode (map_name_envoyVolumes _ _ _ _)

end AuthBridgeWebhook

/-- A pod with one container that mounts nothing. -/
theorem wellFormed_plain_agent : ∃ pod cms,
    AuthBridgeWebhook.inEmptyCluster.handle (.ofStatefulSet [.agent "agent" []] [] []) =
      .patched pod cms ∧ WellFormed pod.spec := by
  obtain ⟨pod, cms, h, -⟩ : ∃ pod cms, AuthBridgeWebhook.inEmptyCluster.handle
      (.ofStatefulSet [.agent "agent" []] [] []) = .patched pod cms ∧ True := by
    decide +kernel
  refine ⟨pod, cms, h, (AuthBridgeWebhook.pod_wellFormed_iff_fits h ?_).mpr ?_⟩
  · decide +kernel
  · decide +kernel

/-- A container that shares the volume of the sidecar and mounts a file of its own over the client
ID gets a second mount there, and an init container with the name of the sidecar gets a
namesake. -/
theorem taken_path_and_taken_name :
    let ownFile := Request.ofStatefulSet
      [.agent "agent" [⟨"shared-data", "/shared", "", false⟩,
        ⟨"ids", "/shared/client-id.txt", "id", true⟩]] []
      [⟨"shared-data", .emptyDir⟩, ⟨"ids", .configMap "ids" none⟩]
    let ownInit := Request.ofStatefulSet [.agent "agent" []] [.agent "authbridge-proxy" []] []
    ∀ req ∈ [ownFile, ownInit], WellFormed req.pod.spec ∧
      ∃ pod cms, AuthBridgeWebhook.inEmptyCluster.handle req = .patched pod cms ∧
        ¬ WellFormed pod.spec := by
  intro ownFile ownInit
  decide +kernel

end Kagenti.Operator.Webhook
