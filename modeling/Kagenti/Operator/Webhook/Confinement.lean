import Kagenti.Operator.Webhook.WellFormed

/-!
Which containers can read the private key of the TLS bridge. The injector tells volumes and mounts
apart by their names only.
-/

namespace Kagenti.Operator.Webhook

open Go Lib.Keyed
open Injector (authBridgeProxyContainerName proxyInitContainerName)

def caSecretName (crName : String) : String := crName ++ tlsBridgeCASecretSuffix

def tlsKey : String := "tls.key"

section Key

-- which sources of the kinds that the injector does not make have the key
variable (projects : String → Bool) (crName : String)

def VolumeSource.hasKey : VolumeSource → Bool
  | .secret secretName _ _ items =>
    secretName = caSecretName crName && (items.isEmpty || items.any fun item => item.1 = tlsKey)
  | .other description => projects description
  | .emptyDir | .csi _ _ | .configMap _ _ => false

def Exposed (volumes : List Volume) (name : String) : Prop :=
  ∃ v ∈ volumes, v.source.hasKey projects crName = true ∧ v.name = name

def MountedOutside (spec : PodSpec) (name : String) : Prop :=
  (∃ c ∈ spec.containers, c.name ≠ authBridgeProxyContainerName ∧
      name ∈ c.volumeMounts.map VolumeMount.name) ∨
    ∃ c ∈ spec.initContainers, name ∈ c.volumeMounts.map VolumeMount.name

def KeyConfined (spec : PodSpec) : Prop :=
  ∀ v ∈ spec.volumes, v.source.hasKey projects crName = true → ¬ MountedOutside spec v.name

/-- Some container besides the sidecar shares its volume. -/
def SharedOutside (spec : PodSpec) : Prop :=
  ∃ c ∈ spec.containers, c.name ≠ authBridgeProxyContainerName ∧ Shares c

/-- The pod brings no name with it that leads to the key. -/
@[mk_iff]
structure KeyOutOfReach (credentials : String) (spec : PodSpec) : Prop where
  -- nothing mounts a volume of the pod that has the key
  own : KeyConfined projects crName spec
  -- nothing mounts the volume of the sidecar that is still to come
  keypair : tlsBridgeCAVolumeName ∉ spec.volumes.map Volume.name →
    credentials ≠ tlsBridgeCAVolumeName → ¬ MountedOutside spec tlsBridgeCAVolumeName
  -- what the agents are given as the certificate is not a volume of the pod with the key
  certificate : Exposed projects crName spec.volumes tlsBridgeCACertVolumeName →
    ∀ c ∈ spec.containers, c.name = authBridgeProxyContainerName
  -- neither are the client credentials
  files : credentials ≠ "" → Exposed projects crName spec.volumes credentials → ¬ SharedOutside spec
  -- nor do these come from the Secret with the CA
  secret : credentials = caSecretName crName → credentials ∉ spec.volumes.map Volume.name →
    ¬ MountedOutside spec credentials ∧ ¬ SharedOutside spec

instance (volumes : List Volume) (name : String) : Decidable (Exposed projects crName volumes name) :=
  inferInstanceAs (Decidable (∃ v ∈ volumes, _))

instance (spec : PodSpec) (name : String) : Decidable (MountedOutside spec name) :=
  inferInstanceAs (Decidable (_ ∨ _))

instance (spec : PodSpec) : Decidable (KeyConfined projects crName spec) :=
  inferInstanceAs (Decidable (∀ v ∈ spec.volumes, _))

instance (spec : PodSpec) : Decidable (SharedOutside spec) :=
  inferInstanceAs (Decidable (∃ c ∈ spec.containers, _))

instance (credentials : String) (spec : PodSpec) :
    Decidable (KeyOutOfReach projects crName credentials spec) :=
  decidable_of_iff _ (keyOutOfReach_iff projects crName credentials spec).symm

theorem keyConfined_iff {spec : PodSpec} : KeyConfined projects crName spec ↔
    ∀ name, Exposed projects crName spec.volumes name → ¬ MountedOutside spec name := by
  constructor
  · rintro confined name ⟨v, hv, key, rfl⟩
    exact confined v hv key
  · exact fun confined v hv key => confined v.name ⟨v, hv, key, rfl⟩

end Key

/-! The volumes of the injected pod -/

section Volumes

variable {projects : String → Bool} {crName credentials name : String} {volumes : List Volume}

theorem exposed_addIfMissing {v : Volume} :
    Exposed projects crName (addIfMissing Volume.name volumes v) name ↔
      Exposed projects crName volumes name ∨
        v.name ∉ volumes.map Volume.name ∧ v.source.hasKey projects crName = true ∧ v.name = name :=
  exists_mem_addIfMissing

variable {added : List Volume}

theorem exposed_addAll_of_keyless (keyless : ∀ v ∈ added, v.source.hasKey projects crName = false) :
    Exposed projects crName (addAll Volume.name volumes added) name ↔
      Exposed projects crName volumes name := by
  induction added generalizing volumes with
  | nil => exact Iff.rfl
  | cons v added ih =>
    have rest := @ih (addIfMissing Volume.name volumes v)
      fun v' hv' => keyless v' (List.mem_cons_of_mem v hv')
    refine rest.trans (exposed_addIfMissing.trans (or_iff_left ?_))
    rintro ⟨-, key, -⟩
    rw [keyless v List.mem_cons_self] at key
    cases key

theorem hasKey_overrideConfigMap (volumeName cmName : String) (v : Volume) :
    (overrideConfigMap volumeName cmName v).source.hasKey projects crName =
      v.source.hasKey projects crName := by
  unfold overrideConfigMap
  split
  · split
    · next source => rw [source]; rfl
    · rfl
  · rfl

theorem proxyVolumes_keyless (m : PodMutator) (p : Posture) (cmName : String) :
    ∀ v ∈ m.proxyVolumes p cmName, v.source.hasKey projects crName = false := by
  have required : ∀ v ∈ m.requiredVolumes p.spireEnabled, v.source.hasKey projects crName = false := by
    unfold PodMutator.requiredVolumes
    cases m.featureGates.perWorkloadConfigResolution <;> cases p.spireEnabled <;>
      simp [buildResolvedVolumes, buildRequiredVolumes, buildRequiredVolumesNoSpire, spireVolumes,
        optionalConfigMap, VolumeSource.hasKey]
  intro v hv
  obtain ⟨v₀, hv₀, rfl⟩ := List.mem_map.mp hv
  rw [hasKey_overrideConfigMap]
  exact required v₀ hv₀

theorem caSecretName_ne {s : String}
    (h : ¬ tlsBridgeCASecretSuffix.toList <:+ s.toList) : caSecretName crName ≠ s := by
  rintro rfl
  rw [caSecretName, String.toList_append] at h
  exact h (List.suffix_append _ _)

theorem exposed_bridgeVolumes :
    Exposed projects crName (addAll Volume.name volumes (tlsBridgeVolumes crName)) name ↔
      Exposed projects crName volumes name ∨
        tlsBridgeCAVolumeName ∉ volumes.map Volume.name ∧ tlsBridgeCAVolumeName = name := by
  have both : addAll Volume.name volumes (tlsBridgeVolumes crName) =
      addIfMissing Volume.name (addIfMissing Volume.name volumes
        ⟨tlsBridgeCAVolumeName, .secret (caSecretName crName) none (some 0o444) []⟩)
        ⟨tlsBridgeCACertVolumeName,
          .secret (caSecretName crName) none (some 0o444) [("ca.crt", "ca.crt")]⟩ := rfl
  have certificate : ("ca.crt" = tlsKey) = False := by decide
  rw [both, exposed_addIfMissing, exposed_addIfMissing]
  simp [VolumeSource.hasKey, certificate]

theorem exposed_credentialsVolume :
    Exposed projects crName (addIfMissing Volume.name volumes (credentialsVolume credentials)) name ↔
      Exposed projects crName volumes name ∨
        credentials ∉ volumes.map Volume.name ∧ credentials = caSecretName crName ∧
          credentials = name := by
  rw [exposed_addIfMissing]
  simp [credentialsVolume, keycloakClientCredentialsVolumeName, VolumeSource.hasKey]

theorem caSecretName_notMem_sidecarVolumeNames (spireEnabled : Bool) :
    caSecretName crName ∉ sidecarVolumeNames spireEnabled := by
  intro mem
  have apart : ∀ s ∈ sidecarVolumeNames spireEnabled,
      ¬ tlsBridgeCASecretSuffix.toList <:+ s.toList := by
    cases spireEnabled <;> decide
  exact caSecretName_ne (apart _ mem) rfl

theorem exposed_finishVolumes {spireEnabled : Bool}
    (keyless : ∀ v ∈ added, v.source.hasKey projects crName = false)
    (names : added.map Volume.name = sidecarVolumeNames spireEnabled) : Exposed projects crName
        (finishVolumes credentials crName true (addAll Volume.name volumes added)) name ↔
      Exposed projects crName volumes name ∨
        (credentials ∉ volumes.map Volume.name ∧ credentials = caSecretName crName ∧
          credentials = name) ∨
        (tlsBridgeCAVolumeName ∉ volumes.map Volume.name ∧ credentials ≠ tlsBridgeCAVolumeName) ∧
          tlsBridgeCAVolumeName = name := by
  have secret_some : caSecretName crName ≠ "" := caSecretName_ne (by decide)
  have secret_new : caSecretName crName ∉ sidecarVolumeNames spireEnabled :=
    caSecretName_notMem_sidecarVolumeNames spireEnabled
  have keypair_new : tlsBridgeCAVolumeName ∉ sidecarVolumeNames spireEnabled := by
    cases spireEnabled <;> decide
  unfold finishVolumes
  rw [if_pos rfl, exposed_bridgeVolumes, ← or_assoc]
  split
  · next none =>
    have keypair_some : credentials ≠ tlsBridgeCAVolumeName := none ▸ by decide
    have noSecret : credentials ≠ caSecretName crName := none ▸ secret_some.symm
    rw [exposed_addAll_of_keyless keyless, mem_map_addAll, names]
    simp only [keypair_new, keypair_some, noSecret, or_false, and_true, false_and, and_false, ne_eq,
      not_false_eq_true]
  · rw [exposed_credentialsVolume, exposed_addAll_of_keyless keyless, mem_map_addIfMissing,
      mem_map_addAll, mem_map_addAll, names]
    refine or_congr (or_congr_right ?_) (and_congr_left' ?_)
    · refine and_congr_left fun isSecret => ?_
      rw [isSecret.1, not_or, and_iff_left secret_new]
    · rw [or_iff_left keypair_new, not_or]
      exact and_congr_right fun _ => ne_comm

end Volumes

/-! The mounts of the injected pod -/

section Mounts

variable {credentials name : String} {c : Container}

theorem mem_names_finishContainer (outside : c.name ≠ authBridgeProxyContainerName) :
    name ∈ (finishContainer credentials true c).volumeMounts.map VolumeMount.name ↔
      name ∈ c.volumeMounts.map VolumeMount.name ∨
        (credentials ≠ "" ∧ Shares c ∧ name = credentials) ∨ name = tlsBridgeCACertVolumeName := by
  have files : name ∈ (withCredentials credentials c).volumeMounts.map VolumeMount.name ↔
      name ∈ c.volumeMounts.map VolumeMount.name ∨ credentials ≠ "" ∧ Shares c ∧ name = credentials := by
    unfold withCredentials
    split
    · next none => simp [none]
    · next some => simp only [mem_names_mountCredentials, some, ne_eq, not_false_eq_true, true_and]
  have certificate : tlsBridgeVolumeFor (withCredentials credentials c) =
      tlsBridgeCACertVolumeName := by
    rw [tlsBridgeVolumeFor_withCredentials, tlsBridgeVolumeFor, if_neg outside]
  unfold finishContainer
  rw [if_pos rfl, volumeMounts_mountTLSBridge, mem_map_addIfMissing, files, certificate, or_assoc]

end Mounts

section Place

variable (b : ContainerBuilder) (p : Posture) (annotations : StringMap) (volumes : List Volume)
  (crName : String) (ports : Ports) {spec : PodSpec} {name : String}

theorem exists_congr_shape {cs cs' : List Container} {P : String × List VolumeMount → Prop}
    (h : cs.map Container.shape = cs'.map Container.shape) :
    (∃ c ∈ cs, P c.shape) ↔ ∃ c ∈ cs', P c.shape := by
  have shapes (l : List Container) : (∃ c ∈ l, P c.shape) ↔ ∃ s ∈ l.map Container.shape, P s := by
    simp
  rw [shapes, h, ← shapes]

theorem exists_outside_placed (spec : PodSpec) (sidecar : Container)
    (isProxy : sidecar.name = authBridgeProxyContainerName)
    {P : List VolumeMount → Prop} :
    (∃ c ∈ injectHTTPProxyEnvs ports.forwardProxy
        (setEnvOf authBridgeProxyContainerName "MTLS_MODE" p.mtlsMode.text
          (addIfMissing Container.name (relocate ports.newAgent spec.containers) sidecar)),
        c.name ≠ authBridgeProxyContainerName ∧ P c.volumeMounts) ↔
      ∃ c ∈ spec.containers, c.name ≠ authBridgeProxyContainerName ∧ P c.volumeMounts := by
  let Q : String × List VolumeMount → Prop := fun s => s.1 ≠ authBridgeProxyContainerName ∧ P s.2
  have steps := (map_shape_injectHTTPProxyEnvs ports.forwardProxy _).trans
    (map_shape_setEnvOf authBridgeProxyContainerName "MTLS_MODE" p.mtlsMode.text
      (addIfMissing Container.name (relocate ports.newAgent spec.containers) sidecar))
  refine (exists_congr_shape (P := Q) steps).trans (Iff.trans ?_
    (exists_congr_shape (P := Q) (map_shape_relocate ports.newAgent spec.containers)))
  exact exists_mem_addIfMissing.trans (or_iff_left fun ⟨_, outside, _⟩ => outside isProxy)

theorem mountedOutside_placeProxySidecar (on : p.tlsBridge = true) :
    MountedOutside (placeProxySidecar b p annotations volumes crName ports spec) name ↔
      MountedOutside spec name ∨
        (credentialsSecretName annotations ≠ "" ∧ SharedOutside spec ∧
          name = credentialsSecretName annotations) ∨
        (∃ c ∈ spec.containers, c.name ≠ authBridgeProxyContainerName) ∧
          name = tlsBridgeCACertVolumeName := by
  unfold placeProxySidecar
  obtain ⟨fsGroup, finished⟩ := finishPod_eq annotations _ p crName p.tlsBridge
  rw [finished, on]
  generalize credentialsSecretName annotations = credentials
  let sidecar := b.buildProxySidecarContainerWithPorts p.spireEnabled (proxyImage b p)
    ports.original ports.forwardProxy
  -- what the last steps make of the names that a container mounts
  let After : List VolumeMount → Prop := fun mounts =>
    name ∈ mounts.map VolumeMount.name ∨
      (credentials ≠ "" ∧ "shared-data" ∈ mounts.map VolumeMount.name ∧ name = credentials) ∨
        name = tlsBridgeCACertVolumeName
  have containers := exists_outside_placed p ports spec sidecar rfl (P := After)
  have inits : (∃ c ∈ (if p.egressEnforcement = .enforceRedirect then
        addIfMissing Container.name spec.initContainers
          (b.buildProxyInitContainer .enforceRedirect "" "")
      else spec.initContainers), name ∈ c.volumeMounts.map VolumeMount.name) ↔
        ∃ c ∈ spec.initContainers, name ∈ c.volumeMounts.map VolumeMount.name := by
    split
    · refine exists_mem_addIfMissing.trans (or_iff_left ?_)
      rintro ⟨-, mounted⟩
      cases mounted
    · exact Iff.rfl
  have finish (cs : List Container) : (∃ c ∈ cs.map (finishContainer credentials true),
      c.name ≠ authBridgeProxyContainerName ∧ name ∈ c.volumeMounts.map VolumeMount.name) ↔
        ∃ c ∈ cs, c.name ≠ authBridgeProxyContainerName ∧ After c.volumeMounts := by
    constructor
    · rintro ⟨c', hc', outside, mounted⟩
      obtain ⟨c, hc, rfl⟩ := List.mem_map.mp hc'
      rw [name_finishContainer] at outside
      exact ⟨c, hc, outside, (mem_names_finishContainer outside).mp mounted⟩
    · rintro ⟨c, hc, outside, after⟩
      refine ⟨_, List.mem_map_of_mem hc, ?_, (mem_names_finishContainer outside).mpr after⟩
      rwa [name_finishContainer]
  unfold MountedOutside
  rw [finish, containers, inits]
  simp only [After, and_or_left, exists_or]
  have shared : (∃ c ∈ spec.containers, c.name ≠ authBridgeProxyContainerName ∧
      credentials ≠ "" ∧ "shared-data" ∈ c.volumeMounts.map VolumeMount.name ∧
        name = credentials) ↔ credentials ≠ "" ∧ SharedOutside spec ∧ name = credentials := by
    constructor
    · rintro ⟨c, hc, outside, some, shares, same⟩
      exact ⟨some, ⟨c, hc, outside, shares⟩, same⟩
    · rintro ⟨some, ⟨c, hc, outside, shares⟩, same⟩
      exact ⟨c, hc, outside, some, shares, same⟩
  have agents : (∃ c ∈ spec.containers, c.name ≠ authBridgeProxyContainerName ∧
      name = tlsBridgeCACertVolumeName) ↔ (∃ c ∈ spec.containers,
        c.name ≠ authBridgeProxyContainerName) ∧ name = tlsBridgeCACertVolumeName := by
    simp only [← and_assoc, exists_and_right]
  rw [shared, agents, or_right_comm]

theorem placeProxySidecar_keyConfined_iff {projects : String → Bool} (on : p.tlsBridge = true)
    (keyless : ∀ v ∈ volumes, v.source.hasKey projects crName = false)
    (names : volumes.map Volume.name = sidecarVolumeNames p.spireEnabled) :
    KeyConfined projects crName (placeProxySidecar b p annotations volumes crName ports spec) ↔
      KeyOutOfReach projects crName (credentialsSecretName annotations) spec := by
  have placed : (placeProxySidecar b p annotations volumes crName ports spec).volumes =
      finishVolumes (credentialsSecretName annotations) crName true
        (addAll Volume.name spec.volumes volumes) := by
    unfold placeProxySidecar
    obtain ⟨fsGroup, finished⟩ := finishPod_eq annotations _ p crName p.tlsBridge
    rw [finished, on]
  rw [keyConfined_iff, keyOutOfReach_iff, keyConfined_iff]
  simp only [placed, exposed_finishVolumes keyless names, mountedOutside_placeProxySidecar b p
    annotations volumes crName ports on]
  generalize credentialsSecretName annotations = credentials
  have secret_some : caSecretName crName ≠ "" := caSecretName_ne (by decide)
  constructor
  · intro confined
    refine ⟨?_, ?_, ?_, ?_, ?_⟩
    · exact fun name exposed mounted => confined name (.inl exposed) (.inl mounted)
    · exact fun new other mounted => confined _ (.inr (.inr ⟨⟨new, other⟩, rfl⟩)) (.inl mounted)
    · intro exposed c hc
      by_contra outside
      exact confined _ (.inl exposed) (.inr (.inr ⟨⟨c, hc, outside⟩, rfl⟩))
    · exact fun some exposed shared =>
        confined _ (.inl exposed) (.inr (.inl ⟨some, shared, rfl⟩))
    · intro isSecret new
      have exposed := confined credentials (.inr (.inl ⟨new, isSecret, rfl⟩))
      exact ⟨fun mounted => exposed (.inl mounted),
        fun shared => exposed (.inr (.inl ⟨isSecret ▸ secret_some, shared, rfl⟩))⟩
  · rintro ⟨own, keypair, certificate, files, secret⟩ name (exposed | ⟨new, isSecret, rfl⟩ | ⟨⟨new, other⟩, rfl⟩)
    · rintro (mounted | ⟨some, shared, rfl⟩ | ⟨⟨c, hc, outside⟩, rfl⟩)
      · exact own name exposed mounted
      · exact files some exposed shared
      · exact outside (certificate exposed c hc)
    · rintro (mounted | ⟨-, shared, -⟩ | ⟨-, same⟩)
      · exact (secret isSecret new).1 mounted
      · exact (secret isSecret new).2 shared
      · exact caSecretName_ne (by decide) (isSecret.symm.trans same)
    · rintro (mounted | ⟨-, -, same⟩ | ⟨-, same⟩)
      · exact keypair new other mounted
      · exact other same.symm
      · exact absurd same (by decide)

end Place

/-- An injection with the bridge keeps the key with the sidecar exactly if no name of the pod leads
to it. -/
theorem PodMutator.keyConfined_iff_outOfReach {m : PodMutator} {ns crName : String}
    {labels : Option StringMap} {annotations : StringMap} {spec : PodSpec} {i : Injection}
    (projects : String → Bool)
    (h : m.injectAuthBridge ns crName labels annotations spec = .ok (some i))
    (on : (m.posture ns labels annotations).bridges = true) :
    KeyConfined projects crName i.spec ↔
      KeyOutOfReach projects crName (credentialsSecretName annotations) spec := by
  obtain ⟨bridge, mode⟩ : (m.posture ns labels annotations).tlsBridge = true ∧
      (m.posture ns labels annotations).mode ≠ .envoySidecar := by
    simpa [Posture.bridges] using on
  obtain ⟨-, settled, account, ⟨-, proxied⟩ | ⟨envoy, -⟩⟩ := injectAuthBridge_eq_some.mp h
  · obtain ⟨ports, cm, -, -, placed⟩ := proxied
    rw [← (Injection.mk.inj placed).1, placeProxySidecar_keyConfined_iff _ _ _ _ _ _ bridge
      (proxyVolumes_keyless m _ _) (map_name_proxyVolumes m _ _)]
    rw [← settleServiceAccount_spec account]
    exact ⟨fun reach => ⟨reach.own, reach.keypair, reach.certificate, reach.files, reach.secret⟩,
      fun reach => ⟨reach.own, reach.keypair, reach.certificate, reach.files, reach.secret⟩⟩
  · exact absurd envoy mode

namespace BridgedAgent

def mutator : PodMutator :=
  .withRuntimeConfig "tls_bridge:\n  mode: enabled" (.obj [("tls_bridge", .obj [("mode", .str "enabled")])])

def labels : Option StringMap := some ((∅ : StringMap).insert AgentRuntime.labelAgentType "agent")

def spec (mounts : List VolumeMount) (volumes : List Volume) : PodSpec :=
  ⟨"", [.agent "agent" mounts], [], volumes, none⟩

/-- An agent with a volume of its own. -/
theorem key_confined_plain_agent : ∃ i,
    mutator.injectAuthBridge "team" "agent" labels ∅
        (spec [⟨"data", "/data", "", false⟩] [⟨"data", .emptyDir⟩]) = .ok (some i) ∧
      KeyConfined (fun _ => false) "agent" i.spec := by
  obtain ⟨i, injected, -⟩ : ∃ i, mutator.injectAuthBridge "team" "agent" labels ∅
      (spec [⟨"data", "/data", "", false⟩] [⟨"data", .emptyDir⟩]) = .ok (some i) ∧ True := by
    decide +kernel
  refine ⟨i, injected, (PodMutator.keyConfined_iff_outOfReach _ injected ?_).mpr ?_⟩
  · decide +kernel
  · decide +kernel

def mountsKey : PodSpec := spec [⟨"tls-bridge-ca", "/ca", "", true⟩] []

def bringsVolume : PodSpec :=
  spec [] [⟨"tls-bridge-ca-cert", .secret "agent-tls-bridge-ca" none none []⟩]

/-- Both get the key. -/
theorem key_mounted_by_agent :
    (∃ i, mutator.injectAuthBridge "team" "agent" labels ∅ mountsKey = .ok (some i) ∧
      ¬ KeyConfined (fun _ => false) "agent" i.spec) ∧
    ∃ i, mutator.injectAuthBridge "team" "agent" labels ∅ bringsVolume = .ok (some i) ∧
      ¬ KeyConfined (fun _ => false) "agent" i.spec := by
  constructor <;> decide +kernel

end BridgedAgent

end Kagenti.Operator.Webhook
