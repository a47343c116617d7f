import Kagenti.Operator.Webhook.Mounts

/-!
When a pod stays well formed that gets containers and volumes more and goes through the last steps
of an injection.
-/

namespace Kagenti.Operator.Webhook

open Go Lib.Keyed

@[mk_iff]
structure WellFormed (spec : PodSpec) : Prop where
  names : ((spec.containers ++ spec.initContainers).map Container.name).Nodup
  volumes : (spec.volumes.map Volume.name).Nodup
  mounted : ∀ c ∈ spec.containers ++ spec.initContainers, ∀ m ∈ c.volumeMounts,
    m.name ∈ spec.volumes.map Volume.name
  paths : ∀ c ∈ spec.containers ++ spec.initContainers,
    (c.volumeMounts.map VolumeMount.mountPath).Nodup

instance (spec : PodSpec) : Decidable (WellFormed spec) :=
  decidable_of_iff _ (wellFormed_iff spec).symm

/-! What well-formedness depends on -/

def Container.shape (c : Container) : String × List VolumeMount := (c.name, c.volumeMounts)

open Container (shape)

theorem map_shape_relocate (p : Int) (cs : List Container) :
    (relocate p cs).map shape = cs.map shape := by
  induction cs with
  | nil => rfl
  | cons c cs ih =>
    rw [relocate]
    split
    · rw [List.map_cons, List.map_cons, ih]
    · split
      · rw [List.map_cons, List.map_cons, ih]
      · rfl

section

variable {β : Type*} {f : Container → β} (keeps : ∀ c env, f { c with env := env } = f c)
  (cs : List Container)

include keeps

theorem map_setEnvOf (container name value : String) :
    (setEnvOf container name value cs).map f = cs.map f := by
  induction cs with
  | nil => rfl
  | cons c cs ih =>
    rw [setEnvOf]
    split
    · rw [List.map_cons, List.map_cons, keeps]
    · rw [List.map_cons, List.map_cons, ih]

theorem map_injectHTTPProxyEnvs (port : Int) : (injectHTTPProxyEnvs port cs).map f = cs.map f := by
  rw [injectHTTPProxyEnvs, List.map_map]
  refine List.map_congr_left fun c _ => ?_
  dsimp only [Function.comp_apply]
  split
  · rfl
  · exact keeps c _

end

theorem map_shape_setEnvOf (container name value : String) (cs : List Container) :
    (setEnvOf container name value cs).map shape = cs.map shape :=
  map_setEnvOf (fun _ _ => rfl) cs container name value

theorem map_shape_injectHTTPProxyEnvs (port : Int) (cs : List Container) :
    (injectHTTPProxyEnvs port cs).map shape = cs.map shape :=
  map_injectHTTPProxyEnvs (fun _ _ => rfl) cs port

variable {cs cs' : List Container}

theorem map_name_of_shape (h : cs.map shape = cs'.map shape) :
    cs.map Container.name = cs'.map Container.name := by
  have names := congrArg (List.map Prod.fst) h
  rw [List.map_map, List.map_map] at names
  exact names

theorem shape_finishContainer {credentials : String} {tlsBridge : Bool} {c c' : Container}
    (h : c.shape = c'.shape) :
    (finishContainer credentials tlsBridge c).shape =
      (finishContainer credentials tlsBridge c').shape := by
  have name : c.name = c'.name := congrArg Prod.fst h
  have mounts : c.volumeMounts = c'.volumeMounts := congrArg Prod.snd h
  have files : (withCredentials credentials c).volumeMounts =
      (withCredentials credentials c').volumeMounts := by
    unfold withCredentials mountCredentials
    split
    · exact mounts
    · rw [mounts]
      split
      · simp only [appendSubPathMount, mounts]
      · exact mounts
  have volume : tlsBridgeVolumeFor c = tlsBridgeVolumeFor c' := by
    rw [tlsBridgeVolumeFor, name, tlsBridgeVolumeFor]
  refine Prod.ext (by simpa [shape] using name) ?_
  unfold finishContainer shape
  split
  · simp only [volumeMounts_mountTLSBridge, tlsBridgeVolumeFor_withCredentials, files, volume]
  · exact files

theorem map_shape_finishContainer (credentials : String) (tlsBridge : Bool)
    (h : cs.map shape = cs'.map shape) :
    (cs.map (finishContainer credentials tlsBridge)).map shape =
      (cs'.map (finishContainer credentials tlsBridge)).map shape := by
  induction cs generalizing cs' with
  | nil =>
    cases cs' with
    | nil => rfl
    | cons c' cs' => cases h
  | cons c cs ih =>
    cases cs' with
    | nil => cases h
    | cons c' cs' =>
      obtain ⟨head, tail⟩ := List.cons.inj h
      simp only [List.map_cons, shape_finishContainer head, ih tail]

theorem WellFormed.congr {spec spec' : PodSpec}
    (containers : spec.containers.map shape = spec'.containers.map shape)
    (initContainers : spec.initContainers.map shape = spec'.initContainers.map shape)
    (volumes : spec.volumes = spec'.volumes) (h : WellFormed spec) : WellFormed spec' := by
  have shapes : (spec.containers ++ spec.initContainers).map shape =
      (spec'.containers ++ spec'.initContainers).map shape := by
    rw [List.map_append, List.map_append, containers, initContainers]
  have old (c : Container) (hc : c ∈ spec'.containers ++ spec'.initContainers) :
      ∃ c₀ ∈ spec.containers ++ spec.initContainers, c₀.volumeMounts = c.volumeMounts := by
    have mem := List.mem_map_of_mem (f := shape) hc
    rw [← shapes] at mem
    obtain ⟨c₀, hc₀, same⟩ := List.mem_map.mp mem
    exact ⟨c₀, hc₀, congrArg Prod.snd same⟩
  constructor
  · rw [← map_name_of_shape shapes]
    exact h.names
  · rw [← volumes]
    exact h.volumes
  · intro c hc m hm
    obtain ⟨c₀, hc₀, same⟩ := old c hc
    rw [← volumes]
    exact h.mounted c₀ hc₀ m (same ▸ hm)
  · intro c hc
    obtain ⟨c₀, hc₀, same⟩ := old c hc
    rw [← same]
    exact h.paths c₀ hc₀

/-! Adding to a pod -/

def extend (credentials : String) (tlsBridge : Bool) (sidecars inits : List Container)
    (volumes : List Volume) (spec : PodSpec) : PodSpec :=
  { spec with
    containers := (spec.containers ++ sidecars).map (finishContainer credentials tlsBridge)
    initContainers := spec.initContainers ++ inits
    volumes := volumes }

structure Additions (credentials : String) (tlsBridge : Bool) (sidecars inits : List Container)
    (volumes : List Volume) (spec : PodSpec) : Prop where
  names_nodup : (sidecars.map Container.name ++ inits.map Container.name).Nodup
  sidecars_new : ∀ s ∈ sidecars, s.name ∉ spec.containers.map Container.name
  inits_new : ∀ i ∈ inits, i.name ∉ spec.initContainers.map Container.name
  inits_mounts : ∀ i ∈ inits, i.volumeMounts = []
  volumes_nodup : (volumes.map Volume.name).Nodup
  volumes_old : ∀ v ∈ spec.volumes.map Volume.name, v ∈ volumes.map Volume.name
  sidecars_mounted : ∀ s ∈ sidecars, ∀ m ∈ s.volumeMounts, m.name ∈ volumes.map Volume.name
  credentials_volume : credentials ≠ "" → credentials ∈ volumes.map Volume.name
  tlsBridge_volumes : tlsBridge = true → ∀ c, tlsBridgeVolumeFor c ∈ volumes.map Volume.name

variable {α : Type*}

theorem nodup_append_append_iff {a b c d : List α} (hac : (a ++ c).Nodup) (hbd : (b ++ d).Nodup)
    (hba : b.Disjoint a) (hdc : d.Disjoint c) :
    ((a ++ b) ++ (c ++ d)).Nodup ↔ b.Disjoint c ∧ d.Disjoint a := by
  simp only [List.nodup_append', List.disjoint_append_left, List.disjoint_append_right]
    at hac hbd ⊢
  constructor
  · rintro ⟨-, -, ⟨-, hbc⟩, had, -⟩
    exact ⟨hbc, List.disjoint_symm had⟩
  · rintro ⟨hbc, hda⟩
    exact ⟨⟨hac.1, hbd.1, List.disjoint_symm hba⟩, ⟨hac.2.1, hbd.2.1, List.disjoint_symm hdc⟩,
      ⟨hac.2.2, hbc⟩, List.disjoint_symm hda, hbd.2.2⟩

theorem disjoint_map_iff {β : Type*} {f : α → β} {l : List α} {names : List β} :
    (l.map f).Disjoint names ↔ ∀ x ∈ l, f x ∉ names := by
  simp [List.disjoint_left]

section Additions

variable {credentials : String} {tlsBridge : Bool} {sidecars inits : List Container}
  {volumes : List Volume} {spec : PodSpec}
  (add : Additions credentials tlsBridge sidecars inits volumes spec) (h : WellFormed spec)
include add h

theorem Additions.names_iff :
    (((extend credentials tlsBridge sidecars inits volumes spec).containers ++
        (extend credentials tlsBridge sidecars inits volumes spec).initContainers).map
          Container.name).Nodup ↔
      (∀ s ∈ sidecars, s.name ∉ spec.initContainers.map Container.name) ∧
        ∀ i ∈ inits, i.name ∉ spec.containers.map Container.name := by
  have names : ((spec.containers ++ sidecars).map (finishContainer credentials tlsBridge)).map
      Container.name = spec.containers.map Container.name ++ sidecars.map Container.name := by
    rw [List.map_map, ← List.map_append]
    exact List.map_congr_left fun c _ => name_finishContainer
  have old := h.names
  rw [List.map_append] at old
  rw [extend, List.map_append, names, List.map_append,
    nodup_append_append_iff old add.names_nodup (disjoint_map_iff.mpr add.sidecars_new)
      (disjoint_map_iff.mpr add.inits_new), disjoint_map_iff, disjoint_map_iff]

theorem Additions.mounted :
    let pod := extend credentials tlsBridge sidecars inits volumes spec
    ∀ c ∈ pod.containers ++ pod.initContainers, ∀ m ∈ c.volumeMounts,
      m.name ∈ pod.volumes.map Volume.name := by
  intro pod c hc m hm
  rcases List.mem_append.mp hc with hc | hc
  · obtain ⟨c₀, hc₀, rfl⟩ := List.mem_map.mp hc
    rcases mem_finishContainer hm with hm | ⟨some, same⟩ | ⟨on, same⟩
    · rcases List.mem_append.mp hc₀ with hc₀ | hc₀
      · exact add.volumes_old _ (h.mounted c₀ (List.mem_append_left _ hc₀) m hm)
      · exact add.sidecars_mounted c₀ hc₀ m hm
    · rw [same]
      exact add.credentials_volume some
    · rw [same]
      exact add.tlsBridge_volumes on c₀
  · rcases List.mem_append.mp hc with hc | hc
    · exact add.volumes_old _ (h.mounted c (List.mem_append_right _ hc) m hm)
    · rw [add.inits_mounts c hc] at hm
      cases hm

theorem Additions.paths_iff :
    let pod := extend credentials tlsBridge sidecars inits volumes spec
    (∀ c ∈ pod.containers ++ pod.initContainers,
        (c.volumeMounts.map VolumeMount.mountPath).Nodup) ↔
      (∀ s ∈ sidecars, (s.volumeMounts.map VolumeMount.mountPath).Nodup) ∧
        ∀ c ∈ spec.containers ++ sidecars, MountsFit credentials tlsBridge c := by
  constructor
  · intro paths
    have finished (c : Container) (hc : c ∈ spec.containers ++ sidecars) :=
      paths _ (List.mem_append_left _ (List.mem_map_of_mem hc))
    have before (c : Container) (hc : c ∈ spec.containers ++ sidecars) :
        (c.volumeMounts.map VolumeMount.mountPath).Nodup :=
      (finished c hc).sublist (sublist_finishContainer.map _)
    refine ⟨fun s hs => before s (List.mem_append_right _ hs), fun c hc => ?_⟩
    exact (nodup_paths_finishContainer_iff (before c hc)).mp (finished c hc)
  · rintro ⟨own, fit⟩ c hc
    rcases List.mem_append.mp hc with hc | hc
    · obtain ⟨c₀, hc₀, rfl⟩ := List.mem_map.mp hc
      have before : (c₀.volumeMounts.map VolumeMount.mountPath).Nodup := by
        rcases List.mem_append.mp hc₀ with old | new
        · exact h.paths c₀ (List.mem_append_left _ old)
        · exact own c₀ new
      exact (nodup_paths_finishContainer_iff before).mpr (fit c₀ hc₀)
    · rcases List.mem_append.mp hc with hc | hc
      · exact h.paths c (List.mem_append_right _ hc)
      · rw [add.inits_mounts c hc]
        exact List.nodup_nil

theorem Additions.wellFormed_iff :
    WellFormed (extend credentials tlsBridge sidecars inits volumes spec) ↔
      ((∀ s ∈ sidecars, s.name ∉ spec.initContainers.map Container.name) ∧
        ∀ i ∈ inits, i.name ∉ spec.containers.map Container.name) ∧
      (∀ s ∈ sidecars, (s.volumeMounts.map VolumeMount.mountPath).Nodup) ∧
        ∀ c ∈ spec.containers ++ sidecars, MountsFit credentials tlsBridge c := by
  constructor
  · intro pod
    exact ⟨(add.names_iff h).mp pod.names, (add.paths_iff h).mp pod.paths⟩
  · rintro ⟨names, paths⟩
    exact ⟨(add.names_iff h).mpr names, add.volumes_nodup, add.mounted h,
      (add.paths_iff h).mpr paths⟩

end Additions

end Kagenti.Operator.Webhook
