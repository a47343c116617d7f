import Kagenti.Operator.Webhook.Effects

/-!
The mounts that the last steps of an injection add to one container. A step adds its mount unless it
finds one that it takes for its own.
-/

namespace Kagenti.Operator.Webhook

open Go Lib.Keyed
open VolumeMount (mountPath)
open Injector (authBridgeProxyContainerName)

def Free (vol path : String) (mounts : List VolumeMount) : Prop :=
  ∀ m ∈ mounts, m.mountPath = path → m.name = vol

instance (vol path : String) (mounts : List VolumeMount) : Decidable (Free vol path mounts) :=
  inferInstanceAs (Decidable (∀ m ∈ mounts, m.mountPath = path → m.name = vol))

/-- The container mounts the volume that is shared with the sidecar. -/
def Shares (c : Container) : Prop := "shared-data" ∈ c.volumeMounts.map VolumeMount.name

instance (c : Container) : Decidable (Shares c) :=
  inferInstanceAs (Decidable ("shared-data" ∈ c.volumeMounts.map VolumeMount.name))

variable {vol : String}

theorem free_iff {path : String} {mounts : List VolumeMount}
    (h : (mounts.map mountPath).Nodup) :
    (vol, path) ∈ mounts.map VolumeMount.place ∨ path ∉ mounts.map mountPath ↔
      Free vol path mounts := by
  constructor
  · rintro (placed | unused) m hm rfl
    · obtain ⟨m', hm', same⟩ := List.mem_map.mp placed
      have : m' = m := List.inj_on_of_nodup_map h hm' hm (congrArg Prod.snd same)
      rw [← this]
      exact congrArg Prod.fst same
    · exact absurd (List.mem_map_of_mem hm) unused
  · intro free
    by_cases used : path ∈ mounts.map mountPath
    · obtain ⟨m, hm, same⟩ := List.mem_map.mp used
      exact .inl (List.mem_map.mpr ⟨m, hm, Prod.ext (free m hm same) same⟩)
    · exact .inr used

theorem clientSecretPath_ne_clientIDPath : clientSecretPath ≠ clientIDPath := by decide

theorem nodup_paths_mountCredentials_iff {c : Container}
    (h : (c.volumeMounts.map mountPath).Nodup) :
    ((mountCredentials vol c).volumeMounts.map mountPath).Nodup ↔
      (Shares c → Free vol clientSecretPath c.volumeMounts ∧
        Free vol clientIDPath c.volumeMounts) := by
  by_cases shared : Shares c
  · have mounted : mountCredentials vol c = appendSubPathMount vol "client-id.txt" clientIDPath
        (appendSubPathMount vol "client-secret.txt" clientSecretPath c) :=
      if_pos (hasKey_iff.mpr shared)
    rw [mounted]
    simp only [shared, forall_const]
    rw [← free_iff h, ← free_iff h]
    have first : ((appendSubPathMount vol "client-secret.txt" clientSecretPath c).volumeMounts.map
        mountPath).Nodup ↔ _ := nodup_map_addIfMissing_iff h
    constructor
    · intro both
      have once := List.Nodup.sublist (sublist_addIfMissing.map _) both
      refine ⟨first.mp once, ?_⟩
      have second := (nodup_map_addIfMissing_iff once).mp both
      refine second.imp (fun placed => ?_) fun unused used => unused ?_
      · refine (mem_map_addIfMissing.mp placed).resolve_right fun same => ?_
        exact clientSecretPath_ne_clientIDPath (congrArg Prod.snd same).symm
      · exact (mem_map_addIfMissing_of_ne clientSecretPath_ne_clientIDPath).mpr used
    · rintro ⟨secret, id⟩
      refine (nodup_map_addIfMissing_iff (first.mpr secret)).mpr ?_
      refine id.imp (fun placed => mem_map_addIfMissing.mpr (.inl placed)) fun unused used => ?_
      exact unused ((mem_map_addIfMissing_of_ne clientSecretPath_ne_clientIDPath).mp used)
  · have unmounted : mountCredentials vol c = c := if_neg fun has => shared (hasKey_iff.mp has)
    rw [unmounted]
    exact ⟨fun _ has => absurd has shared, fun _ => h⟩

def withCredentials (credentials : String) (c : Container) : Container :=
  if credentials = "" then c else mountCredentials credentials c

def finishContainer (credentials : String) (tlsBridge : Bool) (c : Container) : Container :=
  if tlsBridge then mountTLSBridge (withCredentials credentials c) else withCredentials credentials c

@[mk_iff]
structure MountsFit (credentials : String) (tlsBridge : Bool) (c : Container) : Prop where
  credentialFiles : credentials ≠ "" → Shares c →
    Free credentials clientSecretPath c.volumeMounts ∧ Free credentials clientIDPath c.volumeMounts
  bridgeCA : tlsBridge = true →
    tlsBridgeVolumeFor c ∈ c.volumeMounts.map VolumeMount.name ∨
      Shares c ∧ tlsBridgeVolumeFor c = credentials ∨
      tlsBridgeCAMountPath ∉ c.volumeMounts.map mountPath

instance (credentials : String) (tlsBridge : Bool) (c : Container) :
    Decidable (MountsFit credentials tlsBridge c) :=
  decidable_of_iff _ (mountsFit_iff credentials tlsBridge c).symm

section Finish

variable {vol : String} {c : Container}

@[simp] theorem name_mountCredentials : (mountCredentials vol c).name = c.name := by
  unfold mountCredentials
  split <;> rfl

@[simp] theorem name_mountTLSBridge : (mountTLSBridge c).name = c.name := by
  unfold mountTLSBridge
  split <;> rfl

theorem volumeMounts_mountTLSBridge :
    (mountTLSBridge c).volumeMounts = addIfMissing VolumeMount.name c.volumeMounts
      ⟨tlsBridgeVolumeFor c, tlsBridgeCAMountPath, "", true⟩ := by
  unfold mountTLSBridge
  split <;> rfl

variable {name : String}

theorem mem_names_mountCredentials :
    name ∈ (mountCredentials vol c).volumeMounts.map VolumeMount.name ↔
      name ∈ c.volumeMounts.map VolumeMount.name ∨ Shares c ∧ name = vol := by
  by_cases shared : Shares c
  · have mounted : mountCredentials vol c = appendSubPathMount vol "client-id.txt" clientIDPath
        (appendSubPathMount vol "client-secret.txt" clientSecretPath c) :=
      if_pos (hasKey_iff.mpr shared)
    rw [mounted]
    refine (mem_map_addIfMissing_of_key VolumeMount.place Prod.fst).trans ?_
    refine (or_congr_left (mem_map_addIfMissing_of_key VolumeMount.place Prod.fst)).trans ?_
    simp only [or_assoc, shared, true_and]
    exact or_congr_right (or_self_iff)
  · have unmounted : mountCredentials vol c = c := if_neg fun has => shared (hasKey_iff.mp has)
    simp [unmounted, shared]

theorem mem_paths_mountCredentials_of_ne {path : String} (hs : path ≠ clientSecretPath)
    (hi : path ≠ clientIDPath) :
    path ∈ (mountCredentials vol c).volumeMounts.map mountPath ↔
      path ∈ c.volumeMounts.map mountPath := by
  unfold mountCredentials
  split
  · exact (mem_map_addIfMissing_of_ne hi.symm).trans (mem_map_addIfMissing_of_ne hs.symm)
  · exact Iff.rfl

variable {credentials : String}

@[simp] theorem name_withCredentials : (withCredentials credentials c).name = c.name := by
  unfold withCredentials
  split
  · rfl
  · exact name_mountCredentials

@[simp] theorem tlsBridgeVolumeFor_withCredentials :
    tlsBridgeVolumeFor (withCredentials credentials c) = tlsBridgeVolumeFor c := by
  simp [tlsBridgeVolumeFor]

theorem mem_names_withCredentials (hname : name ≠ "") :
    name ∈ (withCredentials credentials c).volumeMounts.map VolumeMount.name ↔
      name ∈ c.volumeMounts.map VolumeMount.name ∨ Shares c ∧ name = credentials := by
  unfold withCredentials
  split
  · next none => simp [none, hname]
  · exact mem_names_mountCredentials

theorem mem_bridgePath_withCredentials :
    tlsBridgeCAMountPath ∈ (withCredentials credentials c).volumeMounts.map mountPath ↔
      tlsBridgeCAMountPath ∈ c.volumeMounts.map mountPath := by
  unfold withCredentials
  split
  · exact Iff.rfl
  · exact mem_paths_mountCredentials_of_ne (by decide) (by decide)

theorem nodup_paths_withCredentials_iff {credentials : String}
    (h : (c.volumeMounts.map mountPath).Nodup) :
    ((withCredentials credentials c).volumeMounts.map mountPath).Nodup ↔
      (credentials ≠ "" → Shares c → Free credentials clientSecretPath c.volumeMounts ∧
        Free credentials clientIDPath c.volumeMounts) := by
  unfold withCredentials
  split
  · next none => simp [none, h]
  · next some => simp [some, nodup_paths_mountCredentials_iff h]

theorem nodup_paths_mountTLSBridge_iff (h : (c.volumeMounts.map mountPath).Nodup) :
    ((mountTLSBridge c).volumeMounts.map mountPath).Nodup ↔
      tlsBridgeVolumeFor c ∈ c.volumeMounts.map VolumeMount.name ∨
        tlsBridgeCAMountPath ∉ c.volumeMounts.map mountPath := by
  rw [volumeMounts_mountTLSBridge]
  exact nodup_map_addIfMissing_iff h

theorem nodup_of_mountTLSBridge (h : ((mountTLSBridge c).volumeMounts.map mountPath).Nodup) :
    (c.volumeMounts.map mountPath).Nodup := by
  rw [volumeMounts_mountTLSBridge] at h
  exact h.sublist (sublist_addIfMissing.map _)

theorem tlsBridgeVolumeFor_ne_empty : tlsBridgeVolumeFor c ≠ "" := by
  unfold tlsBridgeVolumeFor
  split <;> decide

variable {tlsBridge : Bool}

theorem nodup_paths_finishContainer_iff (h : (c.volumeMounts.map mountPath).Nodup) :
    ((finishContainer credentials tlsBridge c).volumeMounts.map mountPath).Nodup ↔
      MountsFit credentials tlsBridge c := by
  have files := @nodup_paths_withCredentials_iff c credentials h
  have bridge (before : ((withCredentials credentials c).volumeMounts.map
      mountPath).Nodup) := nodup_paths_mountTLSBridge_iff before
  simp only [tlsBridgeVolumeFor_withCredentials, mem_bridgePath_withCredentials,
    mem_names_withCredentials tlsBridgeVolumeFor_ne_empty, or_assoc] at bridge
  cases tlsBridge with
  | false =>
    refine files.trans ⟨fun fit => ⟨fit, fun off => by cases off⟩, fun fit => ?_⟩
    exact fit.credentialFiles
  | true =>
    constructor
    · intro nodup
      have before := nodup_of_mountTLSBridge nodup
      exact ⟨files.mp before, fun _ => (bridge before).mp nodup⟩
    · intro fit
      exact (bridge (files.mpr fit.credentialFiles)).mpr (fit.bridgeCA rfl)

theorem sublist_withCredentials :
    c.volumeMounts.Sublist (withCredentials credentials c).volumeMounts := by
  unfold withCredentials mountCredentials
  split
  · exact List.Sublist.refl _
  · split
    · exact sublist_addIfMissing.trans sublist_addIfMissing
    · exact List.Sublist.refl _

theorem sublist_finishContainer :
    c.volumeMounts.Sublist (finishContainer credentials tlsBridge c).volumeMounts := by
  unfold finishContainer
  split
  · rw [volumeMounts_mountTLSBridge]
    exact sublist_withCredentials.trans sublist_addIfMissing
  · exact sublist_withCredentials

@[simp] theorem name_finishContainer : (finishContainer credentials tlsBridge c).name = c.name := by
  unfold finishContainer
  split <;> simp

variable {m : VolumeMount}

theorem mem_withCredentials (h : m ∈ (withCredentials credentials c).volumeMounts) :
    m ∈ c.volumeMounts ∨ credentials ≠ "" ∧ m.name = credentials := by
  unfold withCredentials mountCredentials at h
  split at h
  · exact .inl h
  · next some =>
    split at h
    · rcases mem_or_eq_of_mem_addIfMissing h with h | rfl
      · rcases mem_or_eq_of_mem_addIfMissing h with h | rfl
        · exact .inl h
        · exact .inr ⟨some, rfl⟩
      · exact .inr ⟨some, rfl⟩
    · exact .inl h

theorem mem_finishContainer (h : m ∈ (finishContainer credentials tlsBridge c).volumeMounts) :
    m ∈ c.volumeMounts ∨ (credentials ≠ "" ∧ m.name = credentials) ∨
      tlsBridge = true ∧ m.name = tlsBridgeVolumeFor c := by
  unfold finishContainer at h
  split at h
  · next on =>
    rw [volumeMounts_mountTLSBridge] at h
    rcases mem_or_eq_of_mem_addIfMissing h with h | rfl
    · exact (mem_withCredentials h).imp_right .inl
    · exact .inr (.inr ⟨on, tlsBridgeVolumeFor_withCredentials⟩)
  · exact (mem_withCredentials h).imp_right .inl

end Finish

/-! The last steps -/

section Steps

variable (annotations : StringMap) (spec : PodSpec)

def finishVolumes (credentials crName : String) (tlsBridge : Bool) (volumes : List Volume) :
    List Volume :=
  let volumes :=
    if credentials = "" then volumes
    else addIfMissing Volume.name volumes (credentialsVolume credentials)
  if tlsBridge then addAll Volume.name volumes (tlsBridgeVolumes crName) else volumes

theorem applyCredentials_eq : applyKeycloakClientCredentialsSecretVolumes annotations spec =
    { spec with
      containers := spec.containers.map
        (finishContainer (credentialsSecretName annotations) false)
      volumes := finishVolumes (credentialsSecretName annotations) "" false spec.volumes } := by
  unfold applyKeycloakClientCredentialsSecretVolumes finishVolumes finishContainer withCredentials
  simp only [Bool.false_eq_true, if_false]
  split
  · simp
  · simp [keycloakClientCredentialsVolumeName]

theorem finishPod_eq (p : Posture) (crName : String) (on : Bool) :
    ∃ fsGroup, finishPod p annotations (if on then applyTLSBridgeMounts crName else id) spec =
      { spec with
        containers := spec.containers.map (finishContainer (credentialsSecretName annotations) on)
        volumes := finishVolumes (credentialsSecretName annotations) crName on spec.volumes
        fsGroup := fsGroup } := by
  have bridged : (if on then applyTLSBridgeMounts crName else id)
      (applyKeycloakClientCredentialsSecretVolumes annotations spec) =
        { spec with
          containers := spec.containers.map (finishContainer (credentialsSecretName annotations) on)
          volumes := finishVolumes (credentialsSecretName annotations) crName on spec.volumes } := by
    rw [applyCredentials_eq]
    generalize credentialsSecretName annotations = credentials
    cases on with
    | false => simp only [Bool.false_eq_true, if_false, id, finishVolumes]
    | true =>
      have containers : (finishContainer credentials true : Container → Container) =
          mountTLSBridge ∘ finishContainer credentials false := rfl
      simp only [if_true, applyTLSBridgeMounts, List.map_map, finishVolumes, containers,
        Bool.false_eq_true, if_false]
  unfold finishPod
  rw [bridged]
  split
  · exact ⟨_, rfl⟩
  · exact ⟨_, rfl⟩

end Steps

end Kagenti.Operator.Webhook
