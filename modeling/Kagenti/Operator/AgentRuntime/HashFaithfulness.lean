import Kagenti.Operator.AgentRuntime.Config

/-!
The hash of `ComputeConfigHash` against the state of the cluster: a reader that fails at some of its
reads is compared with one that reads the same cluster without a failure.
-/

namespace Kagenti.Operator.AgentRuntime

open Go

/-! The text of a resolved configuration determines it -/

structure ResolvedConfig.Agrees (resolved resolved' : ResolvedConfig) : Prop where
  featureGates : resolved.featureGates.Agrees resolved'.featureGates
  defaults : resolved.defaults.Agrees resolved'.defaults
  authBridgeRuntime : resolved.authBridgeRuntime = resolved'.authBridgeRuntime
  spiffeHelperConfig : resolved.spiffeHelperConfig = resolved'.spiffeHelperConfig

theorem FieldValue.text_readsBack (v : FieldValue) : ReadsBack FieldValue.text Set.univ v := by
  intro v' _ r r' _ _ h
  cases v with
  | strings entries =>
    cases v' with
    | strings entries' =>
      obtain ⟨rfl, hrest⟩ :=
        objectText_append_inj (fun m _ => quoteText_readsBack m.2) (fun _ _ => trivial)
          (fun _ _ => trivial) h
      exact ⟨rfl, hrest⟩
    | string s => cases h
  | string s =>
    cases v' with
    | strings entries' => cases h
    | string s' =>
      obtain ⟨rfl, hrest⟩ := quoteText_append_inj h
      exact ⟨rfl, hrest⟩

namespace ResolvedConfig

variable {name : String} {m m' : StringMap}

theorem mapField_inj (h : mapField name m = mapField name m') : m.Agrees m' := by
  unfold mapField at h
  split at h
  next hempty =>
    split at h
    next hempty' =>
      intro key
      rw [StringMap.isEmpty_iff.mp hempty key, StringMap.isEmpty_iff.mp hempty' key]
    · cases h
  · split at h
    · cases h
    · simp only [List.cons.injEq, Prod.mk.injEq, FieldValue.strings.injEq, and_true, true_and] at h
      exact StringMap.sorted_eq_iff.mp h

theorem mapField_congr (name : String) (h : m.Agrees m') : mapField name m = mapField name m' := by
  rw [mapField, mapField, h.isEmpty_eq, StringMap.sorted_eq_iff.mpr h]

theorem stringField_inj {s s' : String} (h : stringField name s = stringField name s') :
    s = s' := by
  unfold stringField at h
  split at h <;> split at h <;> simp_all

theorem filter_mapField (name name' : String) (m : StringMap) :
    (mapField name m).filter (fun f => f.1 = name') =
      if name = name' then mapField name m else [] := by
  unfold mapField
  by_cases hname : name = name' <;> split <;> simp [hname]

theorem filter_stringField (name name' s : String) :
    (stringField name s).filter (fun f => f.1 = name') =
      if name = name' then stringField name s else [] := by
  unfold stringField
  by_cases hname : name = name' <;> split <;> simp [hname]

variable {resolved resolved' : ResolvedConfig}

theorem fields_inj (h : resolved.fields = resolved'.fields) : resolved.Agrees resolved' := by
  have hfield : ∀ name, resolved.fields.filter (fun f => f.1 = name) =
      resolved'.fields.filter fun f => f.1 = name := fun name => by rw [h]
  simp only [fields, List.filter_append, filter_mapField, filter_stringField] at hfield
  exact ⟨mapField_inj (by simpa using hfield "featureGates"),
    mapField_inj (by simpa using hfield "defaults"),
    stringField_inj (by simpa using hfield "authBridgeRuntime"),
    stringField_inj (by simpa using hfield "spiffeHelperConfig")⟩

theorem marshal_eq_iff : resolved.marshal = resolved'.marshal ↔ resolved.Agrees resolved' := by
  constructor
  · intro h
    have htext : objectText FieldValue.text resolved.fields ++ [] =
        objectText FieldValue.text resolved'.fields ++ [] := by
      rw [List.append_nil, List.append_nil]
      exact h
    exact fields_inj (objectText_append_inj (S := Set.univ) (fun m _ => m.2.text_readsBack)
      (fun _ _ => trivial) (fun _ _ => trivial) htext).1
  · intro h
    rw [marshal, marshal, fields, fields, mapField_congr _ h.featureGates,
      mapField_congr _ h.defaults, h.authBridgeRuntime, h.spiffeHelperConfig]

end ResolvedConfig

theorem hexEncode_injective {b b' : Bytes} (h : hexEncode b = hexEncode b') : b = b' := by
  have hchars := String.ofList_injective h
  have hdigit : ∀ n < 16, ∀ k < 16, hexChar n = hexChar k → n = k := by decide
  clear h
  induction b generalizing b' with
  | nil =>
    cases b' with
    | nil => rfl
    | cons => cases hchars
  | cons x b ih =>
    cases b' with
    | nil => cases hchars
    | cons y b' =>
      simp only [List.flatMap_cons, List.cons_append, List.nil_append, List.cons.injEq]
        at hchars
      obtain ⟨hhigh, hlow, htail⟩ := hchars
      have hx := x.toNat_lt
      have hy := y.toNat_lt
      have hhigh := hdigit _ (by omega) _ (by omega) hhigh
      have hlow := hdigit _ (by omega) _ (by omega) hlow
      have hxy : x = y := UInt8.toNat_inj.mp (by omega)
      rw [hxy, ih htail]

/-! Readers of one cluster -/

def labelled (cms : ConfigMaps) (ns label value : String) : List (String × ConfigMap) :=
  (cms.entries.filter fun e => e.1.1 = ns ∧ e.2.labels.lookup label = some value).map
    fun e => (e.1.2, e.2)

structure Reader.Reads (c : Reader) (cms : ConfigMaps) : Prop where
  get_ok : ∀ ns name cm, c.get ns name = .ok cm → cms.lookup (ns, name) = some cm
  get_notFound : ∀ ns name, c.get ns name = .error .notFound → cms.lookup (ns, name) = none
  list_ok : ∀ ns label value items, c.list ns label value = .ok items →
    items.Perm (labelled cms ns label value)

structure Reader.Healthy (c : Reader) : Prop where
  get : ∀ ns name, c.get ns name ≠ .error .transient
  list : ∀ ns label value, ∃ items, c.list ns label value = .ok items

/-- The data of a ConfigMap, empty if there is no such ConfigMap. -/
def storedData (cms : ConfigMaps) (ns name : String) : StringMap :=
  ((cms.lookup (ns, name)).bind ConfigMap.data).getD ∅

def Reader.failsAt (c : Reader) (ns name : String) : Bool :=
  match c.get ns name with
  | .error _ => true
  | .ok _ => false

variable {c : Reader} {cms : ConfigMaps}

theorem readConfigMapData_eq (h : c.Reads cms) (ns name : String) :
    readConfigMapData c ns name = if c.failsAt ns name then ∅ else storedData cms ns name := by
  unfold readConfigMapData Reader.failsAt
  cases hget : c.get ns name with
  | error e => rfl
  | ok cm =>
    rw [storedData, h.get_ok ns name cm hget]
    rfl

theorem readConfigMapData_healthy (h : c.Reads cms) (hc : c.Healthy) (ns name : String) :
    readConfigMapData c ns name = storedData cms ns name := by
  rw [readConfigMapData_eq h]
  split
  next hfails =>
    have hnone : cms.lookup (ns, name) = none := by
      unfold Reader.failsAt at hfails
      split at hfails
      next e hget =>
        cases e with
        | notFound => exact h.get_notFound ns name hget
        | transient => exact absurd hget (hc.get ns name)
      · cases hfails
    rw [storedData, hnone]
    rfl
  · rfl

def Reader.listedDefaults (c : Reader) (ns : String) : StringMap :=
  match c.list ns labelNamespaceDefaults "true" with
  | .ok (first :: _) => first.2.data.getD ∅
  | _ => ∅

theorem readNamespaceDefaults_fst (ns : String) :
    (readNamespaceDefaults c ns).1 = c.listedDefaults ns := by
  unfold readNamespaceDefaults Reader.listedDefaults
  split <;> simp_all

structure NothingLost (clusterDefaultsNamespace : String) (cms : ConfigMaps) (c healthy : Reader)
    (ns : String) : Prop where
  featureGates : c.failsAt clusterDefaultsNamespace clusterFeatureGatesConfigMapName →
    (storedData cms clusterDefaultsNamespace clusterFeatureGatesConfigMapName).isEmpty
  authBridgeRuntime : c.failsAt ns authBridgeRuntimeConfigMapName →
    (storedData cms ns authBridgeRuntimeConfigMapName).value "config.yaml" = ""
  spiffeHelperConfig : c.failsAt ns spiffeHelperConfigMapName →
    (storedData cms ns spiffeHelperConfigMapName).value "helper.conf" = ""
  defaults : ∀ key,
    ((c.listedDefaults ns).lookup key).or
        (if c.failsAt clusterDefaultsNamespace clusterDefaultsConfigMapName then none
          else (storedData cms clusterDefaultsNamespace clusterDefaultsConfigMapName).lookup key) =
      ((healthy.listedDefaults ns).lookup key).or
        ((storedData cms clusterDefaultsNamespace clusterDefaultsConfigMapName).lookup key)

theorem resolveConfig_agrees_iff {healthy : Reader} (clusterDefaultsNamespace : String)
    (hc : c.Reads cms) (hreads : healthy.Reads cms) (hhealthy : healthy.Healthy) (ns : String) :
    (resolveConfig clusterDefaultsNamespace c ns).1.Agrees
        (resolveConfig clusterDefaultsNamespace healthy ns).1 ↔
      NothingLost clusterDefaultsNamespace cms c healthy ns := by
  have hempty : ∀ m : StringMap, (∅ : StringMap).Agrees m ↔ m.isEmpty = true := by
    intro m
    rw [StringMap.isEmpty_iff]
    exact forall_congr' fun key => by rw [AList.lookup_empty, eq_comm]
  -- a ConfigMap of which one value is used
  have hvalue : ∀ name key, (readConfigMapData c ns name).value key =
      (readConfigMapData healthy ns name).value key ↔
        (c.failsAt ns name → (storedData cms ns name).value key = "") := by
    intro name key
    rw [readConfigMapData_eq hc, readConfigMapData_healthy hreads hhealthy]
    cases c.failsAt ns name with
    | true => exact ⟨fun h _ => h.symm, fun h => (h rfl).symm⟩
    | false => simp
  have hgates : (readConfigMapData c clusterDefaultsNamespace
      clusterFeatureGatesConfigMapName).Agrees
        (readConfigMapData healthy clusterDefaultsNamespace clusterFeatureGatesConfigMapName) ↔
      (c.failsAt clusterDefaultsNamespace clusterFeatureGatesConfigMapName →
        (storedData cms clusterDefaultsNamespace clusterFeatureGatesConfigMapName).isEmpty) := by
    rw [readConfigMapData_eq hc, readConfigMapData_healthy hreads hhealthy]
    cases c.failsAt clusterDefaultsNamespace clusterFeatureGatesConfigMapName with
    | true => simpa using hempty _
    | false => simpa using StringMap.Agrees.refl _
  have hdefaults : ∀ key, (resolveConfig clusterDefaultsNamespace c ns).1.defaults.lookup key =
      ((c.listedDefaults ns).lookup key).or
        (if c.failsAt clusterDefaultsNamespace clusterDefaultsConfigMapName then none
          else (storedData cms clusterDefaultsNamespace clusterDefaultsConfigMapName).lookup key) := by
    intro key
    simp only [resolveConfig, lookup_mergeMaps, readNamespaceDefaults_fst, readConfigMapData_eq hc]
    split
    · rw [AList.lookup_empty]
    · rfl
  have hdefaults' : ∀ key,
      (resolveConfig clusterDefaultsNamespace healthy ns).1.defaults.lookup key =
      ((healthy.listedDefaults ns).lookup key).or
        ((storedData cms clusterDefaultsNamespace clusterDefaultsConfigMapName).lookup key) := by
    intro key
    simp only [resolveConfig, lookup_mergeMaps, readNamespaceDefaults_fst,
      readConfigMapData_healthy hreads hhealthy]
  constructor
  · intro h
    refine ⟨hgates.mp h.featureGates, (hvalue _ _).mp h.authBridgeRuntime,
      (hvalue _ _).mp h.spiffeHelperConfig, fun key => ?_⟩
    rw [← hdefaults, ← hdefaults']
    exact h.defaults key
  · intro h
    refine ⟨hgates.mpr h.featureGates, fun key => ?_, (hvalue _ _).mpr h.authBridgeRuntime,
      (hvalue _ _).mpr h.spiffeHelperConfig⟩
    rw [hdefaults, hdefaults']
    exact h.defaults key

def exactReader (cms : ConfigMaps) : Reader where
  get ns name :=
    match cms.lookup (ns, name) with
    | some cm => .ok cm
    | none => .error .notFound
  list ns label value := .ok (labelled cms ns label value)

theorem exactReader_reads (cms : ConfigMaps) : (exactReader cms).Reads cms where
  get_ok ns name cm h := by
    simp only [exactReader] at h
    split at h
    next cm' hlookup =>
      cases h
      exact hlookup
    · cases h
  get_notFound ns name h := by
    simp only [exactReader] at h
    split at h
    · cases h
    next hlookup => exact hlookup
  list_ok ns label value items h := by
    cases h
    exact List.Perm.refl _

theorem exactReader_healthy (cms : ConfigMaps) : (exactReader cms).Healthy where
  get ns name h := by
    simp only [exactReader] at h
    split at h <;> cases h
  list ns label value := ⟨_, rfl⟩

def failingReader (cms : ConfigMaps) (ns name : String) : Reader where
  get ns' name' :=
    if ns' = ns ∧ name' = name then .error .transient else (exactReader cms).get ns' name'
  list := (exactReader cms).list

theorem failingReader_reads (cms : ConfigMaps) (ns name : String) :
    (failingReader cms ns name).Reads cms where
  get_ok ns' name' cm h := by
    simp only [failingReader] at h
    split at h
    · cases h
    · exact (exactReader_reads cms).get_ok ns' name' cm h
  get_notFound ns' name' h := by
    simp only [failingReader] at h
    split at h
    · cases h
    · exact (exactReader_reads cms).get_notFound ns' name' h
  list_ok := (exactReader_reads cms).list_ok

/-! Restarts -/

structure PodTemplate.Agrees (t t' : PodTemplate) : Prop where
  labels : t.labels.Agrees t'.labels
  annotations : t.annotations.Agrees t'.annotations

def Restarts (spec : RuntimeSpec) (configHash : String) (w : Workload) : Prop :=
  ¬ (applyWorkloadConfig spec configHash w).1.template.Agrees w.template ∨
    (applyWorkloadConfig spec configHash w).2 = true

theorem restarts_iff {spec : RuntimeSpec} {configHash : String} {w : Workload}
    (h : alreadyConfigured spec configHash w = true) (configHash' : String) :
    Restarts spec configHash' w ↔ configHash' ≠ configHash := by
  constructor
  · rintro hrestarts rfl
    rw [Restarts, applyWorkloadConfig, if_pos h] at hrestarts
    rcases hrestarts with htemplate | hsandbox
    · exact htemplate ⟨.refl _, .refl _⟩
    · cases hsandbox
  · intro hne
    left
    intro hsame
    simp only [alreadyConfigured, Bool.and_eq_true, decide_eq_true_eq] at h
    obtain ⟨⟨-, hhash⟩, -⟩ := h
    have hnot : ¬ alreadyConfigured spec configHash' w = true := by
      simp only [alreadyConfigured, Bool.and_eq_true, decide_eq_true_eq]
      rintro ⟨⟨-, hhash'⟩, -⟩
      exact hne (hhash'.symm.trans hhash)
    have hannotation := hsame.annotations annotationConfigHash
    rw [applyWorkloadConfig, if_neg hnot] at hannotation
    rw [StringMap.value, ← hannotation] at hhash
    exact hne hhash

section Hash

variable (sha256 : Bytes → Bytes) (clusterDefaultsNamespace : String)

def hashedBytes (c : Reader) (ns : String) : Bytes :=
  (resolveConfig clusterDefaultsNamespace c ns).1.marshal.flatMap String.utf8EncodeChar

theorem computeConfigHash_eq_iff {c' : Reader} {ns : String}
    (hcollision : sha256 (hashedBytes clusterDefaultsNamespace c ns) =
        sha256 (hashedBytes clusterDefaultsNamespace c' ns) →
      hashedBytes clusterDefaultsNamespace c ns = hashedBytes clusterDefaultsNamespace c' ns) :
    (computeConfigHash sha256 clusterDefaultsNamespace c ns).hash =
        (computeConfigHash sha256 clusterDefaultsNamespace c' ns).hash ↔
      (resolveConfig clusterDefaultsNamespace c ns).1.Agrees
        (resolveConfig clusterDefaultsNamespace c' ns).1 := by
  rw [← ResolvedConfig.marshal_eq_iff]
  constructor
  · intro h
    exact utf8_injective (hcollision (hexEncode_injective h))
  · intro h
    simp only [computeConfigHash, hashResolvedConfig, h]

/-- Whatever the outcomes of the reads, and whatever the order of the listed ConfigMaps, the
hash is that of the actual state and no configured workload is restarted exactly when nothing
is lost in the reads, as long as SHA-256 does not collide on the two configurations. -/
theorem config_hash_faithful_iff {c healthy : Reader} {cms : ConfigMaps} (hc : c.Reads cms)
    (hreads : healthy.Reads cms) (hhealthy : healthy.Healthy) (ns : String)
    (hcollision : sha256 (hashedBytes clusterDefaultsNamespace c ns) =
        sha256 (hashedBytes clusterDefaultsNamespace healthy ns) →
      hashedBytes clusterDefaultsNamespace c ns = hashedBytes clusterDefaultsNamespace healthy ns) :
    ((computeConfigHash sha256 clusterDefaultsNamespace c ns).hash =
        (computeConfigHash sha256 clusterDefaultsNamespace healthy ns).hash ∧
      ∀ spec w, alreadyConfigured spec
          (computeConfigHash sha256 clusterDefaultsNamespace healthy ns).hash w = true →
        ¬ Restarts spec (computeConfigHash sha256 clusterDefaultsNamespace c ns).hash w) ↔
      NothingLost clusterDefaultsNamespace cms c healthy ns := by
  rw [← resolveConfig_agrees_iff clusterDefaultsNamespace hc hreads hhealthy ns,
    ← computeConfigHash_eq_iff sha256 clusterDefaultsNamespace hcollision]
  constructor
  · exact fun h => h.1
  · intro h
    refine ⟨h, fun spec w hw hrestarts => ?_⟩
    exact (restarts_iff hw _).mp hrestarts h

end Hash

def oneGate : ConfigMaps :=
  (∅ : ConfigMaps).insert ("kagenti-system", "kagenti-feature-gates")
    ⟨∅, some ((∅ : StringMap).insert "skillDiscovery" "true")⟩

/-- A read that fails for a ConfigMap that is absent anyway. -/
theorem config_hash_faithful_absent :
    (computeConfigHash id "kagenti-system"
        (failingReader oneGate "team1" "authbridge-runtime-config") "team1").hash =
      (computeConfigHash id "kagenti-system" (exactReader oneGate) "team1").hash := by
  refine ((config_hash_faithful_iff id "kagenti-system" (failingReader_reads _ _ _)
    (exactReader_reads oneGate) (exactReader_healthy _) "team1" id).mpr ?_).1
  exact ⟨by decide +kernel, by decide +kernel, by decide +kernel, fun key => rfl⟩

/-- The read of the feature gates fails: the hash is another one, and every workload with the
hash of the actual state is restarted. -/
theorem failed_read_changes_hash :
    ∃ (cms : ConfigMaps) (c : Reader), c.Reads cms ∧ ∀ sha256 : Bytes → Bytes,
      (sha256 (hashedBytes "kagenti-system" c "team1") =
          sha256 (hashedBytes "kagenti-system" (exactReader cms) "team1") →
        hashedBytes "kagenti-system" c "team1" =
          hashedBytes "kagenti-system" (exactReader cms) "team1") →
      (computeConfigHash sha256 "kagenti-system" c "team1").hash ≠
          (computeConfigHash sha256 "kagenti-system" (exactReader cms) "team1").hash ∧
        ∀ spec w, alreadyConfigured spec
            (computeConfigHash sha256 "kagenti-system" (exactReader cms) "team1").hash w = true →
          Restarts spec (computeConfigHash sha256 "kagenti-system" c "team1").hash w := by
  refine ⟨oneGate, failingReader oneGate "kagenti-system" "kagenti-feature-gates",
    failingReader_reads _ _ _, fun sha256 hcollision => ?_⟩
  have hne : (computeConfigHash sha256 "kagenti-system"
      (failingReader oneGate "kagenti-system" "kagenti-feature-gates") "team1").hash ≠
        (computeConfigHash sha256 "kagenti-system" (exactReader oneGate) "team1").hash := by
    rw [Ne, computeConfigHash_eq_iff sha256 "kagenti-system" hcollision,
      resolveConfig_agrees_iff "kagenti-system" (failingReader_reads _ _ _)
        (exactReader_reads oneGate) (exactReader_healthy _) "team1"]
    intro hlost
    exact absurd (hlost.featureGates (by decide +kernel)) (by decide +kernel)
  exact ⟨hne, fun spec w hw => (restarts_iff hw _).mpr hne⟩

end Kagenti.Operator.AgentRuntime
