import Kagenti.Operator.BundleService.Revision
import Kagenti.Operator.BundleService.Service

/-!
The three tiers of a client's bundle: which resource gives which entry to which tier, and where the
entries end up in the archive.
-/

namespace Kagenti.Operator.BundleService

open Go
open AuthorizationPolicy (isGlobal isNamespaced)

/-! Contributions -/

/-- An entry of a resource in a tier of a client's bundle. -/
structure Contribution where
  resource : AuthorizationPolicy
  tier : Scope
  entry : PolicyEntry
  deriving DecidableEq

def tierPath : Scope → String
  | .global => "authbridge/global/"
  | .nspace => "authbridge/ns/"
  | .client => "authbridge/client/"

def Contribution.archived (c : Contribution) : PolicyEntry :=
  { c.entry with path := tierPath c.tier ++ c.entry.path }

def contribute (tier : Scope) (objs : List AuthorizationPolicy) : List Contribution :=
  objs.flatMap fun o => (o.spec.entries.getD []).map fun e => ⟨o, tier, e⟩

theorem map_archived_contribute (tier : Scope) (objs : List AuthorizationPolicy) :
    (contribute tier objs).map Contribution.archived =
      inTier (tierPath tier) (extractPolicies objs) := by
  induction objs with
  | nil => rfl
  | cons o objs ih =>
    simp only [contribute, extractPolicies, inTier, List.flatMap_cons, List.map_append,
      List.map_map] at ih ⊢
    rw [ih]
    rfl

theorem mem_contribute {tier : Scope} {objs : List AuthorizationPolicy} {c : Contribution} :
    c ∈ contribute tier objs ↔
      c.resource ∈ objs ∧ c.tier = tier ∧ c.entry ∈ c.resource.spec.entries.getD [] := by
  simp only [contribute, List.mem_flatMap, List.mem_map]
  constructor
  · rintro ⟨o, mem, e, entry, rfl⟩
    exact ⟨mem, rfl, entry⟩
  · rintro ⟨mem, rfl, entry⟩
    exact ⟨c.resource, mem, c.entry, entry, rfl⟩

theorem tierPath_append_inj {tier tier' : Scope} {path path' : String}
    (h : tierPath tier ++ path = tierPath tier' ++ path') : tier = tier' ∧ path = path' := by
  have chars := congrArg String.toList h
  rw [String.toList_append, String.toList_append] at chars
  have same : tier = tier' := by
    cases tier <;> cases tier' <;> simp [tierPath] at chars ⊢
  subst same
  exact ⟨rfl, String.toList_injective (List.append_cancel_left chars)⟩

section

variable {service : String} {store : PolicyStore} {id : ObjectKey} {o : AuthorizationPolicy}

theorem mem_objects : o ∈ PolicyStore.objects store ↔ store.lookup o.key = some o.spec := by
  rw [PolicyStore.objects, List.mem_map, ← Option.mem_def, AList.mem_lookup_iff]
  constructor
  · rintro ⟨entry, mem, rfl⟩
    exact mem
  · intro mem
    exact ⟨⟨o.key, o.spec⟩, mem, rfl⟩

/-! Scope -/

/-- The scope of the resource makes it one of the client's. -/
def IsFor (service : String) (id : ObjectKey) (o : AuthorizationPolicy) : Prop :=
  match o.spec.scope with
  | .global => o.key.nspace = service
  | .nspace => o.key.nspace = id.nspace
  | .client => o.key = id

/-- These contributions are from the client's resources, each in the tier of its own scope, and all
of them are there. -/
structure Scoped (service : String) (store : PolicyStore) (id : ObjectKey)
    (contributions : List Contribution) : Prop where
  stored : ∀ c ∈ contributions, c.resource ∈ PolicyStore.objects store ∧
    c.entry ∈ c.resource.spec.entries.getD []
  scope : ∀ c ∈ contributions, c.tier = c.resource.spec.scope
  isFor : ∀ c ∈ contributions, IsFor service id c.resource
  complete : ∀ o ∈ PolicyStore.objects store, IsFor service id o →
    ∀ e ∈ o.spec.entries.getD [], ⟨o, o.spec.scope, e⟩ ∈ contributions

/-- What `buildBundle` gathers for the client is, entry by entry, from scoped contributions. -/
def TierScoped (service : String) (store : PolicyStore) (id : ObjectKey) : Prop :=
  ∀ client ∈ clientPolicies id store, ∃ contributions,
    contributions.map Contribution.archived =
      gather (extractPolicies (globalPolicies service store))
        (extractPolicies (namespacePolicies id.nspace store)) client ∧
    Scoped service store id contributions

variable {client : List PolicyEntry}

theorem exists_own (h : clientPolicies id store = some client) :
    ∃ own, (∀ o, o ∈ own ↔ o ∈ PolicyStore.objects store ∧ o.key = id) ∧
      extractPolicies own = client := by
  unfold clientPolicies at h
  cases found : store.lookup id with
  | none =>
    rw [found] at h
    refine ⟨[], fun o => iff_of_false nofun ?_, Option.some.inj h⟩
    rintro ⟨mem, rfl⟩
    cases found.symm.trans (mem_objects.mp mem)
  | some spec =>
    rw [found] at h
    refine ⟨[⟨id, spec⟩], fun o => ?_, by simpa [extractPolicies] using congrArg (·.getD []) h⟩
    rw [List.mem_singleton, mem_objects]
    constructor
    · rintro rfl
      exact ⟨found, rfl⟩
    · rintro ⟨mem, rfl⟩
      cases found.symm.trans mem
      rfl

/-- Which tier of the client takes the entries of a resource. -/
def Placed (service : String) (id : ObjectKey) (c : Contribution) : Prop :=
  match c.tier with
  | .global => c.resource.isGlobal service = true
  | .nspace => c.resource.isNamespaced id.nspace = true
  | .client => c.resource.key = id

theorem exists_contributions (h : clientPolicies id store = some client) :
    ∃ contributions : List Contribution, contributions.map Contribution.archived =
        gather (extractPolicies (globalPolicies service store))
          (extractPolicies (namespacePolicies id.nspace store)) client ∧
      ∀ c, c ∈ contributions ↔ c.resource ∈ PolicyStore.objects store ∧
        c.entry ∈ c.resource.spec.entries.getD [] ∧ Placed service id c := by
  obtain ⟨own, mem_own, rfl⟩ := exists_own h
  refine ⟨contribute .global (globalPolicies service store) ++
    contribute .nspace (namespacePolicies id.nspace store) ++ contribute .client own, ?_, ?_⟩
  · rw [List.map_append, List.map_append, map_archived_contribute, map_archived_contribute,
      map_archived_contribute]
    rfl
  · rintro ⟨o, tier, e⟩
    simp only [List.mem_append, mem_contribute, globalPolicies, namespacePolicies, List.mem_filter,
      mem_own, Placed]
    cases tier <;> simp [and_assoc, and_comm, and_left_comm]

theorem placed_of_isFor (h : IsFor service id o) (e : PolicyEntry) :
    Placed service id ⟨o, o.spec.scope, e⟩ := by
  unfold IsFor at h
  cases scope : o.spec.scope with
  | global => simp_all [Placed, isGlobal]
  | nspace => simp_all [Placed, isNamespaced]
  | client => simpa [Placed, scope] using h

theorem TierScoped.scope_eq (h : TierScoped service store id) {spec : PolicySpec}
    (found : store.lookup id = some spec) (entries : spec.entries.getD [] ≠ []) :
    spec.scope = .client := by
  obtain ⟨e, mem⟩ := List.exists_mem_of_ne_nil _ entries
  cases given : spec.entries with
  | none => simp [given] at mem
  | some client =>
    rw [given, Option.getD_some] at mem
    have read : clientPolicies id store = some client := by
      rw [clientPolicies, found]
      exact given
    obtain ⟨contributions, gathered, sound⟩ := h client read
    have placed : (⟨tierPath .client ++ e.path, e.content⟩ : PolicyEntry) ∈
        contributions.map Contribution.archived := by
      rw [gathered]
      exact List.mem_append_right _ (List.mem_map_of_mem mem)
    -- the entry in the client tier is from a resource with the client's scope and name
    obtain ⟨c, own, archived⟩ := List.mem_map.mp placed
    have inTier := (tierPath_append_inj (congrArg PolicyEntry.path archived)).1
    have scope : c.resource.spec.scope = .client := (sound.scope c own).symm.trans inTier
    have isFor := sound.isFor c own
    rw [IsFor, scope] at isFor
    have stored := mem_objects.mp (sound.stored c own).1
    rw [isFor, found] at stored
    rw [Option.some.inj stored, scope]

/-- The tiers are scoped exactly when the resource with the client's name, if it has entries,
has the client's scope: the lookup by name does not read the scope. -/
theorem tierScoped_iff :
    TierScoped service store id ↔
      ∀ spec ∈ store.lookup id, spec.entries.getD [] ≠ [] → spec.scope = .client := by
  refine ⟨fun h spec found entries => h.scope_eq found entries, fun h client read => ?_⟩
  obtain ⟨contributions, gathered, mem⟩ := exists_contributions read
  have scope {c : Contribution} (hc : c ∈ contributions) : c.tier = c.resource.spec.scope := by
    obtain ⟨stored, entry, placed⟩ := (mem c).mp hc
    unfold Placed at placed
    split at placed
    next tier => simp_all [isGlobal]
    next tier => simp_all [isNamespaced]
    next tier =>
      rw [mem_objects, placed] at stored
      rw [tier, h _ stored (List.ne_nil_of_mem entry)]
  refine ⟨contributions, gathered, fun c hc => ?_, fun c hc => scope hc, fun c hc => ?_, ?_⟩
  · exact ⟨((mem c).mp hc).1, ((mem c).mp hc).2.1⟩
  · have placed := ((mem c).mp hc).2.2
    rw [Placed, scope hc] at placed
    unfold IsFor
    split <;> simp_all [isGlobal, isNamespaced]
  · exact fun o stored isFor e entry => (mem _).mpr ⟨stored, entry, placed_of_isFor isFor e⟩

/-- A namespace-scope resource with the name of a client is in two tiers of the client. -/
theorem namespace_resource_in_client_tier :
    let agent : ObjectKey := ⟨"team", "agent"⟩
    let deny : PolicyEntry := ⟨"deny.rego", "deny"⟩
    let store : PolicyStore := AList.insert agent ⟨.nspace, some [deny]⟩ (∅ : PolicyStore)
    gather (extractPolicies (globalPolicies "kagenti-system" store))
        (extractPolicies (namespacePolicies agent.nspace store)) [deny] =
      [⟨"authbridge/ns/deny.rego", "deny"⟩, ⟨"authbridge/client/deny.rego", "deny"⟩] ∧
    clientPolicies agent store = some [deny] ∧ ¬TierScoped "kagenti-system" store agent := by
  refine ⟨by decide, by decide, fun h => ?_⟩
  exact absurd (h.scope_eq rfl (by decide)) (by decide)

/-! Paths -/

theorem bytes_injective : Function.Injective bytes := fun _ _ => bytes_inj

theorem tierPath_append_ne_manifest (tier : Scope) (path : String) :
    tierPath tier ++ path ≠ ".manifest" := by
  intro h
  have chars := congrArg String.toList h
  cases tier <;> simp [tierPath] at chars

/-- Every entry of every resource of the client is in the archive with its own content, and no two
entries of the archive share a path. -/
structure NothingShadowed (service : String) (store : PolicyStore) (id : ObjectKey)
    (archive : List Policy) : Prop where
  present : ∀ o ∈ PolicyStore.objects store, IsFor service id o →
    ∀ e ∈ o.spec.entries.getD [],
      (Contribution.archived ⟨o, o.spec.scope, e⟩).policy ∈ archive
  distinct : (archive.map (·.path)).Nodup

/-- The paths of the entries that a tier of the client's bundle is made of. -/
def tierPaths (service : String) (store : PolicyStore) (id : ObjectKey) : Scope → List String
  | .global => (extractPolicies (globalPolicies service store)).map (·.path)
  | .nspace => (extractPolicies (namespacePolicies id.nspace store)).map (·.path)
  | .client => ((clientPolicies id store).getD []).map (·.path)

theorem nodup_gather_iff (read : clientPolicies id store = some client) :
    ((gather (extractPolicies (globalPolicies service store))
      (extractPolicies (namespacePolicies id.nspace store)) client).map (·.path)).Nodup ↔
      ∀ tier, (tierPaths service store id tier).Nodup := by
  have paths (tier : Scope) (entries : List PolicyEntry) :
      (inTier (tierPath tier) entries).map (·.path) =
        (entries.map (·.path)).map (tierPath tier ++ ·) := by
    simp [inTier, Function.comp_def]
  have injective (tier : Scope) : Function.Injective (tierPath tier ++ ·) := fun _ _ same =>
    (tierPath_append_inj same).2
  have apart {tier tier' : Scope} (other : tier ≠ tier') (l l' : List String) :
      ∀ a ∈ l.map (tierPath tier ++ ·), ∀ b ∈ l'.map (tierPath tier' ++ ·), a ≠ b := by
    simp only [List.forall_mem_map]
    exact fun _ _ _ _ same => other (tierPath_append_inj same).1
  have tiers : gather (extractPolicies (globalPolicies service store))
      (extractPolicies (namespacePolicies id.nspace store)) client =
        inTier (tierPath .global) (extractPolicies (globalPolicies service store)) ++
          (inTier (tierPath .nspace) (extractPolicies (namespacePolicies id.nspace store)) ++
            inTier (tierPath .client) client) := List.append_assoc _ _ _
  rw [tiers, List.map_append, List.map_append, paths, paths, paths, List.nodup_append,
    List.nodup_append, List.nodup_map_iff (injective _), List.nodup_map_iff (injective _),
    List.nodup_map_iff (injective _)]
  constructor
  · rintro ⟨global, ⟨nspace, own, -⟩, -⟩ tier
    cases tier with
    | global => exact global
    | nspace => exact nspace
    | client => simpa [tierPaths, read] using own
  · intro nodup
    refine ⟨nodup .global, ⟨nodup .nspace, ?_, apart (by decide) _ _⟩, ?_⟩
    · simpa [tierPaths, read] using nodup .client
    · grind

variable {policies : List PolicyEntry} (applies : AppliesTo service store id policies)

include applies

theorem mem_policies_of_isFor (stored : o ∈ PolicyStore.objects store) (isFor : IsFor service id o)
    {e : PolicyEntry} (entry : e ∈ o.spec.entries.getD []) :
    Contribution.archived ⟨o, o.spec.scope, e⟩ ∈ policies := by
  obtain ⟨client, read, perm⟩ := applies
  obtain ⟨contributions, gathered, mem⟩ := @exists_contributions service store id client read
  rw [perm.mem_iff, ← gathered]
  exact List.mem_map_of_mem ((mem _).mpr ⟨stored, entry, placed_of_isFor isFor e⟩)

theorem nodup_archive_iff (b : Builder) (tw : TarWriter) :
    ((b.archive (policies.map PolicyEntry.policy) tw).map (·.path)).Nodup ↔
      ∀ tier, (tierPaths service store id tier).Nodup := by
  obtain ⟨client, read, perm⟩ := applies
  have sorted := (b.sort.sort_perm (policies.map PolicyEntry.policy)).map (·.path)
  have paths : ((b.archive (policies.map PolicyEntry.policy) tw).map (·.path)).Perm
      ((policies.map (·.path) ++ [".manifest"]).map bytes) := by
    rw [Builder.archive, List.map_append, List.map_append]
    refine List.Perm.append ?_ (.refl _)
    rw [List.map_map] at sorted ⊢
    exact sorted
  rw [paths.nodup_iff, List.nodup_map_iff bytes_injective, List.nodup_append,
    (perm.map (·.path)).nodup_iff, nodup_gather_iff read]
  refine ⟨And.left, fun h => ⟨h, List.nodup_singleton _, fun path mem path' mem' => ?_⟩⟩
  rw [List.mem_singleton.mp mem']
  have archived : ∃ tier path', path = tierPath tier ++ path' := by
    rw [(perm.map (·.path)).mem_iff] at mem
    simp only [gather, inTier, List.map_append, List.map_map, List.mem_append, List.mem_map] at mem
    rcases mem with (⟨e, -, rfl⟩ | ⟨e, -, rfl⟩) | ⟨e, -, rfl⟩
    · exact ⟨.global, e.path, rfl⟩
    · exact ⟨.nspace, e.path, rfl⟩
    · exact ⟨.client, e.path, rfl⟩
  obtain ⟨tier, path, rfl⟩ := archived
  exact tierPath_append_ne_manifest _ _

omit applies

/-- `buildBundle` builds a bundle from the policies, which is not too large. -/
def Deliverable (b : Builder) (policies : List PolicyEntry) : Prop :=
  ∃ data hash, b.build (policies.map PolicyEntry.policy) = .ok (data, hash) ∧
    data.length ≤ maxBundleSize

/-- The client gets a bundle, which is an archive in which nothing is shadowed. -/
def ServedWhole (b : Builder) (service : String) (store : PolicyStore) (id : ObjectKey)
    (policies : List PolicyEntry) : Prop :=
  ∃ data hash, b.build (policies.map PolicyEntry.policy) = .ok (data, hash) ∧
    data.length ≤ maxBundleSize ∧
    ∃ tw tw' : TarWriter, b.writePolicies (policies.map PolicyEntry.policy) = .ok tw ∧
      tw'.Holds b.tar (b.archive (policies.map PolicyEntry.policy) tw) ∧
      data = b.gzip.close tw'.close ∧
      NothingShadowed service store id (b.archive (policies.map PolicyEntry.policy) tw)

/-- A client gets all of its entries, none shadowed, exactly when a bundle can be delivered at all
and no two entries of one tier have the same path. -/
theorem servedWhole_iff (b : Builder) {policies : List PolicyEntry}
    (applies : AppliesTo service store id policies) :
    ServedWhole b service store id policies ↔
      Deliverable b policies ∧ ∀ tier, (tierPaths service store id tier).Nodup := by
  constructor
  · rintro ⟨data, hash, built, small, tw, -, -, -, -, nothing⟩
    exact ⟨⟨data, hash, built, small⟩, (nodup_archive_iff applies b tw).mp nothing.distinct⟩
  · rintro ⟨⟨data, hash, built, small⟩, nodup⟩
    obtain ⟨tw, tw', ok, holds, closed⟩ := b.build_archive built
    refine ⟨data, hash, built, small, tw, tw', ok, holds, closed, fun o stored isFor e entry => ?_,
      (nodup_archive_iff applies b tw).mpr nodup⟩
    have mem := mem_policies_of_isFor applies stored isFor entry
    exact List.mem_append_left _
      ((b.sort.sort_perm _).mem_iff.mpr (List.mem_map_of_mem mem))

end

def agent : ObjectKey := ⟨"team", "agent"⟩

def storeOf (resources : List (String × Scope × PolicyEntry)) : PolicyStore :=
  resources.foldr (fun r store => store.insert ⟨"team", r.1⟩ ⟨r.2.1, some [r.2.2]⟩) ∅

/-- A namespace's resource and the client's resource can use one path. -/
theorem served_whole_across_tiers :
    let store := storeOf [("base", .nspace, ⟨"main.rego", "deny"⟩),
      ("agent", .client, ⟨"main.rego", "allow"⟩)]
    let policies := gather [] [⟨"main.rego", "deny"⟩] [⟨"main.rego", "allow"⟩]
    AppliesTo "kagenti-system" store agent policies ∧
      ServedWhole (Builder.uncompressed (·.take 4)) "kagenti-system" store agent policies := by
  intro store policies
  have applies : AppliesTo "kagenti-system" store agent policies :=
    ⟨[⟨"main.rego", "allow"⟩], by decide, by decide⟩
  obtain ⟨bundle, built, small⟩ : ∃ bundle,
      (Builder.uncompressed (·.take 4)).build (policies.map PolicyEntry.policy) = .ok bundle ∧
        bundle.1.length ≤ maxBundleSize := by
    decide +kernel
  refine ⟨applies, (servedWhole_iff _ applies).mpr ⟨⟨_, _, built, small⟩, fun tier => ?_⟩⟩
  cases tier <;> decide

/-- Two resources of one namespace that use one path: a bundle is delivered that has an entry that
allows and an entry that denies under it. -/
theorem namespace_resources_shadow :
    let store := storeOf [("base", .nspace, ⟨"main.rego", "deny"⟩),
      ("extra", .nspace, ⟨"main.rego", "allow"⟩)]
    let policies := gather [] [⟨"main.rego", "deny"⟩, ⟨"main.rego", "allow"⟩] []
    let b := Builder.uncompressed (·.take 4)
    Deliverable b policies ∧ AppliesTo "kagenti-system" store agent policies ∧
      ¬ServedWhole b "kagenti-system" store agent policies := by
  intro store policies b
  have applies : AppliesTo "kagenti-system" store agent policies := ⟨[], by decide, by decide⟩
  obtain ⟨bundle, built, small⟩ : ∃ bundle, b.build (policies.map PolicyEntry.policy) = .ok bundle ∧
      bundle.1.length ≤ maxBundleSize := by
    decide +kernel
  refine ⟨⟨_, _, built, small⟩, applies, ?_⟩
  rintro ⟨-, -, -, -, tw, -, -, -, -, nothing⟩
  exact absurd ((nodup_archive_iff applies b tw).mp nothing.distinct .nspace) (by decide)

end Kagenti.Operator.BundleService
