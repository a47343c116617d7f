import Mathlib.Data.List.AList

/-!
AuthorizationPolicy resources as the watcher's informer stores them
(`bundleservice/watcher`), and the policies that a bundle gathers for a client from its
three tiers (`bundleservice/provider`).
-/

namespace Kagenti.Operator.BundleService

structure ObjectKey where
  nspace : String
  name : String
  deriving DecidableEq

/-- `spec.scope`, which is `client` when it is empty. -/
inductive Scope where
  | global
  | nspace
  | client
  deriving DecidableEq

structure PolicyEntry where
  path : String
  content : String
  deriving DecidableEq

structure PolicySpec where
  scope : Scope
  entries : Option (List PolicyEntry)
  deriving DecidableEq

structure AuthorizationPolicy where
  key : ObjectKey
  spec : PolicySpec
  deriving DecidableEq

abbrev PolicyStore := AList fun _ : ObjectKey => PolicySpec

namespace PolicyStore

def objects (store : PolicyStore) : List AuthorizationPolicy :=
  store.entries.map fun entry => ⟨entry.1, entry.2⟩

end PolicyStore

namespace AuthorizationPolicy

/-- Global resources count in the service namespace only. -/
def isGlobal (service : String) (o : AuthorizationPolicy) : Bool :=
  decide (o.spec.scope = .global) && decide (o.key.nspace = service)

def isNamespaced (nspace : String) (o : AuthorizationPolicy) : Bool :=
  decide (o.spec.scope = .nspace) && decide (o.key.nspace = nspace)

end AuthorizationPolicy

/-- `extractPolicies`: resources that cannot be converted are skipped. -/
def extractPolicies (objs : List AuthorizationPolicy) : List PolicyEntry :=
  objs.flatMap fun o => o.spec.entries.getD []

/-- The entries of `GetGlobalPolicies`, in some order of the index. -/
def globalPolicies (service : String) (store : PolicyStore) : List AuthorizationPolicy :=
  (PolicyStore.objects store).filter (·.isGlobal service)

def namespacePolicies (nspace : String) (store : PolicyStore) : List AuthorizationPolicy :=
  (PolicyStore.objects store).filter (·.isNamespaced nspace)

/-- `getClientPolicies`: the resource with the client's name, whatever its scope. No value
stands for the error of a failed conversion. -/
def clientPolicies (id : ObjectKey) (store : PolicyStore) : Option (List PolicyEntry) :=
  match store.lookup id with
  | none => some []
  | some spec => spec.entries

def inTier (tier : String) (entries : List PolicyEntry) : List PolicyEntry :=
  entries.map fun e => { e with path := tier ++ e.path }

def gather (global nspace client : List PolicyEntry) : List PolicyEntry :=
  inTier "authbridge/global/" global ++ inTier "authbridge/ns/" nspace ++
    inTier "authbridge/client/" client

def AppliesTo (service : String) (store : PolicyStore) (id : ObjectKey)
    (policies : List PolicyEntry) : Prop :=
  ∃ client, clientPolicies id store = some client ∧
    policies.Perm (gather (extractPolicies (globalPolicies service store))
      (extractPolicies (namespacePolicies id.nspace store)) client)

theorem extractPolicies_perm {objs objs' : List AuthorizationPolicy} (h : objs.Perm objs') :
    (extractPolicies objs).Perm (extractPolicies objs') :=
  h.flatMap_right _

theorem gather_perm {g g' n n' : List PolicyEntry} (c : List PolicyEntry) (hg : g.Perm g')
    (hn : n.Perm n') : (gather g n c).Perm (gather g' n' c) :=
  ((hg.map _).append (hn.map _)).append_right _

/-! Changes of the store -/

namespace PolicyStore

variable (store : PolicyStore)

theorem objects_insert (o : AuthorizationPolicy) :
    objects (store.insert o.key o.spec) = o :: objects (store.erase o.key) := rfl

variable {key : ObjectKey} {spec : PolicySpec}

theorem objects_of_lookup (h : store.lookup key = some spec) :
    (objects store).Perm (⟨key, spec⟩ :: objects (store.erase key)) := by
  have mem : Sigma.mk key spec ∈ store.entries := AList.mem_lookup_iff.mp h
  obtain ⟨found, front, back, -, split, erased⟩ :=
    List.exists_of_kerase (List.mem_keys_of_mem mem)
  have same : found = spec := by
    refine store.nodupKeys.eq_of_mk_mem ?_ mem
    rw [split]
    simp
  subst same
  have rest : (store.erase key).entries = front ++ back := erased
  rw [objects, objects, split, rest]
  simp

theorem erase_of_lookup_none (h : store.lookup key = none) : store.erase key = store := by
  have absent : key ∉ store := AList.lookup_eq_none.mp h
  exact AList.ext (List.kerase_of_notMem_keys absent)

theorem filter_insert_perm (tier : AuthorizationPolicy → Bool) {o : AuthorizationPolicy}
    (before : ∀ spec ∈ store.lookup o.key, tier ⟨o.key, spec⟩ = false) (after : tier o = false) :
    ((objects (store.insert o.key o.spec)).filter tier).Perm ((objects store).filter tier) := by
  rw [objects_insert, List.filter_cons_of_neg (by simp [after])]
  cases found : store.lookup o.key with
  | none => rw [store.erase_of_lookup_none found]
  | some spec =>
    have old := (store.objects_of_lookup found).filter tier
    rw [List.filter_cons_of_neg (by simp [before spec found])] at old
    exact old.symm

theorem filter_erase_perm (tier : AuthorizationPolicy → Bool) (found : store.lookup key = some spec)
    (before : tier ⟨key, spec⟩ = false) :
    ((objects (store.erase key)).filter tier).Perm ((objects store).filter tier) := by
  have old := (store.objects_of_lookup found).filter tier
  rw [List.filter_cons_of_neg (by simp [before])] at old
  exact old.symm

end PolicyStore

end Kagenti.Operator.BundleService
