import Kagenti.Lib.Entries
import Kagenti.Operator.BundleService.Service

/-!
The invariant behind the coherence of the bundle service's caches: every cached or gathered value
agrees with the store, or an invalidation is due that removes it.
-/

namespace Kagenti.Operator.BundleService

open Lib.Entries Lib.Transition
open AuthorizationPolicy (isGlobal isNamespaced)

/-! What there is to go by: the store, and the cache operations that are due -/

structure Known where
  store : PolicyStore
  due : List CacheOp

def Service.due (config : ServiceConfig) (s : Service) : List CacheOp :=
  s.handling ++ s.pending.flatMap (invalidate config.service)

def Service.known (config : ServiceConfig) (s : Service) : Known := ⟨s.store, s.due config⟩

def ClearsETag (ops : List CacheOp) (id : ObjectKey) : Prop :=
  .invalidateAllETags ∈ ops ∨ .invalidateETag id ∈ ops

def ClearsBundle (ops : List CacheOp) (id : ObjectKey) : Prop :=
  .invalidateAllBundles ∈ ops ∨ .invalidateBundle id ∈ ops

/-- Bundle and ETag of a client are both to be removed. -/
def Stale (ops : List CacheOp) (id : ObjectKey) : Prop := ClearsETag ops id ∧ ClearsBundle ops id

section

variable {ops ops' : List CacheOp} {id : ObjectKey}

theorem ClearsETag.mono (h : ClearsETag ops id) (sub : ops ⊆ ops') : ClearsETag ops' id :=
  h.imp (@sub _) (@sub _)

theorem ClearsBundle.mono (h : ClearsBundle ops id) (sub : ops ⊆ ops') : ClearsBundle ops' id :=
  h.imp (@sub _) (@sub _)

theorem Stale.mono (h : Stale ops id) (sub : ops ⊆ ops') : Stale ops' id :=
  ⟨h.1.mono sub, h.2.mono sub⟩

end

structure Complete (ops : List CacheOp) : Prop where
  etag : ∀ id, ClearsETag ops id → Stale ops id
  bundle : ∀ id, ClearsBundle ops id → Stale ops id
  global : .invalidateGlobal ∈ ops → ∀ id, Stale ops id
  nspace : ∀ nspace, .invalidateNamespace nspace ∈ ops → ∀ id, Stale ops id

theorem Complete.invalidate (service : String) (o : AuthorizationPolicy) :
    Complete (invalidate service o) := by
  have all (op : CacheOp) : Complete [op, .invalidateAllETags, .invalidateAllBundles] := by
    have stale (id : ObjectKey) :
        Stale [op, .invalidateAllETags, .invalidateAllBundles] id := by
      simp [Stale, ClearsETag, ClearsBundle]
    exact ⟨fun id _ => stale id, fun id _ => stale id, fun _ => stale, fun _ _ => stale⟩
  unfold BundleService.invalidate
  split
  · split
    · constructor <;> simp [ClearsETag, ClearsBundle]
    · exact all _
  · exact all _
  · constructor <;> simp [Stale, ClearsETag, ClearsBundle]

theorem Complete.flatMap (service : String) (pending : List AuthorizationPolicy) :
    Complete (pending.flatMap (BundleService.invalidate service)) := by
  have ofMember {op : CacheOp} {id : ObjectKey}
      (mem : op ∈ pending.flatMap (BundleService.invalidate service))
      (stale : ∀ o, op ∈ BundleService.invalidate service o →
        Stale (BundleService.invalidate service o) id) :
      Stale (pending.flatMap (BundleService.invalidate service)) id := by
    obtain ⟨o, queued, found⟩ := List.mem_flatMap.mp mem
    exact (stale o found).mono fun _ h => List.mem_flatMap.mpr ⟨o, queued, h⟩
  refine ⟨fun id clears => ?_, fun id clears => ?_, fun mem id => ?_, fun n mem id => ?_⟩
  · rcases clears with all | one
    · exact ofMember all fun o h => (Complete.invalidate service o).etag id (.inl h)
    · exact ofMember one fun o h => (Complete.invalidate service o).etag id (.inr h)
  · rcases clears with all | one
    · exact ofMember all fun o h => (Complete.invalidate service o).bundle id (.inl h)
    · exact ofMember one fun o h => (Complete.invalidate service o).bundle id (.inr h)
  · exact ofMember mem fun o h => (Complete.invalidate service o).global h id
  · exact ofMember mem fun o h => (Complete.invalidate service o).nspace n h id

/-! Values that agree with the store, or are to be removed -/

section

variable (config : ServiceConfig) (k : Known)

def GlobalOk (policies : List PolicyEntry) : Prop :=
  policies.Perm (extractPolicies (globalPolicies config.service k.store)) ∨
    .invalidateGlobal ∈ k.due

def NamespaceOk (nspace : String) (policies : List PolicyEntry) : Prop :=
  policies.Perm (extractPolicies (namespacePolicies nspace k.store)) ∨
    .invalidateNamespace nspace ∈ k.due

def PoliciesOk (id : ObjectKey) (policies : List PolicyEntry) : Prop :=
  AppliesTo config.service k.store id policies ∨ Stale k.due id

def CurrentETag (store : PolicyStore) (id : ObjectKey) (etag : String) : Prop :=
  ∃ policies, AppliesTo config.service store id policies ∧ etag = config.contentHash policies

def CurrentBundle (store : PolicyStore) (id : ObjectKey) (data : Data) (etag : String) : Prop :=
  ∃ policies, AppliesTo config.service store id policies ∧ config.build policies = some data ∧
    data.length ≤ maxBundleSize ∧ etag = config.contentHash policies

def Fresh (store : PolicyStore) (c : Call) : Answer → Prop
  | .notModified etag => etag = c.ifNoneMatch ∧ CurrentETag config store c.id etag
  | .bundle data etag => CurrentBundle config store c.id data etag
  | .failed =>
    clientPolicies c.id store = none ∨
      ∃ policies, AppliesTo config.service store c.id policies ∧
        ∀ data, config.build policies = some data → maxBundleSize < data.length
  | .cancelled => True

def BuildOk (id : ObjectKey) : BuildState → Prop
  | .acquire | .global | .readGlobal => True
  | .storeGlobal g | .nspace g | .readNamespace g => GlobalOk config k g
  | .storeNamespace g n | .client g n => GlobalOk config k g ∧ NamespaceOk k id.nspace n
  | .etag policies | .bundle policies => PoliciesOk config k id policies

def CallOk (c : Call) : Prop :=
  match c.state with
  | .hit data etag => CurrentBundle config k.store c.id data etag ∨ Stale k.due c.id
  | .returned answer => c.settled = true → Fresh config k.store c answer
  | _ => True

end

def Service.idle (s : Service) : Prop := (∀ c ∈ s.calls, c.inProgress = false) ∧ s.builds.entries = []

structure Inv (config : ServiceConfig) (s : Service) : Prop where
  global : ∀ policies ∈ s.global, GlobalOk config (s.known config) policies
  nspaces : Forall (NamespaceOk (s.known config)) s.nspaces
  etags : Forall (fun id etag => CurrentETag config s.store id etag ∨
    ClearsETag (s.due config) id) s.etags
  bundles : Forall (fun id b => CurrentBundle config s.store id b.1 b.2 ∨
    ClearsBundle (s.due config) id) s.bundles
  builds : Forall (BuildOk config (s.known config)) s.builds
  calls : ∀ c ∈ s.calls, CallOk config (s.known config) c
  handling : s.handling ≠ [] → s.idle
  settled : ∀ c ∈ s.calls, c.settled = true → s.pending = [] ∧ s.handling = []

theorem Inv.init (config : ServiceConfig) : Inv config .init where
  global := nofun
  nspaces := .empty
  etags := .empty
  bundles := .empty
  builds := .empty
  calls := nofun
  handling h := absurd rfl h
  settled := nofun

/-! Events -/

structure Announces (service : String) (store store' : PolicyStore) (o : AuthorizationPolicy) :
    Prop where
  global : (globalPolicies service store').Perm (globalPolicies service store) ∨
    .invalidateGlobal ∈ invalidate service o
  nspace : ∀ nspace, (namespacePolicies nspace store').Perm (namespacePolicies nspace store) ∨
    .invalidateNamespace nspace ∈ invalidate service o
  client : ∀ id, clientPolicies id store' = clientPolicies id store ∨
    Stale (invalidate service o) id

structure Covers (service : String) (store : PolicyStore) (o : AuthorizationPolicy) : Prop where
  noted : invalidate service o ≠ []
  global : ∀ old ∈ store.lookup o.key,
    isGlobal service ⟨o.key, old⟩ = true → o.spec.scope = .global
  nspace : ∀ old ∈ store.lookup o.key, old.scope = .nspace → o.spec.scope = .nspace

section

variable {service : String} {store : PolicyStore} {o : AuthorizationPolicy}

theorem announcesClient (noted : invalidate service o ≠ []) :
    Stale (invalidate service o) o.key := by
  unfold invalidate at noted ⊢
  split
  next scope =>
    rw [scope] at noted
    dsimp only at noted
    split at noted
    · contradiction
    next inService =>
      rw [if_neg inService]
      simp [Stale, ClearsETag, ClearsBundle]
  · simp [Stale, ClearsETag, ClearsBundle]
  · simp [Stale, ClearsETag, ClearsBundle]

theorem announcesGlobal (noted : invalidate service o ≠ []) (scope : o.spec.scope = .global) :
    .invalidateGlobal ∈ invalidate service o := by
  unfold invalidate at noted ⊢
  rw [scope] at noted ⊢
  dsimp only at noted ⊢
  split at noted
  · contradiction
  next inService =>
    rw [if_neg inService]
    simp

theorem announcesNamespace {nspace : String} (h : o.isNamespaced nspace = true) :
    .invalidateNamespace nspace ∈ invalidate service o := by
  have ⟨scope, inNamespace⟩ : o.spec.scope = .nspace ∧ o.key.nspace = nspace := by
    simpa [isNamespaced] using h
  simp [invalidate, scope, inNamespace]

theorem clientPolicies_of_lookup {id : ObjectKey} {store' : PolicyStore}
    (h : store'.lookup id = store.lookup id) :
    clientPolicies id store' = clientPolicies id store := by
  rw [clientPolicies, clientPolicies, h]

theorem Announces.apply (h : Covers service store o) :
    Announces service store (store.insert o.key o.spec) o where
  global := by
    rcases Bool.eq_false_or_eq_true (o.isGlobal service) with now | notNow
    · have ⟨scope, _⟩ : o.spec.scope = .global ∧ o.key.nspace = service := by
        simpa [isGlobal] using now
      exact .inr (announcesGlobal h.noted scope)
    · rcases Bool.eq_false_or_eq_true
        ((store.lookup o.key).any fun old => isGlobal service ⟨o.key, old⟩)
        with before | notBefore
      · obtain ⟨old, found, was⟩ := (Option.any_eq_true _ _).mp before
        exact .inr (announcesGlobal h.noted (h.global old found was))
      · left
        refine PolicyStore.filter_insert_perm store _ (fun old found => ?_) notNow
        simpa [Option.mem_def.mp found] using notBefore
  nspace nspace := by
    rcases Bool.eq_false_or_eq_true (o.isNamespaced nspace) with now | notNow
    · exact .inr (announcesNamespace now)
    · left
      refine PolicyStore.filter_insert_perm store _ (fun old found => ?_) notNow
      -- a resource of this tier that left it would have changed its scope
      refine Bool.eq_false_iff.mpr fun was => ?_
      have ⟨scope, inNamespace⟩ : old.scope = .nspace ∧ o.key.nspace = nspace := by
        simpa [isNamespaced] using was
      have now : o.isNamespaced nspace = true := by
        simp [isNamespaced, h.nspace old found scope, inNamespace]
      exact Bool.noConfusion (notNow.symm.trans now)
  client id := by
    rcases eq_or_ne id o.key with rfl | other
    · exact .inr (announcesClient h.noted)
    · exact .inl (clientPolicies_of_lookup (AList.lookup_insert_ne other))

theorem Announces.delete {key : ObjectKey} {spec : PolicySpec}
    (found : store.lookup key = some spec) (noted : invalidate service ⟨key, spec⟩ ≠ []) :
    Announces service store (store.erase key) ⟨key, spec⟩ where
  global := by
    rcases Bool.eq_false_or_eq_true
      (isGlobal service ⟨key, spec⟩) with was | wasNot
    · have ⟨scope, _⟩ : spec.scope = .global ∧ key.nspace = service := by
        simpa [isGlobal] using was
      exact .inr (announcesGlobal noted scope)
    · exact .inl (PolicyStore.filter_erase_perm store _ found wasNot)
  nspace nspace := by
    rcases Bool.eq_false_or_eq_true
      (isNamespaced nspace ⟨key, spec⟩) with was | wasNot
    · exact .inr (announcesNamespace was)
    · exact .inl (PolicyStore.filter_erase_perm store _ found wasNot)
  client id := by
    rcases eq_or_ne id key with rfl | other
    · exact .inr (announcesClient noted)
    · exact .inl (clientPolicies_of_lookup (AList.lookup_erase_ne other))

theorem Announces.refl : Announces service store store o :=
  ⟨.inl (.refl _), fun _ => .inl (.refl _), fun _ => .inl rfl⟩

end

structure Extends (config : ServiceConfig) (k k' : Known) : Prop where
  due : k.due ⊆ k'.due
  global : ∀ policies, GlobalOk config k policies → GlobalOk config k' policies
  nspace : ∀ nspace policies, NamespaceOk k nspace policies → NamespaceOk k' nspace policies
  policies : ∀ id policies, AppliesTo config.service k.store id policies →
    PoliciesOk config k' id policies

variable {o : AuthorizationPolicy}

section

variable {config : ServiceConfig} {k k' : Known}

theorem Announces.extends {store store' : PolicyStore} {due due' : List CacheOp}
    (h : Announces config.service store store' o) (sub : due ⊆ due')
    (new : invalidate config.service o ⊆ due') : Extends config ⟨store, due⟩ ⟨store', due'⟩ where
  due := sub
  global policies ok := by
    rcases ok with current | removed
    · refine h.global.imp (fun same => ?_) (@new _)
      exact current.trans (extractPolicies_perm same.symm)
    · exact .inr (sub removed)
  nspace nspace policies ok := by
    rcases ok with current | removed
    · refine (h.nspace nspace).imp (fun same => ?_) (@new _)
      exact current.trans (extractPolicies_perm same.symm)
    · exact .inr (sub removed)
  policies id policies ok := by
    have complete := Complete.invalidate config.service o
    obtain ⟨client, found, perm⟩ := ok
    rcases h.client id with sameClient | removed
    · rcases h.global with sameGlobal | removed
      · rcases h.nspace id.nspace with sameNamespace | removed
        · refine .inl ⟨client, sameClient.trans found, perm.trans ?_⟩
          exact gather_perm client (extractPolicies_perm sameGlobal.symm)
            (extractPolicies_perm sameNamespace.symm)
        · exact .inr ((complete.nspace _ removed id).mono new)
      · exact .inr ((complete.global removed id).mono new)
    · exact .inr (removed.mono new)

variable {id : ObjectKey} (h : Extends config k k')

include h

theorem Extends.policiesOk {policies : List PolicyEntry} (ok : PoliciesOk config k id policies) :
    PoliciesOk config k' id policies :=
  ok.elim (h.policies id policies) fun stale => .inr (stale.mono h.due)

variable {etag : String}

theorem Extends.currentETag (current : CurrentETag config k.store id etag) :
    CurrentETag config k'.store id etag ∨ Stale k'.due id := by
  obtain ⟨policies, applies, rfl⟩ := current
  exact (h.policies id policies applies).imp_left fun now => ⟨policies, now, rfl⟩

theorem Extends.currentBundle {data : Data} (current : CurrentBundle config k.store id data etag) :
    CurrentBundle config k'.store id data etag ∨ Stale k'.due id := by
  obtain ⟨policies, applies, built, small, rfl⟩ := current
  exact (h.policies id policies applies).imp_left fun now => ⟨policies, now, built, small, rfl⟩

theorem Extends.buildOk {b : BuildState} (ok : BuildOk config k id b) : BuildOk config k' id b := by
  cases b with
  | acquire | global | readGlobal => trivial
  | storeGlobal g | nspace g | readNamespace g => exact h.global g ok
  | storeNamespace g n | client g n => exact ⟨h.global g ok.1, h.nspace _ n ok.2⟩
  | etag policies | bundle policies => exact h.policiesOk ok

theorem Extends.callOk {c : Call} (ok : CallOk config k c) :
    CallOk config k' { c with settled := false } := by
  obtain ⟨id, ifNoneMatch, state, settled⟩ := c
  cases state with
  | hit data etag =>
    rcases ok with current | stale
    · exact h.currentBundle current
    · exact .inr (stale.mono h.due)
  | returned answer => exact nofun
  | begun | bundleCache | enter | waiting => trivial

end

theorem Inv.event {config : ServiceConfig} {s : Service} (inv : Inv config s) {store : PolicyStore}
    (announced : Announces config.service s.store store o) : Inv config (s.event store o) := by
  have due : (s.event store o).due config = s.due config ++ invalidate config.service o := by
    simp [Service.due, Service.event]
  have ext : Extends config (s.known config) ((s.event store o).known config) := by
    refine announced.extends ?_ ?_
    · rw [due]
      exact List.subset_append_left _ _
    · rw [due]
      exact List.subset_append_right _ _
  exact {
    global := fun policies found => ext.global policies (inv.global policies found)
    nspaces := fun nspace policies found =>
      ext.nspace nspace policies (inv.nspaces nspace policies found)
    etags := fun id etag found => by
      rcases inv.etags id etag found with current | clears
      · exact (ext.currentETag current).imp_right And.left
      · exact .inr (clears.mono ext.due)
    bundles := fun id b found => by
      rcases inv.bundles id b found with current | clears
      · exact (ext.currentBundle current).imp_right And.right
      · exact .inr (clears.mono ext.due)
    builds := fun id b found => ext.buildOk (inv.builds id b found)
    calls := fun c mem => by
      obtain ⟨before, was, rfl⟩ := List.mem_map.mp mem
      exact ext.callOk (inv.calls before was)
    handling := fun busy => by
      obtain ⟨calls, builds⟩ := inv.handling busy
      refine ⟨fun c mem => ?_, builds⟩
      obtain ⟨before, was, rfl⟩ := List.mem_map.mp mem
      exact calls before was
    settled := fun c mem settled => by
      obtain ⟨before, -, rfl⟩ := List.mem_map.mp mem
      contradiction }

/-! The handler -/

section

variable {config : ServiceConfig} {s : Service}

theorem Inv.notify (inv : Inv config s) {rest : List AuthorizationPolicy} (free : s.handling = [])
    (queued : s.pending = o :: rest) (idle : s.idle) :
    Inv config { s with handling := invalidate config.service o, pending := rest } := by
  have due : Service.due config
      { s with handling := invalidate config.service o, pending := rest } = s.due config := by
    simp [Service.due, free, queued]
  have known : Service.known config
      { s with handling := invalidate config.service o, pending := rest } = s.known config := by
    rw [Service.known, Service.known, due]
  constructor
  · exact known ▸ inv.global
  · exact known ▸ inv.nspaces
  · exact due ▸ inv.etags
  · exact due ▸ inv.bundles
  · exact known ▸ inv.builds
  · exact known ▸ inv.calls
  · exact fun _ => idle
  · intro c mem settled
    have empty := (inv.settled c mem settled).1
    rw [queued] at empty
    contradiction

variable {op : CacheOp} {policies : List PolicyEntry}

theorem global_of_handleOp (h : policies ∈ (s.handleOp op).global) :
    policies ∈ s.global ∧ .invalidateGlobal ≠ op := by
  cases op with
  | invalidateGlobal => contradiction
  | _ => exact ⟨h, nofun⟩

theorem nspaces_of_handleOp {nspace : String}
    (h : (s.handleOp op).nspaces.lookup nspace = some policies) :
    s.nspaces.lookup nspace = some policies ∧ .invalidateNamespace nspace ≠ op := by
  cases op with
  | invalidateNamespace removed =>
    obtain ⟨other, kept⟩ := lookup_erase_eq_some.mp h
    exact ⟨kept, by simpa using other⟩
  | _ => exact ⟨h, nofun⟩

variable {id : ObjectKey}

theorem etags_of_handleOp {etag : String} (h : (s.handleOp op).etags.lookup id = some etag) :
    s.etags.lookup id = some etag ∧ .invalidateAllETags ≠ op ∧ .invalidateETag id ≠ op := by
  cases op with
  | invalidateAllETags => simp [Service.handleOp] at h
  | invalidateETag removed =>
    obtain ⟨other, kept⟩ := lookup_erase_eq_some.mp h
    exact ⟨kept, nofun, by simpa using other⟩
  | _ => exact ⟨h, nofun, nofun⟩

theorem bundles_of_handleOp {bundle : Data × String}
    (h : (s.handleOp op).bundles.lookup id = some bundle) :
    s.bundles.lookup id = some bundle ∧ .invalidateAllBundles ≠ op ∧ .invalidateBundle id ≠ op := by
  cases op with
  | invalidateAllBundles => simp [Service.handleOp] at h
  | invalidateBundle removed =>
    obtain ⟨other, kept⟩ := lookup_erase_eq_some.mp h
    exact ⟨kept, nofun, by simpa using other⟩
  | _ => exact ⟨h, nofun, nofun⟩

@[simp] theorem handleOp_store (op : CacheOp) : (s.handleOp op).store = s.store := by
  cases op <;> rfl

@[simp] theorem handleOp_pending (op : CacheOp) : (s.handleOp op).pending = s.pending := by
  cases op <;> rfl

@[simp] theorem handleOp_builds (op : CacheOp) : (s.handleOp op).builds = s.builds := by
  cases op <;> rfl

@[simp] theorem handleOp_calls (op : CacheOp) : (s.handleOp op).calls = s.calls := by
  cases op <;> rfl

theorem Inv.handle (inv : Inv config s) {rest : List CacheOp} (handling : s.handling = op :: rest) :
    Inv config { s.handleOp op with handling := rest } := by
  obtain ⟨returned, noBuild⟩ : s.idle := inv.handling (by simp [handling])
  have unsettled (c : Call) (mem : c ∈ s.calls) : c.settled = false := by
    refine Bool.eq_false_iff.mpr fun settled => ?_
    have empty := (inv.settled c mem settled).2
    rw [handling] at empty
    contradiction
  -- what is due and is not the operation itself stays due
  have due {x : CacheOp} (other : x ≠ op) (h : x ∈ s.due config) :
      x ∈ Service.due config { s.handleOp op with handling := rest } := by
    rw [Service.due, handling, List.cons_append] at h
    simpa [Service.due] using (List.mem_cons.mp h).resolve_left other
  constructor
  · intro policies found
    obtain ⟨was, other⟩ := global_of_handleOp found
    simpa [GlobalOk, Service.known] using (inv.global policies was).imp_right (due other)
  · intro nspace policies found
    obtain ⟨was, other⟩ := nspaces_of_handleOp found
    simpa [NamespaceOk, Service.known] using
      (inv.nspaces nspace policies was).imp_right (due other)
  · intro id etag found
    obtain ⟨was, notAll, notOne⟩ := etags_of_handleOp found
    simpa [ClearsETag] using (inv.etags id etag was).imp_right (Or.imp (due notAll) (due notOne))
  · intro id b found
    obtain ⟨was, notAll, notOne⟩ := bundles_of_handleOp found
    simpa [ClearsBundle] using
      (inv.bundles id b was).imp_right (Or.imp (due notAll) (due notOne))
  · intro id b found
    have empty : s.builds = ∅ := AList.ext noBuild
    simp [empty] at found
  · intro c mem
    rw [handleOp_calls] at mem
    have settled := unsettled c mem
    have ended := returned c mem
    unfold Call.inProgress at ended
    unfold CallOk
    split at ended
    next state =>
      rw [state, settled]
      exact nofun
    · contradiction
  · exact fun _ => ⟨by simpa using returned, by simpa using noBuild⟩
  · intro c mem settled
    rw [handleOp_calls] at mem
    rw [unsettled c mem] at settled
    contradiction

end

end Kagenti.Operator.BundleService
