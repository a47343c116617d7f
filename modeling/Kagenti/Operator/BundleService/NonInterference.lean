import Kagenti.Lib.Unwinding
import Kagenti.Operator.BundleService.Coherence
import Kagenti.Operator.BundleService.Identity
import Kagenti.Operator.BundleService.Tiers

/-!
What one client of the bundle service can observe of the others. The client's own view is a machine
without caches, which answers each of its calls when it begins; runs that meet the conditions below
follow it.
-/

namespace Kagenti.Operator.BundleService

open Go Lib.Entries Lib.Transition

/-- The service with the builder's `ContentHash` and `Build`. -/
def Builder.serviceConfig (b : Builder) (service : String) : ServiceConfig where
  service := service
  contentHash policies := b.contentHash (policies.map PolicyEntry.policy)
  build policies := (b.build (policies.map PolicyEntry.policy)).toOption.map Prod.fst

/-- Resources in the client's namespace or in the service's. -/
def Concerns (service : String) (id key : ObjectKey) : Prop :=
  key.nspace = id.nspace ∨ key.nspace = service

instance (service : String) (id key : ObjectKey) : Decidable (Concerns service id key) :=
  inferInstanceAs (Decidable (_ ∨ _))

/-! Histories -/

/-- What happens to the service: requests, and everything else. -/
inductive Input where
  | request (spiffe ifNoneMatch : String)
  | service (action : ServiceAction)

/-- A request whose client cannot be read does not come to `GetBundle`. -/
def Input.action (quote : String → String) : Input → Option ServiceAction
  | .request spiffe ifNoneMatch =>
    (fromRequest quote spiffe).toOption.map fun id => .getBundle id ifNoneMatch
  | .service action => some action

/-- What a client sees: the changes of its resources and its own calls. -/
inductive TenantItem where
  | apply (o : AuthorizationPolicy)
  | delete (key : ObjectKey)
  | getBundle (ifNoneMatch : String)
  deriving DecidableEq

def view (service : String) (id : ObjectKey) : ServiceAction → Option TenantItem
  | .apply o => if Concerns service id o.key then some (.apply o) else none
  | .delete key => if Concerns service id key then some (.delete key) else none
  | .getBundle caller ifNoneMatch => if caller = id then some (.getBundle ifNoneMatch) else none
  | .redeliver _ | .notify | .handle | .expire _ | .call _ | .build _ _ | .cancel _ => none

/-- A request is one of the client's if it has the client's key. -/
def viewInput (quote : String → String) (service : String) (id : ObjectKey) :
    Input → Option TenantItem
  | .request spiffe ifNoneMatch =>
    match fromRequest quote spiffe with
    | .ok caller => if cacheKey caller = cacheKey id then some (.getBundle ifNoneMatch) else none
    | .error _ => none
  | .service action => view service id action

theorem viewInput_eq {quote : String → String} {service spiffe : String} {id : ObjectKey}
    (named : fromRequest quote spiffe = .ok id) (input : Input) :
    viewInput quote service id input = (input.action quote).bind (view service id) := by
  cases input with
  | service action => rfl
  | request raw ifNoneMatch =>
    simp only [viewInput, Input.action]
    cases read : fromRequest quote raw with
    | error e => rfl
    | ok caller =>
      simp only [cacheKey_inj read named]
      rfl

/-! The client's own machine -/

/-- The policies of a client, in the order of the store, unless its own resource is unreadable. -/
def gathered (service : String) (store : PolicyStore) (id : ObjectKey) : Option (List PolicyEntry) :=
  (clientPolicies id store).map
    (gather (extractPolicies (globalPolicies service store))
      (extractPolicies (namespacePolicies id.nspace store)))

section

variable (config : ServiceConfig) (store : PolicyStore) (id : ObjectKey) (ifNoneMatch : String)

def bundleAnswer (policies : List PolicyEntry) : Answer :=
  match config.build policies with
  | none => .failed
  | some data =>
    if maxBundleSize < data.length then .failed else .bundle data (config.contentHash policies)

/-- The call has the ETag of the bundle that it would get. -/
def SendsCurrent : Prop :=
  ∃ policies ∈ gathered config.service store id, ifNoneMatch = config.contentHash policies

instance : Decidable (SendsCurrent config store id ifNoneMatch) :=
  inferInstanceAs (Decidable (∃ _ ∈ _, _))

def answer : Answer :=
  match gathered config.service store id with
  | none => .failed
  | some policies =>
    if ifNoneMatch = config.contentHash policies then .notModified ifNoneMatch
    else bundleAnswer config policies

end

structure Tenant where
  store : PolicyStore
  answers : List Answer

def Tenant.observe (config : ServiceConfig) (id : ObjectKey) (t : Tenant) : TenantItem → Tenant
  | .apply o => { t with store := t.store.insert o.key o.spec }
  | .delete key => { t with store := t.store.erase key }
  | .getBundle ifNoneMatch =>
    { t with answers := t.answers ++ [answer config t.store id ifNoneMatch] }

/-! Conditions -/

instance (l : List Policy) : Decidable (TieFree l) :=
  inferInstanceAs (Decidable (∀ p ∈ l, ∀ q ∈ l, p.path = q.path → p.content = q.content))

/-- No two policies of the client have one path and different contents. -/
def Untied (service : String) (store : PolicyStore) (id : ObjectKey) : Prop :=
  TieFree (((gathered service store id).getD []).map PolicyEntry.policy)

instance (service : String) (store : PolicyStore) (id : ObjectKey) :
    Decidable (Untied service store id) :=
  inferInstanceAs (Decidable (TieFree _))

def Service.ownIdle (s : Service) (id : ObjectKey) : Prop :=
  ∀ c ∈ s.calls, c.id = id → c.inProgress = false

instance (s : Service) (id : ObjectKey) : Decidable (s.ownIdle id) :=
  inferInstanceAs (Decidable (∀ c ∈ s.calls, c.id = id → c.inProgress = false))

/-- Events come while no call of the client is under way. The client calls once every invalidation
has run and each call from before has returned, with its policies untied, and does not give up; if
it sends the current ETag, the service still has an ETag of it. -/
def Apart (config : ServiceConfig) (id : ObjectKey) (s : Service) : ServiceAction → Prop
  | .apply _ | .delete _ | .redeliver _ => s.ownIdle id
  | .getBundle caller ifNoneMatch =>
    caller = id → s.quiet = true ∧ Untied config.service s.store id ∧
      (SendsCurrent config s.store id ifNoneMatch → (s.etags.lookup id).isSome = true)
  | .cancel caller => caller ≠ id
  | .notify | .handle | .expire _ | .call _ | .build _ _ => True

/-- Every event invalidates what it changes and no call or build is under way meanwhile, and
the client's calls are apart from all events. -/
def Isolated (config : ServiceConfig) (id : ObjectKey) (s : Service) (a : ServiceAction) : Prop :=
  Undisturbed config s a ∧ Apart config id s a

instance (config : ServiceConfig) (id : ObjectKey) (s : Service) : DecidablePred (Apart config id s)
  | .apply _ | .delete _ | .redeliver _ => inferInstanceAs (Decidable (s.ownIdle id))
  | .getBundle _ _ => inferInstanceAs (Decidable (_ → _ ∧ _ ∧ (_ → _)))
  | .cancel _ => inferInstanceAs (Decidable (_ ≠ _))
  | .notify | .handle | .expire _ | .call _ | .build _ _ => isTrue trivial

instance (config : ServiceConfig) (id : ObjectKey) (s : Service) :
    DecidablePred (Isolated config id s) :=
  fun _ => inferInstanceAs (Decidable (_ ∧ _))

/-! Stores that agree on the client's resources -/

def Agree (service : String) (id : ObjectKey) (store store' : PolicyStore) : Prop :=
  ∀ key, Concerns service id key → store.lookup key = store'.lookup key

section

variable {service : String} {id : ObjectKey} {store store' : PolicyStore}

theorem nodup_objects (store : PolicyStore) : (PolicyStore.objects store).Nodup := by
  have keys : (store.entries.map Sigma.fst).Nodup := store.nodupKeys
  refine List.Nodup.of_map (·.key) ?_
  rw [PolicyStore.objects, List.map_map]
  exact keys

section

variable (h : Agree service id store store')

include h

theorem Agree.filter_perm (tier : AuthorizationPolicy → Bool)
    (concerns : ∀ o, tier o = true → Concerns service id o.key) :
    ((PolicyStore.objects store).filter tier).Perm ((PolicyStore.objects store').filter tier) := by
  rw [List.perm_ext_iff_of_nodup ((nodup_objects store).filter _) ((nodup_objects store').filter _)]
  intro o
  simp only [List.mem_filter, mem_objects]
  refine and_congr_left fun inTier => ?_
  rw [h o.key (concerns o inTier)]

theorem Agree.global : (globalPolicies service store).Perm (globalPolicies service store') := by
  refine h.filter_perm _ fun o inTier => .inr ?_
  simp only [AuthorizationPolicy.isGlobal, Bool.and_eq_true, decide_eq_true_eq] at inTier
  exact inTier.2

theorem Agree.nspace :
    (namespacePolicies id.nspace store).Perm (namespacePolicies id.nspace store') := by
  refine h.filter_perm _ fun o inTier => .inl ?_
  simp only [AuthorizationPolicy.isNamespaced, Bool.and_eq_true, decide_eq_true_eq] at inTier
  exact inTier.2

theorem Agree.client : clientPolicies id store = clientPolicies id store' :=
  clientPolicies_of_lookup (h id (.inl rfl))

theorem Agree.trans {store'' : PolicyStore} (h' : Agree service id store' store'') :
    Agree service id store store'' :=
  fun key concerns => (h key concerns).trans (h' key concerns)

theorem Agree.insert (key : ObjectKey) (spec : PolicySpec) :
    Agree service id (store.insert key spec) (store'.insert key spec) := by
  intro key' concerns
  rw [lookup_insert, lookup_insert, h key' concerns]

theorem Agree.erase (key : ObjectKey) : Agree service id (store.erase key) (store'.erase key) := by
  intro key' concerns
  rw [lookup_erase, lookup_erase, h key' concerns]

end

variable {key : ObjectKey}

theorem agree_insert (third : ¬Concerns service id key) (spec : PolicySpec) :
    Agree service id (store.insert key spec) store := by
  intro key' concerns
  have other : key' ≠ key := fun same => third (same ▸ concerns)
  rw [lookup_insert, if_neg other]

theorem agree_erase (third : ¬Concerns service id key) :
    Agree service id (store.erase key) store := by
  intro key' concerns
  have other : key' ≠ key := fun same => third (same ▸ concerns)
  rw [lookup_erase, if_neg other]

theorem Agree.appliesTo (h : Agree service id store store') {policies : List PolicyEntry}
    (applies : AppliesTo service store id policies) : AppliesTo service store' id policies := by
  obtain ⟨client, found, perm⟩ := applies
  exact ⟨client, h.client ▸ found, perm.trans
    (gather_perm client (extractPolicies_perm h.global) (extractPolicies_perm h.nspace))⟩

end

/-! Lists of the same policies -/

theorem appliesTo_iff {service : String} {store : PolicyStore} {id : ObjectKey}
    {l : List PolicyEntry} :
    AppliesTo service store id l ↔ ∃ g, gathered service store id = some g ∧ l.Perm g := by
  simp only [AppliesTo, gathered, Option.map_eq_some_iff]
  constructor
  · rintro ⟨client, found, perm⟩
    exact ⟨_, ⟨client, found, rfl⟩, perm⟩
  · rintro ⟨_, ⟨client, found, rfl⟩, perm⟩
    exact ⟨client, found, perm⟩

/-- What the hash and the bundle of a list of policies depend on. -/
structure Canonical (config : ServiceConfig) : Prop where
  hash_ne : ∀ l, config.contentHash l ≠ ""
  hash : ∀ l l', TieFree (l.map PolicyEntry.policy) → l.Perm l' →
    config.contentHash l = config.contentHash l'
  build : ∀ l l', TieFree (l.map PolicyEntry.policy) → l.Perm l' → config.build l = config.build l'

theorem Builder.canonical (b : Builder) (service : String) : Canonical (b.serviceConfig service) where
  hash_ne l := by
    simp only [serviceConfig, contentHash, BundleService.contentHash]
    split <;> simp [String.append_eq_empty_iff]
  hash l l' tieFree perm := by
    have sorted := b.sort.sort_eq_of_perm tieFree (perm.map _)
    have empty : l.map PolicyEntry.policy = [] ↔ l'.map PolicyEntry.policy = [] := by
      rw [← b.sort.sort_eq_nil, sorted, b.sort.sort_eq_nil]
    simp only [serviceConfig, contentHash, BundleService.contentHash, sorted, empty]
  build l l' tieFree perm := by
    have sorted := b.sort.sort_eq_of_perm tieFree (perm.map _)
    simp only [serviceConfig, b.build_eq_of_sort_eq sorted]

section

variable {config : ServiceConfig} {store : PolicyStore} {id : ObjectKey} {ifNoneMatch : String}
  {l : List PolicyEntry} (canonical : Canonical config) (untied : Untied config.service store id)

include canonical untied

theorem sendsCurrent_iff (applies : AppliesTo config.service store id l) :
    SendsCurrent config store id ifNoneMatch ↔ ifNoneMatch = config.contentHash l := by
  obtain ⟨g, found, perm⟩ := appliesTo_iff.mp applies
  rw [Untied, found, Option.getD_some] at untied
  simp [SendsCurrent, found, canonical.hash g l untied perm.symm]

theorem answer_of_appliesTo (applies : AppliesTo config.service store id l) :
    answer config store id ifNoneMatch =
      if ifNoneMatch = config.contentHash l then .notModified ifNoneMatch
      else bundleAnswer config l := by
  obtain ⟨g, found, perm⟩ := appliesTo_iff.mp applies
  rw [Untied, found, Option.getD_some] at untied
  simp only [answer, bundleAnswer, found, canonical.hash g l untied perm.symm,
    canonical.build g l untied perm.symm]

theorem Agree.answer_eq {store' : PolicyStore} (agree : Agree config.service id store store') :
    answer config store id ifNoneMatch = answer config store' id ifNoneMatch := by
  cases found : gathered config.service store' id with
  | none =>
    have unread : gathered config.service store id = none := by
      rw [gathered, Option.map_eq_none_iff] at found ⊢
      rw [agree.client, found]
    rw [answer, answer, found, unread]
  | some g =>
    have agree' : Agree config.service id store' store := fun key h => (agree key h).symm
    rw [answer_of_appliesTo canonical untied
      (agree'.appliesTo (appliesTo_iff.mpr ⟨g, found, .refl g⟩)), answer, found]

/-- A fresh answer is the one of the client's machine. -/
theorem Fresh.eq_answer {c : Call} {a : Answer} (fresh : Fresh config store c a) (same : c.id = id)
    (done : a ≠ .cancelled)
    (kind : (∃ etag, a = .notModified etag) ∨ ¬SendsCurrent config store id c.ifNoneMatch) :
    a = answer config store id c.ifNoneMatch := by
  subst same
  cases a with
  | notModified etag =>
    obtain ⟨rfl, l, applies, hash⟩ := fresh
    rw [answer_of_appliesTo canonical untied applies, if_pos hash]
  | bundle data etag =>
    obtain ⟨l, applies, built, small, rfl⟩ := fresh
    have other := kind.resolve_left (by simp)
    rw [sendsCurrent_iff canonical untied applies] at other
    rw [answer_of_appliesTo canonical untied applies, if_neg other, bundleAnswer, built]
    exact (if_neg (Nat.not_lt.mpr small)).symm
  | failed =>
    rcases fresh with none | ⟨l, applies, fails⟩
    · rw [answer, gathered, none]
      rfl
    · have other := kind.resolve_left (by simp)
      rw [sendsCurrent_iff canonical untied applies] at other
      rw [answer_of_appliesTo canonical untied applies, if_neg other, bundleAnswer]
      split
      · rfl
      next data built => exact (if_pos (fails data built)).symm
  | cancelled => contradiction

end

/-! What a step does to the client's calls -/

/-- From `begun` a call goes on to the bundle cache only if the cached ETag is not its own. -/
structure Advances (s : Service) (c : Call) (state : CallState) : Prop where
  busy : c.inProgress = true
  leaves : state ≠ .begun
  done : state ≠ .returned .cancelled
  begun : c.state = .begun →
    (∃ etag, state = .returned (.notModified etag)) ∨ state = .bundleCache ∧
      ¬(c.ifNoneMatch ≠ "" ∧ s.etags.lookup c.id = some c.ifNoneMatch)
  revalidated : ∀ etag, state = .returned (.notModified etag) → c.state = .begun

def Moved (id : ObjectKey) (s : Service) (c c' : Call) : Prop :=
  c'.id = c.id ∧ (c.id = id → c' = c ∨ ∃ state, Advances s c state ∧ c' = { c with state := state })

structure Moves (id : ObjectKey) (s s' : Service) : Prop where
  store : s'.store = s.store
  etag : (s.etags.lookup id).isSome = true → (s'.etags.lookup id).isSome = true
  calls : List.Forall₂ (Moved id s) s.calls s'.calls

section

variable {id caller : ObjectKey} {s s' : Service} {c : Call}

theorem Moved.refl (c : Call) : Moved id s c c := ⟨rfl, fun _ => .inl rfl⟩

theorem forall₂_moved (calls : List Call) : List.Forall₂ (Moved id s) calls calls :=
  List.forall₂_same.mpr fun c _ => .refl c

theorem forall₂_moved_set {state : CallState} (advances : Advances s c state) {calls : List Call}
    {i : Nat} (found : calls[i]? = some c) :
    List.Forall₂ (Moved id s) calls (calls.set i { c with state := state }) := by
  induction calls generalizing i with
  | nil => cases found
  | cons first rest ih =>
    cases i with
    | zero =>
      cases found
      exact .cons ⟨rfl, fun _ => .inr ⟨state, advances, rfl⟩⟩ (forall₂_moved rest)
    | succ i => exact .cons (.refl first) (ih found)

theorem isSome_insert (etags : AList fun _ : ObjectKey => String) (etag : String)
    (h : (etags.lookup id).isSome = true) : ((etags.insert caller etag).lookup id).isSome = true := by
  rw [lookup_insert]
  split
  · rfl
  · exact h

theorem Moves.stepCall {i : Nat} {state : CallState} (found : s.calls[i]? = some c)
    (h : s.stepCall c = some (s', state)) :
    Moves id s { s' with calls := s'.calls.set i { c with state := state } } := by
  revert h
  fun_cases Service.stepCall <;> rintro ⟨⟩
  case case6 hit =>
    refine ⟨rfl, isSome_insert _ _, forall₂_moved_set ?_ found⟩
    constructor <;> simp [Call.inProgress, hit]
  all_goals
    refine ⟨rfl, fun h => h, forall₂_moved_set ?_ found⟩
    constructor <;> simp_all [Call.inProgress] <;> grind

/-- The end of a build moves the calls that wait for it. -/
theorem Moves.finish {a : Answer} (other : caller = id → ∀ etag, a ≠ .notModified etag ∧ a ≠ .cancelled)
    (store : s'.store = s.store) (etags : s'.etags = s.etags) (calls : s'.calls = s.calls) :
    Moves id s (s'.finish caller a) := by
  refine ⟨store, fun h => etags ▸ h, ?_⟩
  rw [Service.finish, calls, List.forall₂_map_right_iff, List.forall₂_same]
  intro c _
  split
  next waits =>
    refine ⟨rfl, fun own => .inr ⟨_, ?_, rfl⟩⟩
    have answered := other (waits.1.symm.trans own)
    constructor <;> simp [Call.inProgress, waits.2, (answered "").2]
    exact fun etag => (answered etag).1
  · exact .refl c

theorem Moves.stepBuild {config : ServiceConfig} {listed : List AuthorizationPolicy}
    {build : BuildState} (h : s.stepBuild config caller listed build = some s') : Moves id s s' := by
  revert h
  fun_cases Service.stepBuild s config caller listed build <;> rintro ⟨⟩
  case case13 | case16 | case17 | case18 => exact .finish (by simp) rfl rfl rfl
  case case15 => exact ⟨rfl, isSome_insert _ _, forall₂_moved _⟩
  all_goals exact ⟨rfl, fun h => h, forall₂_moved _⟩

end

/-! The relation between the service and the client's machine -/

/-- The calls of a client, in the order in which they began. -/
def Service.own (s : Service) (id : ObjectKey) : List Call := s.calls.filter (·.id = id)

section

variable (config : ServiceConfig) (id : ObjectKey) (store : PolicyStore) (etag : Option String)
  (c : Call) (a : Answer)

/-- A call under way that the client's machine has answered with `a`. -/
structure Underway : Prop where
  settled : c.settled = true
  untied : Untied config.service store id
  answer : a = answer config store id c.ifNoneMatch
  begun : c.state = .begun → SendsCurrent config store id c.ifNoneMatch → etag.isSome = true
  past : c.state ≠ .begun → ¬SendsCurrent config store id c.ifNoneMatch

structure Matches : Prop where
  own : c.id = id
  returned : ∀ a', c.state = .returned a' → a' = a
  underway : c.inProgress = true → Underway config id store etag c a

end

structure Follows (config : ServiceConfig) (id : ObjectKey) (s : Service) (t : Tenant) : Prop where
  inv : Inv config s
  store : Agree config.service id s.store t.store
  calls : List.Forall₂ (Matches config id s.store (s.etags.lookup id)) (s.own id) t.answers

theorem forall₂_trans {α β γ : Type} {P : α → β → Prop} {Q : α → γ → Prop} {R : β → γ → Prop}
    {l : List α} {m : List β} {n : List γ} (h : List.Forall₂ P l m) (h' : List.Forall₂ Q l n)
    (imp : ∀ a ∈ l, ∀ b ∈ m, ∀ c, P a b → Q a c → R b c) : List.Forall₂ R m n := by
  induction h generalizing n with
  | nil =>
    cases h'
    exact .nil
  | cons first _ ih =>
    cases h' with
    | cons first' rest' =>
      refine .cons (imp _ (.head _) _ (.head _) _ first first') (ih rest' ?_)
      exact fun a inl b inm => imp a (.tail _ inl) b (.tail _ inm)

section

variable {config : ServiceConfig} {id : ObjectKey} {s s' : Service} {t : Tenant} {c c' : Call}
  {a : Answer}

theorem Matches.of_idle {store store' : PolicyStore} {etag etag' : Option String}
    (h : Matches config id store etag c a) (idle : c.inProgress = false) (same : c'.id = c.id)
    (state : c'.state = c.state) : Matches config id store' etag' c' a where
  own := same.trans h.own
  returned := state ▸ h.returned
  underway busy := by
    rw [Call.inProgress, state] at busy
    rw [Call.inProgress, busy] at idle
    contradiction

variable (canonical : Canonical config)

include canonical

/-- With an ETag in the cache, a call that sends the current one is answered from the cache. -/
theorem Underway.not_sendsCurrent (h : Underway config id s.store (s.etags.lookup id) c a)
    (inv : Inv config s) (mem : c ∈ s.calls) (same : c.id = id) (begun : c.state = .begun)
    (other : ¬(c.ifNoneMatch ≠ "" ∧ s.etags.lookup c.id = some c.ifNoneMatch)) :
    ¬SendsCurrent config s.store id c.ifNoneMatch := by
  intro current
  obtain ⟨etag, found⟩ := Option.isSome_iff_exists.mp (h.begun begun current)
  have fresh : CurrentETag config s.store id etag := by
    refine (inv.etags id etag found).resolve_right ?_
    rw [inv.due_of_settled mem h.settled]
    exact not_clearsETag_nil id
  obtain ⟨l, applies, rfl⟩ := fresh
  rw [sendsCurrent_iff canonical h.untied applies] at current
  exact other ⟨current ▸ canonical.hash_ne l, by rw [same, found, current]⟩

theorem Matches.moved (h : Matches config id s.store (s.etags.lookup id) c a)
    (moves : Moves id s s') (inv : Inv config s) (inv' : Inv config s') (mem : c ∈ s.calls)
    (mem' : c' ∈ s'.calls) (moved : Moved id s c c') :
    Matches config id s'.store (s'.etags.lookup id) c' a := by
  have store := moves.store
  rcases moved.2 h.own with rfl | ⟨state, advances, rfl⟩
  · refine ⟨h.own, h.returned, fun busy => ?_⟩
    obtain ⟨settled, untied, answer, begun, past⟩ := h.underway busy
    rw [← store] at untied answer begun past
    exact ⟨settled, untied, answer, fun b current => moves.etag (begun b current), past⟩
  · have underway := h.underway advances.busy
    have other : (∀ etag, state ≠ .returned (.notModified etag)) →
        ¬SendsCurrent config s.store id c.ifNoneMatch := by
      intro notRevalidated
      by_cases begun : c.state = .begun
      · rcases advances.begun begun with ⟨etag, same⟩ | ⟨-, notOwn⟩
        · exact absurd same (notRevalidated etag)
        · exact underway.not_sendsCurrent canonical inv mem h.own begun notOwn
      · exact underway.past begun
    refine ⟨h.own, fun a' returned => ?_, fun busy => ?_⟩
    · replace returned : state = .returned a' := returned
      have fresh : Fresh config s.store { c with state := state } a' := by
        have ok := inv'.calls _ mem'
        rw [CallOk, returned] at ok
        exact store ▸ ok underway.settled
      rw [underway.answer]
      refine fresh.eq_answer canonical underway.untied h.own ?_ ?_
      · rintro rfl
        exact advances.done returned
      · grind
    · refine ⟨underway.settled, store ▸ underway.untied, store ▸ underway.answer,
        fun begun => absurd begun advances.leaves, fun _ => store ▸ other ?_⟩
      rintro etag rfl
      contradiction

theorem Follows.moves (h : Follows config id s t) (moves : Moves id s s') (inv' : Inv config s') :
    Follows config id s' t where
  inv := inv'
  store := moves.store ▸ h.store
  calls := by
    have own : List.Forall₂ (Moved id s) (s.own id) (s'.own id) :=
      List.rel_filter (fun _ _ moved => by simp [moved.1]) moves.calls
    refine forall₂_trans own h.calls fun c mem c' mem' a moved ok => ?_
    exact ok.moved canonical moves h.inv inv' (List.mem_of_mem_filter mem)
      (List.mem_of_mem_filter mem') moved

theorem Follows.getBundle (h : Follows config id s t) {ifNoneMatch : String}
    (apart : Apart config id s (.getBundle id ifNoneMatch))
    (inv' : Inv config { s with calls := s.calls ++ [⟨id, ifNoneMatch, .begun, s.quiet⟩] }) :
    Follows config id { s with calls := s.calls ++ [⟨id, ifNoneMatch, .begun, s.quiet⟩] }
      (t.observe config id (.getBundle ifNoneMatch)) where
  inv := inv'
  store := h.store
  calls := by
    obtain ⟨quiet, untied, cached⟩ := apart rfl
    have begins : Matches config id s.store (s.etags.lookup id) ⟨id, ifNoneMatch, .begun, s.quiet⟩
        (answer config t.store id ifNoneMatch) := by
      refine ⟨rfl, nofun, fun _ => ⟨quiet, untied, ?_, fun _ => cached, fun past => absurd rfl past⟩⟩
      exact (Agree.answer_eq canonical untied h.store).symm
    rw [Service.own, List.filter_append]
    exact List.rel_append h.calls (by simpa using begins)

omit canonical

theorem Follows.own_idle (h : Follows config id s t) (idle : s.ownIdle id) :
    List.Forall₂ (fun c a => c.inProgress = false ∧ Matches config id s.store (s.etags.lookup id) c a)
      (s.own id) t.answers := by
  refine (List.forall₂_and_left _ _).mpr ⟨fun c mem => ?_, h.calls⟩
  obtain ⟨mem, same⟩ := List.mem_filter.mp mem
  exact idle c mem (of_decide_eq_true same)

theorem Follows.event (h : Follows config id s t) {store store' : PolicyStore}
    {o : AuthorizationPolicy} (idle : s.ownIdle id) (inv' : Inv config (s.event store o))
    (agree : Agree config.service id store store') :
    Follows config id (s.event store o) { t with store := store' } where
  inv := inv'
  store := agree
  calls := by
    rw [Service.own, Service.event, List.filter_map, List.forall₂_map_left_iff]
    exact (h.own_idle idle).imp fun c a ok => ok.2.of_idle ok.1 rfl rfl

/-- Without its calls under way, nothing that leaves the store alone concerns the client. -/
theorem Follows.of_ownIdle (h : Follows config id s t) (idle : s.ownIdle id)
    (inv' : Inv config s') (store : s'.store = s.store) (calls : s'.calls = s.calls) :
    Follows config id s' t where
  inv := inv'
  store := store ▸ h.store
  calls := by
    rw [Service.own, calls]
    exact (h.own_idle idle).imp fun c a ok => ok.2.of_idle ok.1 rfl rfl

end

theorem Service.idle.own {s : Service} (h : s.idle) (id : ObjectKey) : s.ownIdle id :=
  fun c mem _ => h.1 c mem

theorem Follows.step {config : ServiceConfig} {id : ObjectKey} {s s' : Service} {t : Tenant}
    (canonical : Canonical config) {action : ServiceAction} (h : Follows config id s t)
    (isolated : Isolated config id s action) (step : s.step config action = some s') :
    Follows config id s'
      (System.observed (view config.service id) (Tenant.observe config id) t action) := by
  obtain ⟨undisturbed, apart⟩ := isolated
  have inv' := h.inv.step undisturbed step
  cases action with
  | apply o =>
    cases step
    by_cases concerns : Concerns config.service id o.key
    · simp only [System.observed, view, if_pos concerns]
      exact h.event apart inv' (h.store.insert o.key o.spec)
    · simp only [System.observed, view, if_neg concerns]
      exact h.event apart inv' ((agree_insert concerns o.spec).trans h.store)
  | delete key =>
    obtain ⟨spec, -, rfl⟩ := Option.map_eq_some_iff.mp step
    by_cases concerns : Concerns config.service id key
    · simp only [System.observed, view, if_pos concerns]
      exact h.event apart inv' (h.store.erase key)
    · simp only [System.observed, view, if_neg concerns]
      exact h.event apart inv' ((agree_erase concerns).trans h.store)
  | redeliver key =>
    obtain ⟨spec, -, rfl⟩ := Option.map_eq_some_iff.mp step
    exact h.event apart inv' h.store
  | notify =>
    dsimp only [Service.step] at step
    split at step
    · cases step
      exact h.of_ownIdle (undisturbed.own id) inv' rfl rfl
    · cases step
  | handle =>
    dsimp only [Service.step] at step
    split at step
    · cases step
    next op rest handling =>
      cases step
      have idle : s.idle := h.inv.handling (by simp [handling])
      cases op <;> exact h.of_ownIdle (idle.own id) inv' rfl rfl
  | expire expired =>
    cases step
    exact h.moves canonical ⟨rfl, fun cached => cached, forall₂_moved _⟩ inv'
  | getBundle caller ifNoneMatch =>
    cases step
    by_cases own : caller = id
    · subst own
      simp only [System.observed, view]
      exact h.getBundle canonical apart inv'
    · simp only [System.observed, view, if_neg own]
      refine ⟨inv', h.store, ?_⟩
      rw [Service.own, List.filter_append]
      simpa [Service.own, own] using h.calls
  | call i =>
    dsimp only [Service.step] at step
    split at step
    · cases step
    next c found =>
      obtain ⟨⟨after, state⟩, stepped, rfl⟩ := Option.map_eq_some_iff.mp step
      exact h.moves canonical (.stepCall found stepped) inv'
  | build caller listed =>
    dsimp only [Service.step] at step
    split at step
    · cases step
    next build running => exact h.moves canonical (.stepBuild step) inv'
  | cancel caller =>
    dsimp only [Service.step] at step
    split at step
    · cases step
      exact h.moves canonical (.finish (fun own => absurd own apart) rfl rfl rfl) inv'
    · cases step

/-- One of the calls has not returned yet, or both have returned the same. -/
def SameAnswer (c c' : Call) : Prop :=
  ∀ a a', c.state = .returned a → c'.state = .returned a' → a = a'

/-- The answers to a client are the same in any two histories that are alike for the client,
when each step of both meets the conditions: its calls correspond one to one, and where both
have returned, they have returned the same. -/
theorem answers_same_of_isolated (quote : String → String) (b : Builder) (service : String)
    {spiffe : String} {id : ObjectKey} (named : fromRequest quote spiffe = .ok id)
    {h h' : List Input} {s s' : Service}
    (run : (serviceSystem (b.serviceConfig service)).Trace (Isolated (b.serviceConfig service) id)
      .init (h.filterMap (Input.action quote)) s)
    (run' : (serviceSystem (b.serviceConfig service)).Trace (Isolated (b.serviceConfig service) id)
      .init (h'.filterMap (Input.action quote)) s')
    (alike : h.filterMap (viewInput quote service id) = h'.filterMap (viewInput quote service id)) :
    List.Forall₂ SameAnswer (s.own id) (s'.own id) := by
  have start : Follows (b.serviceConfig service) id .init ⟨∅, []⟩ :=
    ⟨Inv.init _, fun _ _ => rfl, .nil⟩
  have views (h : List Input) : (h.filterMap (Input.action quote)).filterMap (view service id) =
      h.filterMap (viewInput quote service id) := by
    rw [List.filterMap_filterMap]
    exact congrArg (List.filterMap · h) (funext fun input => (viewInput_eq named input).symm)
  refine run.indistinguishable (view service id) (Tenant.observe (b.serviceConfig service) id)
    (fun s s' => List.Forall₂ SameAnswer (s.own id) (s'.own id))
    (R := Follows (b.serviceConfig service) id)
    (fun s a s' t related => related.step (b.canonical service)) (fun s s' t related related' => ?_)
    run' ((views h).trans (alike.trans (views h').symm)) start start
  refine forall₂_trans related.calls.flip related'.calls.flip fun a _ c _ c' ok ok' => ?_
  exact fun x x' returned returned' => (ok.returned x returned).trans (ok'.returned x' returned').symm

/-! Runs of a service with two clients -/

namespace TwoTeams

open BaseAndAgent

def config : ServiceConfig := (Builder.uncompressed (·.take 4)).serviceConfig "kagenti-system"

def other : ObjectKey := ⟨"other", "agent"⟩

def own : AuthorizationPolicy := ⟨agent, ⟨.client, some [⟨"main.rego", "allow"⟩]⟩⟩

def foreign : AuthorizationPolicy :=
  ⟨⟨"other", "base"⟩, ⟨.nspace, some [⟨"main.rego", "deny"⟩]⟩⟩

def ownPolicies : List PolicyEntry := [⟨"authbridge/client/main.rego", "allow"⟩]

def etag : String := config.contentHash ownPolicies

def spiffe : String := "cluster.local/ns/team/sa/agent"

def steps (actions : List ServiceAction) : List Input := actions.map .service

def applied (o : AuthorizationPolicy) (ops : Nat) : List Input := steps (.apply o :: invalidation ops)

def builds (id : ObjectKey) (n : Nat) (listed : List AuthorizationPolicy) : List ServiceAction :=
  List.replicate n (.build id listed)

def firstCall : List Input :=
  applied own 2 ++ .request spiffe "" :: steps (List.replicate 3 (.call 0) ++ builds agent 10 [])

def alone : List Input := firstCall ++ .request spiffe etag :: steps [.call 1]

/-- Another team's resource, and a call of its client that overlaps the agent's. -/
def overlapped : List Input :=
  applied foreign 3 ++ applied own 2 ++
    [.request spiffe "", .request "cluster.local/ns/other/sa/agent" ""] ++
    steps ([.call 0, .call 1, .call 0, .call 1, .call 0, .call 1] ++ builds agent 4 [] ++
      builds other 6 [foreign] ++ builds agent 6 [] ++ [.expire agent]) ++
    .request spiffe etag :: steps [.call 2]

def interrupted : List Input :=
  firstCall ++ applied foreign 3 ++
    .request spiffe etag :: steps (List.replicate 3 (.call 1) ++ builds agent 6 [])

/-- A run of the agent alone, and one with a call of another team in between. -/
theorem answers_same_with_overlapping_call :
    ∃ s s' : Service,
      (serviceSystem config).Trace (Isolated config agent) .init
        (alone.filterMap (Input.action id)) s ∧
      (serviceSystem config).Trace (Isolated config agent) .init
        (overlapped.filterMap (Input.action id)) s' ∧
      s.ownIdle agent ∧ s'.ownIdle agent ∧ (s.own agent).length = 2 ∧
      List.Forall₂ SameAnswer (s.own agent) (s'.own agent) := by
  obtain ⟨s, run, idle, calls⟩ : ∃ s ∈ (serviceSystem config).runFrom (Isolated config agent) .init
      (alone.filterMap (Input.action id)), s.ownIdle agent ∧ (s.own agent).length = 2 := by
    decide +kernel
  obtain ⟨s', run', idle'⟩ : ∃ s ∈ (serviceSystem config).runFrom (Isolated config agent) .init
      (overlapped.filterMap (Input.action id)), s.ownIdle agent := by
    decide +kernel
  have named : fromRequest id spiffe = .ok agent := by decide +kernel
  exact ⟨s, s', .of_runFrom run, .of_runFrom run', idle, idle', calls, answers_same_of_isolated _ _ _
    named (.of_runFrom run) (.of_runFrom run') (by decide +kernel)⟩

/-- Another team's namespace-scope resource comes between two calls: the agent, whose policies
are as before, gets its bundle a second time instead of the answer that it has it. -/
theorem foreign_resource_drops_etag :
    ∃ s s' : Service,
      (serviceSystem config).Trace System.anyAction .init (alone.filterMap (Input.action id)) s ∧
      (serviceSystem config).Trace System.anyAction .init
        (interrupted.filterMap (Input.action id)) s' ∧
      alone.filterMap (viewInput id "kagenti-system" agent) =
        interrupted.filterMap (viewInput id "kagenti-system" agent) ∧
      ¬List.Forall₂ SameAnswer (s.own agent) (s'.own agent) := by
  obtain ⟨s, run, second⟩ : ∃ s ∈ (serviceSystem config).runFrom System.anyAction .init
      (alone.filterMap (Input.action id)),
      (s.own agent)[1]? = some ⟨agent, etag, .returned (.notModified etag), true⟩ := by
    decide +kernel
  obtain ⟨s', run', second'⟩ : ∃ s ∈ (serviceSystem config).runFrom System.anyAction .init
      (interrupted.filterMap (Input.action id)), (s.own agent)[1]? =
        some ⟨agent, etag, .returned (.bundle ((config.build ownPolicies).getD []) etag), true⟩ := by
    decide +kernel
  refine ⟨s, s', .of_runFrom run, .of_runFrom run', by decide +kernel, fun same => ?_⟩
  obtain ⟨bound, call⟩ := List.getElem?_eq_some_iff.mp second
  obtain ⟨bound', call'⟩ := List.getElem?_eq_some_iff.mp second'
  have answers := same.get bound bound'
  rw [List.get_eq_getElem, List.get_eq_getElem, call, call'] at answers
  cases answers _ _ rfl rfl

end TwoTeams

end Kagenti.Operator.BundleService
