import Kagenti.Operator.BundleService.CacheInvariant

/-!
Coherence of the bundle service's caches with the store: when every invalidation has run, a call
returns what a build from the current store gives.
-/

namespace Kagenti.Operator.BundleService

open Lib.Transition

/-! Calls and builds -/

section

variable {config : ServiceConfig} {s : Service} {c : Call} {id : ObjectKey} {b : BuildState}

theorem complete_due (free : s.handling = []) : Complete (s.due config) := by
  rw [Service.due, free]
  exact Complete.flatMap config.service s.pending

theorem not_clearsETag_nil (id : ObjectKey) : ¬ClearsETag [] id := by simp [ClearsETag]

theorem not_stale_nil (id : ObjectKey) : ¬Stale [] id := fun h => not_clearsETag_nil id h.1

theorem not_idle_of_call (mem : c ∈ s.calls) (busy : c.inProgress = true) : ¬s.idle := by
  intro idle
  rw [idle.1 c mem] at busy
  contradiction

theorem not_idle_of_build (found : s.builds.lookup id = some b) : ¬s.idle := by
  intro idle
  have empty : s.builds = ∅ := AList.ext idle.2
  simp [empty] at found

theorem policiesOk_gather {k : Known} {global nspace client : List PolicyEntry}
    (complete : Complete k.due) (hg : GlobalOk config k global)
    (hn : NamespaceOk k id.nspace nspace) (hc : clientPolicies id k.store = some client) :
    PoliciesOk config k id (gather global nspace client) := by
  rcases hg with currentGlobal | removed
  · rcases hn with currentNamespace | removed
    · exact .inl ⟨client, hc, gather_perm client currentGlobal currentNamespace⟩
    · exact .inr (complete.nspace _ removed id)
  · exact .inr (complete.global removed id)

/-! What each write keeps -/

variable {policies : List PolicyEntry} {etag : String} {data : Data} {i : Nat} {state : CallState}
  (inv : Inv config s)

include inv

theorem Inv.due_of_settled (mem : c ∈ s.calls) (settled : c.settled = true) :
    s.due config = [] := by
  obtain ⟨pending, handling⟩ := inv.settled c mem settled
  simp [Service.due, pending, handling]

theorem Inv.setGlobal (ok : GlobalOk config (s.known config) policies) :
    Inv config { s with global := some policies } :=
  { inv with
    global := by
      rintro _ ⟨⟩
      exact ok }

theorem Inv.setNamespace {nspace : String} (ok : NamespaceOk (s.known config) nspace policies) :
    Inv config { s with nspaces := s.nspaces.insert nspace policies } :=
  { inv with nspaces := inv.nspaces.insert ok }

theorem Inv.setETag (ok : CurrentETag config s.store id etag ∨ ClearsETag (s.due config) id) :
    Inv config { s with etags := s.etags.insert id etag } :=
  { inv with etags := inv.etags.insert ok }

theorem Inv.setBundle
    (ok : CurrentBundle config s.store id data etag ∨ ClearsBundle (s.due config) id) :
    Inv config { s with bundles := s.bundles.insert id (data, etag) } :=
  { inv with bundles := inv.bundles.insert ok }

theorem Inv.expire (id : ObjectKey) : Inv config { s with bundles := s.bundles.erase id } :=
  { inv with bundles := inv.bundles.erase id }

theorem Inv.free (busy : ¬s.idle) : s.handling = [] :=
  not_not.mp fun handling => busy (inv.handling handling)

theorem Inv.applies_of_settled (ok : PoliciesOk config (s.known config) id policies)
    (mem : c ∈ s.calls) (settled : c.settled = true) :
    AppliesTo config.service s.store id policies := by
  refine ok.resolve_right ?_
  have none : s.due config = [] := inv.due_of_settled mem settled
  rw [Service.known, none]
  exact not_stale_nil id

section

variable (free : s.handling = [])

include free

theorem Inv.setBuild (ok : BuildOk config (s.known config) id b) : Inv config (s.setBuild id b) :=
  { inv with
    builds := inv.builds.insert ok
    handling := fun busy => absurd free busy }

theorem Inv.setCall (mem : c ∈ s.calls)
    (ok : CallOk config (s.known config) { c with state := state }) :
    Inv config { s with calls := s.calls.set i { c with state := state } } :=
  { inv with
    calls := by
      intro other found
      rcases List.mem_or_eq_of_mem_set found with was | rfl
      · exact inv.calls other was
      · exact ok
    handling := fun busy => absurd free busy
    settled := by
      intro other found settled
      rcases List.mem_or_eq_of_mem_set found with was | rfl
      · exact inv.settled other was settled
      · exact inv.settled c mem settled }

theorem Inv.finish {answer : Answer}
    (ok : ∀ c ∈ s.calls, c.id = id → c.settled = true → Fresh config s.store c answer) :
    Inv config (s.finish id answer) :=
  { inv with
    builds := inv.builds.erase id
    calls := by
      intro c found
      obtain ⟨before, was, rfl⟩ := List.mem_map.mp found
      split
      next waiting => exact fun settled => ok before was waiting.1 settled
      · exact inv.calls before was
    handling := fun busy => absurd free busy
    settled := by
      intro c found settled
      obtain ⟨before, was, rfl⟩ := List.mem_map.mp found
      refine inv.settled before was ?_
      split at settled <;> exact settled }

theorem Inv.finishFailed (ok : PoliciesOk config (s.known config) id policies)
    (fails : ∀ data, config.build policies = some data → maxBundleSize < data.length) :
    Inv config (s.finish id .failed) := by
  refine inv.finish free fun c mem same settled => .inr ⟨policies, ?_, fails⟩
  rw [same]
  exact inv.applies_of_settled ok mem settled

theorem Inv.finishBundle (ok : PoliciesOk config (s.known config) id policies)
    (built : config.build policies = some data) (small : ¬maxBundleSize < data.length) :
    let etag := config.contentHash policies
    Inv config ({ s with bundles := s.bundles.insert id (data, etag) }.finish id
      (.bundle data etag)) := by
  intro etag
  have bundleOk : CurrentBundle config s.store id data etag ∨ ClearsBundle (s.due config) id :=
    ok.imp (fun applies => ⟨policies, applies, built, Nat.le_of_not_lt small, rfl⟩) And.right
  refine (inv.setBundle bundleOk).finish free fun c mem same settled => ?_
  refine ⟨policies, ?_, built, Nat.le_of_not_lt small, rfl⟩
  rw [same]
  exact inv.applies_of_settled ok mem settled

theorem Inv.getBundle (id : ObjectKey) (ifNoneMatch : String) :
    Inv config { s with calls := s.calls ++ [⟨id, ifNoneMatch, .begun, s.quiet⟩] } :=
  { inv with
    calls := List.forall_mem_append.mpr ⟨inv.calls, List.forall_mem_singleton.mpr trivial⟩
    handling := fun busy => absurd free busy
    settled := by
      refine List.forall_mem_append.mpr ⟨inv.settled, List.forall_mem_singleton.mpr fun settled => ?_⟩
      simp only [Service.quiet, Bool.and_eq_true, List.isEmpty_iff] at settled
      exact settled.1 }

end

/-! What each step keeps -/

variable {s' : Service}

theorem Inv.stepCall (mem : c ∈ s.calls) (h : s.stepCall c = some (s', state)) :
    Inv config { s' with calls := s'.calls.set i { c with state := state } } := by
  have busy : c.inProgress = true := by
    unfold Call.inProgress
    split
    next returned => simp [Service.stepCall, returned] at h
    · rfl
  have free := inv.free (not_idle_of_call mem busy)
  have complete : Complete (s.due config) := complete_due free
  have ok := inv.calls c mem
  unfold CallOk at ok
  revert h
  fun_cases Service.stepCall <;> rintro ⟨⟩
  case case1 etag found same =>
    refine inv.setCall free mem fun settled => ⟨same.2.symm, ?_⟩
    refine (inv.etags _ _ found).resolve_right ?_
    rw [inv.due_of_settled mem settled]
    exact not_clearsETag_nil _
  case case4 found =>
    exact inv.setCall free mem ((inv.bundles _ _ found).imp_right (complete.bundle _))
  case case6 data etag hit =>
    rw [hit] at ok
    have etagOk : CurrentETag config s.store c.id etag ∨ ClearsETag (s.due config) c.id := by
      refine ok.imp ?_ And.left
      rintro ⟨policies, applies, -, -, rfl⟩
      exact ⟨policies, applies, rfl⟩
    refine (inv.setETag etagOk).setCall free mem fun settled => ok.resolve_right ?_
    have none : s.due config = [] := inv.due_of_settled mem settled
    rw [Service.known, none]
    exact not_stale_nil _
  case case8 =>
    have started : Inv config (s.setBuild c.id .acquire) := inv.setBuild free trivial
    exact started.setCall free mem trivial
  all_goals exact inv.setCall free mem trivial

theorem Inv.stepBuild {listed : List AuthorizationPolicy} (found : s.builds.lookup id = some b)
    (h : s.stepBuild config id listed b = some s') : Inv config s' := by
  have free := inv.free (not_idle_of_build found)
  have ok := inv.builds id b found
  clear found
  revert h
  fun_cases Service.stepBuild s config id listed b <;> rintro ⟨⟩
  case case1 | case4 => exact inv.setBuild free trivial
  case case3 policies cached => exact inv.setBuild free (inv.global policies cached)
  case case5 current => exact inv.setBuild free (.inl (extractPolicies_perm current))
  case case7 => exact (inv.setGlobal ok).setBuild free ok
  case case8 policies cached => exact inv.setBuild free ⟨ok, inv.nspaces _ policies cached⟩
  case case9 => exact inv.setBuild free ok
  case case10 current => exact inv.setBuild free ⟨ok, .inl (extractPolicies_perm current)⟩
  case case12 => exact (inv.setNamespace ok.2).setBuild free ok
  case case13 failed =>
    refine inv.finish free fun c _ same _ => .inl ?_
    rw [same]
    exact failed
  case case14 client read =>
    exact inv.setBuild free (policiesOk_gather (complete_due free) ok.1 ok.2 read)
  case case15 policies =>
    have etagOk : CurrentETag config s.store id (config.contentHash policies) ∨
        ClearsETag (s.due config) id :=
      ok.imp (fun applies => ⟨policies, applies, rfl⟩) And.left
    exact (inv.setETag etagOk).setBuild free ok
  case case16 failed => exact inv.finishFailed free ok (by simp [failed])
  case case17 built large => exact inv.finishFailed free ok (by simpa [built] using large)
  case case18 built small _ => exact inv.finishBundle free ok built small

end

/-! Whole runs -/

def Undisturbed (config : ServiceConfig) (s : Service) : ServiceAction → Prop
  | .apply o => Covers config.service s.store o
  | .delete key => ∀ spec ∈ s.store.lookup key, invalidate config.service ⟨key, spec⟩ ≠ []
  | .notify => s.idle
  | .getBundle _ _ => s.handling = []
  | _ => True

instance (service : String) (store : PolicyStore) (o : AuthorizationPolicy) :
    Decidable (Covers service store o) :=
  decidable_of_iff
    (invalidate service o ≠ [] ∧
      (∀ old ∈ store.lookup o.key,
        AuthorizationPolicy.isGlobal service ⟨o.key, old⟩ = true → o.spec.scope = .global) ∧
      ∀ old ∈ store.lookup o.key, old.scope = .nspace → o.spec.scope = .nspace)
    ⟨fun h => ⟨h.1, h.2.1, h.2.2⟩, fun h => ⟨h.noted, h.global, h.nspace⟩⟩

instance (s : Service) : Decidable s.idle :=
  inferInstanceAs (Decidable ((∀ c ∈ s.calls, c.inProgress = false) ∧ s.builds.entries = []))

instance (config : ServiceConfig) (s : Service) : DecidablePred (Undisturbed config s) := by
  intro action
  unfold Undisturbed
  split <;> infer_instance

variable {s : Service}

theorem Inv.step {config : ServiceConfig} {s' : Service} {action : ServiceAction}
    (inv : Inv config s) (guard : Undisturbed config s action) (h : s.step config action = some s')
    : Inv config s' := by
  revert h
  fun_cases Service.step s config action <;> intro h <;> try cases h
  case case1 => exact inv.event (.apply guard)
  case case2 =>
    obtain ⟨spec, found, rfl⟩ := Option.map_eq_some_iff.mp h
    exact inv.event (.delete found (guard spec found))
  case case3 =>
    obtain ⟨spec, -, rfl⟩ := Option.map_eq_some_iff.mp h
    exact inv.event .refl
  case case4 queued free => exact inv.notify free queued guard
  case case7 handling => exact inv.handle handling
  case case8 id => exact inv.expire id
  case case9 id ifNoneMatch => exact inv.getBundle guard id ifNoneMatch
  case case11 found =>
    obtain ⟨⟨after, state⟩, stepped, rfl⟩ := Option.map_eq_some_iff.mp h
    exact inv.stepCall (List.mem_of_getElem? found) stepped
  case case13 found => exact inv.stepBuild found h
  case case14 found =>
    exact inv.finish (inv.free (not_idle_of_build found)) fun _ _ _ _ => trivial

/-- When every event's invalidation has run and the calls from before have returned, a call
returns what a build from the current store gives: in every run in which no call is under
way during an invalidation and every event invalidates what it changes. -/
theorem getBundle_current_of_undisturbed {config : ServiceConfig} {s : Service}
    (h : (serviceSystem config).Reachable (Undisturbed config) s) {c : Call} (mem : c ∈ s.calls)
    (settled : c.settled = true) {answer : Answer} (returned : c.state = .returned answer) :
    Fresh config s.store c answer := by
  have inv : Inv config s :=
    h.invariant (I := Inv config) (Inv.init config) fun _ _ _ inv guard step => inv.step guard step
  have ok := inv.calls c mem
  unfold CallOk at ok
  rw [returned] at ok
  exact ok settled

/-! Runs of a service with one global resource and one client -/

namespace BaseAndAgent

def config : ServiceConfig where
  service := "kagenti-system"
  contentHash policies := String.join (policies.map (·.content))
  build policies := some (policies.map fun p => p.content.length.toUInt8)

def base (scope : Scope) (content : String) : AuthorizationPolicy :=
  ⟨⟨"kagenti-system", "base"⟩, ⟨scope, some [⟨"base.rego", content⟩]⟩⟩

def agent : ObjectKey := ⟨"team", "agent"⟩

def invalidation (ops : Nat) : List ServiceAction := .notify :: List.replicate ops .handle

def missingCall (i : Nat) : List ServiceAction :=
  [.getBundle agent "", .call i, .call i, .call i]

def readGlobal (listed : List AuthorizationPolicy) : List ServiceAction :=
  [.build agent [], .build agent [], .build agent listed]

def rest (steps : Nat) : List ServiceAction := List.replicate steps (.build agent [])

def replacement : List ServiceAction :=
  [.apply (base .global "allow")] ++ invalidation 3 ++
    missingCall 0 ++ readGlobal [base .global "allow"] ++ rest 7 ++
    [.apply (base .global "deny all")] ++ invalidation 3 ++
    missingCall 1 ++ readGlobal [base .global "deny all"] ++ rest 5

end BaseAndAgent

open BaseAndAgent in
/-- A call after the policy has been replaced returns the new bundle. -/
theorem getBundle_current_after_replacement :
    ∃ s c, (serviceSystem config).Reachable (Undisturbed config) s ∧ c ∈ s.calls ∧
      c.settled = true ∧ c.state = .returned (.bundle [8] "deny all") ∧
      Fresh config s.store c (.bundle [8] "deny all") := by
  obtain ⟨s, ran, c, mem, settled, returned⟩ :
      ∃ s ∈ (serviceSystem config).run (Undisturbed config) replacement,
      ∃ c ∈ s.calls, c.settled = true ∧ c.state = .returned (.bundle [8] "deny all") := by
    decide +kernel
  have reachable := System.reachable_of_run _ ran
  exact ⟨s, c, reachable, mem, settled, returned,
    getBundle_current_of_undisturbed reachable mem settled returned⟩

def ServesRevoked (config : ServiceConfig) (s : Service) : Prop :=
  ∃ c ∈ s.calls, c.settled = true ∧ ∃ answer, c.state = .returned answer ∧
    ¬Fresh config s.store c answer

namespace BaseAndAgent

def scopeChange : List ServiceAction :=
  [.apply (base .global "allow")] ++ invalidation 3 ++
    missingCall 0 ++ readGlobal [base .global "allow"] ++ rest 7 ++
    [.apply (base .client "allow")] ++ invalidation 2 ++
    [.expire agent] ++ missingCall 1 ++ rest 6

def buildAcrossInvalidation : List ServiceAction :=
  [.apply (base .global "allow")] ++ invalidation 3 ++
    missingCall 0 ++ readGlobal [base .global "allow"] ++
    [.delete ⟨"kagenti-system", "base"⟩] ++ invalidation 3 ++ rest 7 ++
    [.expire agent] ++ missingCall 1 ++ rest 6

end BaseAndAgent

open BaseAndAgent in
/-- Each of the two slips lets revoked policies through: the invalidation of a changed scope
by the new object alone, and the writing of caches from what was read before an
invalidation. -/
theorem getBundle_serves_revoked :
    (∃ s, (serviceSystem config).run System.anyAction scopeChange = some s ∧
      ServesRevoked config s) ∧
    ∃ s, (serviceSystem config).run System.anyAction buildAcrossInvalidation = some s ∧
      ServesRevoked config s := by
  have served {actions : List ServiceAction}
      (evaluated : ∃ s ∈ (serviceSystem config).run System.anyAction actions,
        (globalPolicies config.service s.store = [] ∧ namespacePolicies agent.nspace s.store = [] ∧
          clientPolicies agent s.store = some []) ∧
        ∃ c ∈ s.calls, c.id = agent ∧ c.settled = true ∧
          c.state = .returned (.bundle [5] "allow")) :
      ∃ s, (serviceSystem config).run System.anyAction actions = some s ∧
        ServesRevoked config s := by
    obtain ⟨s, ran, ⟨noGlobal, noNamespace, noClient⟩, c, mem, own, settled, returned⟩ := evaluated
    refine ⟨s, ran, c, mem, settled, _, returned, ?_⟩
    rintro ⟨policies, ⟨client, found, perm⟩, built, -⟩
    rw [own] at found perm
    obtain rfl : [] = client := Option.some.inj (noClient.symm.trans found)
    rw [noGlobal, noNamespace] at perm
    obtain rfl : policies = [] := perm.eq_nil
    exact absurd built (by decide)
  exact ⟨served (by decide +kernel), served (by decide +kernel)⟩

end Kagenti.Operator.BundleService
