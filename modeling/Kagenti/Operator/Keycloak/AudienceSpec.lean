import Kagenti.Operator.Keycloak.Audience

/-!
What `EnsureAudienceScope` establishes and what it leaves alone, however its requests fare.
-/

namespace Kagenti.Operator.Keycloak

open Lib Fallible

def Named (realm : Realm) (id : Nat) (name : String) : Prop :=
  ∃ s, realm.scopes.lookup id = some s ∧ s.name = name

/-- A mapper that puts the audience into tokens. -/
def Mapper.For (audience : String) (m : Mapper) : Prop :=
  m.protocolMapper = oidcAudienceMapper ∧ m.audience = some audience

def Carries (realm : Realm) (name audience : String) : Prop :=
  ∃ id s m, realm.scopes.lookup id = some s ∧ s.name = name ∧ s.mappers.lookup name = some m ∧
    m.For audience

theorem audienceMapper_for (audience : String) : (audienceMapper audience).For audience := by
  refine ⟨rfl, ?_⟩
  simp [Mapper.audience, audienceMapper]

theorem withAudience_for {m : Mapper} (h : m.protocolMapper = oidcAudienceMapper)
    (audience : String) : (m.withAudience audience).For audience := by
  refine ⟨h, ?_⟩
  simp [Mapper.audience, Mapper.withAudience]

section Server

variable {realm : Realm} {id : Nat} {name name' audience : String} {mappers : Mappers}

theorem Named.setMappers (h : Named realm id name) (id' : Nat) (mappers : Mappers) :
    Named (realm.setMappers id' mappers) id name := by
  obtain ⟨s, hs, hname⟩ := h
  by_cases heq : id = id'
  · subst heq
    exact ⟨_, realm.lookup_setMappers hs mappers, hname⟩
  · exact ⟨s, (realm.lookup_setMappers_ne heq mappers).trans hs, hname⟩

theorem Carries.setMappers_of_ne (h : Carries realm name' audience) (hid : Named realm id name)
    (hne : name' ≠ name) (mappers : Mappers) :
    Carries (realm.setMappers id mappers) name' audience := by
  obtain ⟨id', s', m, hs', hname', hm⟩ := h
  obtain ⟨s, hs, hname⟩ := hid
  have hids : id' ≠ id := by grind
  exact ⟨id', s', m, (realm.lookup_setMappers_ne hids mappers).trans hs', hname', hm⟩

theorem carries_setMappers (hid : Named realm id name) {m : Mapper}
    (hm : mappers.lookup name = some m) (hfor : m.For audience) :
    Carries (realm.setMappers id mappers) name audience := by
  obtain ⟨s, hs, hname⟩ := hid
  exact ⟨id, _, m, realm.lookup_setMappers hs mappers, hname, hm, hfor⟩

theorem carries_of_scopes (name audience : String) (realm realm' : Realm)
    (hscopes : realm'.scopes = realm.scopes) (h : Carries realm name audience) :
    Carries realm' name audience := by
  unfold Carries
  rw [hscopes]
  exact h

theorem putDefaultDefaultScope_scopes (realm : Realm) (id : Nat) :
    (realm.putDefaultDefaultScope id).scopes = realm.scopes := by
  unfold Realm.putDefaultDefaultScope
  split <;> rfl

theorem putClientDefaultScope_scopes (realm : Realm) (client id : Nat) :
    (realm.putClientDefaultScope client id).scopes = realm.scopes := by
  unfold Realm.putClientDefaultScope
  split <;> rfl

end Server

/-! Predicates that the mapper of one name in one scope does not matter to -/

def StableFor (id : Nat) (name : String) (I : Realm → Prop) : Prop :=
  ∀ realm s mappers, realm.scopes.lookup id = some s →
    (∀ other, other ≠ name → mappers.lookup other = s.mappers.lookup other) → I realm →
    I (realm.setMappers id mappers)

section Keeps

variable {N : Type} {net : Network N} {I : Realm → Prop} {id : Nat} {name audience : String}
  {realm : Realm}

theorem listAudienceMappers_keeps :
    Keeps (fun w => I w.2) (listAudienceMappers net id) := by
  apply Keeps.bind (send_keeps net fun _ h => h)
  intro answer
  cases answer with
  | none => exact .throw _
  | some mappers => exact .pure _

theorem expectSuccess_satisfies {serve : Realm → Realm.Status × Realm} {P Q E : N × Realm → Prop}
    (hsend : Satisfies P (send net serve) (fun _ => Q) E) (hQE : ∀ w, Q w → E w)
    (request : String) :
    Satisfies P (do
      match ← send net serve with
      | .success => return ()
      | answer => throw (.status request answer)) (fun _ => Q) E := by
  apply Satisfies.bind hsend
  intro answer
  cases answer with
  | success => exact .pure fun _ h => h
  | notFound => exact .throw hQE
  | conflict => exact .throw hQE

variable (hI : StableFor id name I) (mapper : Mapper)

include hI

theorem addMapper_stable (h : I realm) : I (realm.addMapper id name mapper).2 := by
  fun_cases Realm.addMapper with
  | case1 | case2 => exact h
  | case3 s hs => exact hI _ s _ hs (fun _ hne => AList.lookup_insert_ne hne) h

theorem putMapper_stable (h : I realm) : I (realm.putMapper id name mapper).2 := by
  fun_cases Realm.putMapper with
  | case1 | case3 => exact h
  | case2 s hs => exact hI _ s _ hs (fun _ hne => AList.lookup_insert_ne hne) h

theorem deleteMapper_stable (h : I realm) : I (realm.deleteMapper id name).2 := by
  fun_cases Realm.deleteMapper with
  | case1 | case3 => exact h
  | case2 s hs => exact hI _ s _ hs (fun _ hne => AList.lookup_erase_ne hne) h

theorem putAudienceMapper_keeps : Keeps (fun w => I w.2) (putAudienceMapper net id name mapper) :=
  expectSuccess_satisfies (send_keeps net fun _ h => putMapper_stable hI mapper h)
    (fun _ h => h) _

theorem deleteMapper_keeps : Keeps (fun w => I w.2) (deleteMapper net id name) :=
  expectSuccess_satisfies (send_keeps net fun _ h => deleteMapper_stable hI h) (fun _ h => h) _

theorem createAudienceMapperBestEffort_keeps :
    Keeps (fun w => I w.2) (createAudienceMapperBestEffort net id name audience) := by
  apply Keeps.bind (send_keeps net fun _ h => addMapper_stable hI _ h)
  intro answer
  cases answer with
  | success => exact .pure _
  | notFound => exact .throw _
  | conflict =>
    apply Keeps.bind listAudienceMappers_keeps.attempt
    intro listed
    cases listed with
    | error err => exact .pure _
    | ok mappers =>
      dsimp only
      split
      · exact .pure _
      · split
        · exact .pure _
        · split
          · exact .pure _
          · exact putAudienceMapper_keeps hI _

theorem replaceStaleMapper_keeps (stale : Mapper) :
    Keeps (fun w => I w.2) (replaceStaleMapper net id name audience stale) := by
  apply Keeps.bind (deleteMapper_keeps hI).attempt
  intro deleted
  cases deleted with
  | error err => exact .throw _
  | ok => exact createAudienceMapperBestEffort_keeps hI

theorem updateAudienceMapperIfNeeded_keeps :
    Keeps (fun w => I w.2) (updateAudienceMapperIfNeeded net id name audience) := by
  apply Keeps.bind listAudienceMappers_keeps
  intro mappers
  split
  · exact .pure _
  · split
    · exact replaceStaleMapper_keeps hI _
    · split
      · exact .pure _
      · exact putAudienceMapper_keeps hI _

theorem ensureAudienceMapper_keeps :
    Keeps (fun w => I w.2) (ensureAudienceMapper net id name audience) := by
  apply Keeps.bind (send_keeps net fun _ h => addMapper_stable hI _ h)
  intro answer
  cases answer with
  | success => exact .pure _
  | notFound => exact .throw _
  | conflict => exact updateAudienceMapperIfNeeded_keeps hI

theorem verifyAudienceMapper_keeps :
    Keeps (fun w => I w.2) (verifyAudienceMapper net id name audience) := by
  apply Keeps.bind listAudienceMappers_keeps
  intro mappers
  split
  · exact createAudienceMapperBestEffort_keeps hI
  · split
    · exact replaceStaleMapper_keeps hI _
    · split
      · exact .pure _
      · exact putAudienceMapper_keeps hI _

end Keeps

variable {N : Type} {I : Realm → Prop}

theorem attachScope_keeps (net : Network N) (id : Nat) (p : AudienceParams)
    (hI : ∀ realm realm' : Realm, realm'.scopes = realm.scopes → I realm → I realm') :
    Keeps (fun w => I w.2) (attachScope net id p) := by
  have hclient : ∀ client, Keeps (fun w => I w.2) (attachClient net id client) := by
    intro client
    apply Keeps.bind (Keeps.attempt (send_keeps net fun realm h =>
      hI _ _ (putClientDefaultScope_scopes realm client id) h))
    intro _
    exact .pure _
  have hplatform : ∀ plat, Keeps (fun w => I w.2) (attachPlatformClient net id plat) := by
    intro plat
    unfold attachPlatformClient
    split
    · exact .pure _
    · apply Keeps.bind (Keeps.attempt (send_keeps net fun _ h => h))
      intro found
      split
      · exact hclient _
      · exact .pure _
  have hplatforms : ∀ plats, Keeps (fun w => I w.2) (attachPlatformClients net id plats) := by
    intro plats
    induction plats with
    | nil => exact .pure _
    | cons plat rest ih => exact .bind (hplatform plat) fun _ => ih
  apply Keeps.bind (Keeps.attempt (send_keeps net fun realm h =>
    hI _ _ (putDefaultDefaultScope_scopes realm id) h))
  intro _
  refine .bind ?_ fun _ => hplatforms _
  cases p.agentClientUUID with
  | none => exact .pure _
  | some client => exact hclient client

/-! The scope of a name -/

section Scopes

variable {N : Type} (net : Network N) {realm : Realm} {id : Nat} {name name' audience : String}

theorem find_listScopes (realm : Realm) (name : String) :
    match (realm.listScopes.find? fun e => e.2 = name).map Prod.fst with
    | some id => Named realm id name
    | none => ∀ id, ¬ Named realm id name := by
  cases hfind : realm.listScopes.find? fun e => e.2 = name with
  | none =>
    rintro id ⟨s, hs, hname⟩
    have hmem : (id, s.name) ∈ realm.listScopes :=
      List.mem_map.mpr ⟨⟨id, s⟩, AList.mem_lookup_iff.mp hs, rfl⟩
    have hne := List.find?_eq_none.mp hfind _ hmem
    simp [hname] at hne
  | some e =>
    obtain ⟨⟨id, s⟩, hmem, rfl⟩ := List.mem_map.mp (List.mem_of_find?_eq_some hfind)
    have hname : s.name = name := by simpa using List.find?_some hfind
    exact ⟨s, AList.mem_lookup_iff.mpr hmem, hname⟩

theorem createScope_named {realm' : Realm} (h : realm.createScope name = (some id, realm')) :
    Named realm' id name := by
  unfold Realm.createScope at h
  split at h
  · cases h
  · cases h
    exact ⟨_, AList.lookup_insert _, rfl⟩

theorem Carries.createScope (h : Carries realm name' audience) (name : String) :
    Carries (realm.createScope name).2 name' audience := by
  unfold Realm.createScope
  split
  · exact h
  · obtain ⟨id, s, m, hs, hm⟩ := h
    have hne : id ≠ realm.nextId := Nat.ne_of_lt (realm.fresh id s hs)
    exact ⟨id, s, m, (AList.lookup_insert_ne hne).trans hs, hm⟩

theorem findClientScopeIDByName_satisfies (I : Realm → Prop) :
    Satisfies (fun w => I w.2) (findClientScopeIDByName net name)
      (fun found w => I w.2 ∧
        match found with
        | some id => Named w.2 id name
        | none => ∀ id, ¬ Named w.2 id name) (fun w => I w.2) := by
  have hlist : Satisfies (fun w => I w.2) (send net fun realm => (realm.listScopes, realm))
      (fun list w => I w.2 ∧ list = w.2.listScopes) (fun w => I w.2) :=
    send_satisfies net fun _ _ realm h => ⟨⟨h, rfl⟩, h, h⟩
  apply Satisfies.bind hlist
  intro list
  apply Satisfies.pure
  rintro w ⟨hI, rfl⟩
  exact ⟨hI, find_listScopes w.2 name⟩

theorem getOrCreate_satisfies (hcreate : ∀ realm, I realm → I (realm.createScope name).2)
    (hstable : ∀ id, StableFor id name fun realm => I realm ∧ Named realm id name) :
    Satisfies (fun w => I w.2) (getOrCreateAudienceClientScope net name audience)
      (fun id w => I w.2 ∧ Named w.2 id name) (fun w => I w.2) := by
  apply Satisfies.bind (findClientScopeIDByName_satisfies net I)
  intro found
  cases found with
  | some id => exact .pure fun _ h => h
  | none =>
    have hcreated : Satisfies (fun w => I w.2) (createClientScope net name)
        (fun created w => I w.2 ∧ ∀ id, created = some id → Named w.2 id name)
        (fun w => I w.2) := by
      have hpost : Satisfies (fun w => I w.2) (send net fun realm => realm.createScope name)
          (fun created w => I w.2 ∧ ∀ id, created = some id → Named w.2 id name)
          (fun w => I w.2) := by
        apply send_satisfies net
        intro _ _ realm hI
        refine ⟨⟨hcreate realm hI, ?_⟩, hcreate realm hI, hI⟩
        intro id hid
        exact createScope_named (Prod.ext hid rfl)
      apply Satisfies.bind hpost
      intro created
      cases created with
      | some id => exact .pure fun _ h => h
      | none =>
        refine (findClientScopeIDByName_satisfies net I).weaken (fun _ h => h.1) ?_
          (fun _ h => h)
        rintro found w ⟨hI, hfound⟩
        refine ⟨hI, ?_⟩
        rintro id rfl
        exact hfound
    refine .bind (hcreated.weaken (fun _ h => h.1) (fun _ _ h => h) (fun _ h => h)) ?_
    intro created
    cases created with
    | none => exact .throw fun _ h => h.1
    | some id =>
      have hkeeps : Keeps (fun w => I w.2 ∧ Named w.2 id name)
          (ensureAudienceMapper net id name audience) :=
        ensureAudienceMapper_keeps (hstable id)
      refine .bind (hkeeps.attempt.weaken ?_ (fun _ _ h => h) (fun _ h => h.1)) ?_
      · exact fun w h => ⟨h.1, h.2 id rfl⟩
      · intro _
        exact .pure fun _ h => h

end Scopes

/-! The mapper of a scope -/

section Mappers

variable {N : Type} (net : Network N) {realm : Realm} {id : Nat} {name audience : String}

def Holds (realm : Realm) (id : Nat) (name : String) (mapper : Option Mapper) : Prop :=
  ∃ s, realm.scopes.lookup id = some s ∧ s.name = name ∧ s.mappers.lookup name = mapper

theorem Carries.named (h : Carries realm name audience) : ∃ id, Named realm id name := by
  obtain ⟨id, s, m, hs, hname, -⟩ := h
  exact ⟨id, s, hs, hname⟩

theorem Carries.holds (h : Carries realm name audience) (hid : Named realm id name) :
    ∃ m, Holds realm id name (some m) ∧ m.For audience := by
  obtain ⟨id', s', m, hs', hname', hm, hfor⟩ := h
  obtain ⟨s, hs, hname⟩ := hid
  obtain rfl : id = id' := realm.names id s id' s' hs hs' (hname.trans hname'.symm)
  exact ⟨m, ⟨s', hs', hname', hm⟩, hfor⟩

theorem addMapper_of_missing (h : Holds realm id name none) :
    (realm.addMapper id name (audienceMapper audience)).1 = .success ∧
      Carries (realm.addMapper id name (audienceMapper audience)).2 name audience := by
  obtain ⟨s, hs, hname, hm⟩ := h
  simp only [Realm.addMapper, hs, hm, Option.isSome_none, Bool.false_eq_true, if_false, true_and]
  exact carries_setMappers ⟨s, hs, hname⟩ (AList.lookup_insert _) (audienceMapper_for audience)

variable {m : Mapper} {mapper : Mapper}

theorem putMapper_of_holds (h : Holds realm id name (some m)) (hfor : mapper.For audience) :
    Carries (realm.putMapper id name mapper).2 name audience := by
  obtain ⟨s, hs, hname, hm⟩ := h
  simp only [Realm.putMapper, hs, hm, Option.isSome_some, if_true]
  exact carries_setMappers ⟨s, hs, hname⟩ (AList.lookup_insert _) hfor

theorem deleteMapper_of_holds (h : Holds realm id name (some m)) :
    Holds (realm.deleteMapper id name).2 id name none := by
  obtain ⟨s, hs, hname, hm⟩ := h
  simp only [Realm.deleteMapper, hs, hm, Option.isSome_some, if_true]
  exact ⟨_, realm.lookup_setMappers hs _, hname, AList.lookup_erase name s.mappers⟩

theorem listAudienceMappers_satisfies (id : Nat) (name : String) (I : Realm → Prop) :
    Satisfies (fun w => I w.2 ∧ Named w.2 id name) (listAudienceMappers net id)
      (fun mappers w => I w.2 ∧ Holds w.2 id name (mappers.lookup name)) (fun w => I w.2) := by
  have hlist : Satisfies (fun w => I w.2 ∧ Named w.2 id name)
      (send net fun realm => (realm.listMappers id, realm))
      (fun answer w => I w.2 ∧ ∃ mappers, answer = some mappers ∧
        Holds w.2 id name (mappers.lookup name)) (fun w => I w.2) := by
    apply send_satisfies net
    rintro _ _ realm ⟨hI, s, hs, hname⟩
    refine ⟨⟨hI, s.mappers, ?_, s, hs, hname, rfl⟩, hI, hI⟩
    simp [Realm.listMappers, hs]
  apply Satisfies.bind hlist
  intro answer
  cases answer with
  | none => exact .throw fun _ h => h.1
  | some mappers =>
    apply Satisfies.pure
    rintro w ⟨hI, mappers', heq, hholds⟩
    obtain rfl := Option.some.inj heq
    exact ⟨hI, hholds⟩

theorem createAudienceMapperBestEffort_satisfies :
    Satisfies (fun w => Holds w.2 id name none)
      (createAudienceMapperBestEffort net id name audience)
      (fun _ w => Carries w.2 name audience) (fun _ => True) := by
  have hpost : Satisfies (fun w => Holds w.2 id name none)
      (send net fun realm => realm.addMapper id name (audienceMapper audience))
      (fun answer w => answer = .success ∧ Carries w.2 name audience) (fun _ => True) := by
    apply send_satisfies net
    intro _ _ realm h
    exact ⟨addMapper_of_missing h, trivial, trivial⟩
  apply Satisfies.bind hpost
  intro answer
  -- names are unique, so where none was listed there is no conflict
  cases answer with
  | success => exact .pure fun _ h => h.2
  | notFound => exact .throw fun _ _ => trivial
  | conflict => exact Satisfies.of_fact (fun _ h => h.1) nofun

theorem putAudienceMapper_satisfies (hfor : mapper.For audience) :
    Satisfies (fun w => Holds w.2 id name (some m)) (putAudienceMapper net id name mapper)
      (fun _ w => Carries w.2 name audience) (fun _ => True) := by
  refine expectSuccess_satisfies ?_ (fun _ _ => trivial) _
  apply send_satisfies net
  intro _ _ realm h
  exact ⟨putMapper_of_holds h hfor, trivial, trivial⟩

theorem replaceStaleMapper_satisfies :
    Satisfies (fun w => Holds w.2 id name (some m)) (replaceStaleMapper net id name audience m)
      (fun _ w => Carries w.2 name audience) (fun _ => True) := by
  have hdelete : Satisfies (fun w => Holds w.2 id name (some m)) (deleteMapper net id name)
      (fun _ w => Holds w.2 id name none) (fun _ => True) := by
    refine expectSuccess_satisfies ?_ (fun _ _ => trivial) _
    apply send_satisfies net
    intro _ _ realm h
    exact ⟨deleteMapper_of_holds h, trivial, trivial⟩
  apply Satisfies.bind hdelete.attempt
  intro deleted
  cases deleted with
  | error err => exact .throw fun _ _ => trivial
  | ok => exact createAudienceMapperBestEffort_satisfies net

theorem verifyAudienceMapper_satisfies :
    Satisfies (fun w => Named w.2 id name) (verifyAudienceMapper net id name audience)
      (fun _ w => Carries w.2 name audience) (fun _ => True) := by
  have hlist := listAudienceMappers_satisfies net id name (fun _ => True)
  refine .bind (hlist.weaken (fun _ h => ⟨trivial, h⟩) (fun _ _ h => h.2)
    (fun _ h => h)) ?_
  intro mappers
  split
  next hm =>
    rw [hm]
    exact createAudienceMapperBestEffort_satisfies net
  next m hm =>
    rw [hm]
    split
    · exact replaceStaleMapper_satisfies net
    next hkind =>
      split
      next haudience =>
        apply Satisfies.pure
        rintro w ⟨s, hs, hname, hlookup⟩
        exact ⟨id, s, m, hs, hname, hlookup, not_not.mp hkind, haudience⟩
      · exact putAudienceMapper_satisfies net (withAudience_for (not_not.mp hkind) audience)

end Mappers

/-! `EnsureAudienceScope` -/

section Ensure

variable {N : Type} (net : Network N) (p : AudienceParams) {name audience : String}

theorem ensureAudienceScope_satisfies (hon : p.audienceScopeEnabled = true) :
    Satisfies (fun _ => True) (ensureAudienceScope net p)
      (fun _ w => Carries w.2 (audienceScopeName p.clientName) p.audienceClientID)
      (fun _ => True) := by
  unfold ensureAudienceScope
  rw [if_neg (by simp [hon])]
  have hstable : ∀ id, StableFor id (audienceScopeName p.clientName) fun realm => True ∧
      Named realm id (audienceScopeName p.clientName) := by
    rintro id realm - mappers - - ⟨-, hid⟩
    exact ⟨trivial, hid.setMappers id mappers⟩
  apply Satisfies.bind (getOrCreate_satisfies net (fun _ _ => trivial) hstable)
  intro id
  refine .bind ((verifyAudienceMapper_satisfies net).attempt.weaken (fun _ h => h.2)
    (fun _ _ h => h) (fun _ h => h)) ?_
  intro verified
  cases verified with
  | error err => exact .throw fun _ _ => trivial
  | ok =>
    exact (attachScope_keeps net id p (carries_of_scopes _ _)).weaken (fun _ h => h)
      (fun _ _ h => h) (fun _ _ => trivial)

theorem ensureAudienceScope_keeps
    (hscopes : ∀ realm realm' : Realm, realm'.scopes = realm.scopes → I realm → I realm')
    (hcreate : ∀ realm, I realm → I (realm.createScope (audienceScopeName p.clientName)).2)
    (hstable : ∀ id, StableFor id (audienceScopeName p.clientName) fun realm => I realm ∧
      Named realm id (audienceScopeName p.clientName))
    : Keeps (fun w => I w.2) (ensureAudienceScope net p) := by
  unfold ensureAudienceScope
  split
  · exact .pure _
  · apply Satisfies.bind (getOrCreate_satisfies net hcreate hstable)
    intro id
    have hverify : Keeps (fun w => I w.2 ∧ Named w.2 id (audienceScopeName p.clientName))
        (verifyAudienceMapper net id (audienceScopeName p.clientName) p.audienceClientID) :=
      verifyAudienceMapper_keeps (hstable id)
    refine .bind (hverify.attempt.weaken (fun _ h => h) (fun _ _ h => h.1)
      (fun _ h => h.1)) ?_
    intro verified
    cases verified with
    | error err => exact Keeps.throw _
    | ok => exact attachScope_keeps net id p hscopes

theorem ensureAudienceScope_keeps_other (hne : name ≠ audienceScopeName p.clientName) :
    Keeps (fun w => Carries w.2 name audience) (ensureAudienceScope net p) := by
  apply ensureAudienceScope_keeps net p (carries_of_scopes _ _) (fun _ h => h.createScope _)
  rintro id realm - mappers - - ⟨hcarries, hid⟩
  exact ⟨hcarries.setMappers_of_ne hid hne mappers, hid.setMappers id mappers⟩

/-! A call that finds everything in place -/

/-- Looks the scope up, lists its mappers, and attaches it. -/
def reattachAudienceScope : Admin N Unit := do
  match ← findClientScopeIDByName net (audienceScopeName p.clientName) with
  | none => throw (.emptyScopeID (audienceScopeName p.clientName))
  | some scopeID =>
    match ← (listAudienceMappers net scopeID).attempt with
    | .error err => throw (.verifyMapper (audienceScopeName p.clientName) err)
    | .ok _ => attachScope net scopeID p

theorem reattachAudienceScope_keeps
    (hscopes : ∀ realm realm' : Realm, realm'.scopes = realm.scopes → I realm → I realm') :
    Keeps (fun w => I w.2) (reattachAudienceScope net p) := by
  apply Satisfies.bind ((findClientScopeIDByName_satisfies net I).weaken (fun _ h => h)
    (fun _ _ h => h.1) (fun _ h => h))
  intro found
  cases found with
  | none => exact Keeps.throw _
  | some id =>
    apply Keeps.bind listAudienceMappers_keeps.attempt
    intro listed
    cases listed with
    | error err => exact .throw _
    | ok => exact attachScope_keeps net id p hscopes

theorem verifyAudienceMapper_of_carries {id : Nat} {w : N × Realm}
    (h : Carries w.2 name audience) (hid : Named w.2 id name) :
    (verifyAudienceMapper net id name audience).runFrom w =
      (listAudienceMappers net id >>= fun _ => pure ()).runFrom w := by
  have hlist := listAudienceMappers_satisfies net id name fun realm =>
    Carries realm name audience ∧ Named realm id name
  refine hlist.runFrom_bind_congr ?_ ⟨⟨h, hid⟩, hid⟩
  rintro mappers w ⟨⟨hcarries, hid⟩, s, hs, hname, hlookup⟩
  obtain ⟨m, ⟨s', hs', -, hm⟩, hkind, haudience⟩ := hcarries.holds hid
  obtain rfl : s = s' := Option.some.inj (hs.symm.trans hs')
  simp only [hlookup.symm.trans hm, hkind, haudience, ne_eq, not_true_eq_false, if_false, if_true]

theorem ensureAudienceScope_of_carries (hon : p.audienceScopeEnabled = true) {w : N × Realm}
    (h : Carries w.2 (audienceScopeName p.clientName) p.audienceClientID) :
    (ensureAudienceScope net p).runFrom w = (reattachAudienceScope net p).runFrom w := by
  unfold ensureAudienceScope getOrCreateAudienceClientScope
  rw [if_neg (by simp [hon])]
  dsimp only
  rw [bind_assoc]
  refine (findClientScopeIDByName_satisfies net fun realm => Carries realm _ _).runFrom_bind_congr
    ?_ h
  rintro (_ | id) w ⟨hcarries, hfound⟩
  · obtain ⟨id, hid⟩ := hcarries.named
    exact absurd hid (hfound id)
  · rw [pure_bind, runFrom_bind, runFrom_bind, runFrom_attempt, runFrom_attempt,
      verifyAudienceMapper_of_carries net hcarries hfound, runFrom_bind]
    rcases (listAudienceMappers net id).runFrom w with ⟨_ | mappers, w'⟩ <;> rfl

theorem ensureAudienceScope_keeps_own :
    Keeps (fun w => Carries w.2 (audienceScopeName p.clientName) p.audienceClientID)
      (ensureAudienceScope net p) := by
  cases hon : p.audienceScopeEnabled with
  | false =>
    rw [ensureAudienceScope, if_pos hon]
    exact .pure _
  | true =>
    constructor
    intro w h
    rw [ensureAudienceScope_of_carries net p hon h]
    exact (reattachAudienceScope_keeps net p (carries_of_scopes _ _)).run w h

/-! The other mappers -/

/-- The mapper of a name that the server lists for a scope. -/
def Realm.mapper (realm : Realm) (id : Nat) (name : String) : Option Mapper :=
  (realm.listMappers id).bind fun mappers => mappers.lookup name

theorem mapper_setMappers_of_ne {realm : Realm} {id : Nat} {s : Scope} {mappers : Mappers}
    (hs : realm.scopes.lookup id = some s) {other : String}
    (h : mappers.lookup other = s.mappers.lookup other) (id' : Nat) :
    (realm.setMappers id mappers).mapper id' other = realm.mapper id' other := by
  unfold Realm.mapper Realm.listMappers
  by_cases heq : id' = id
  · subst heq
    rw [realm.lookup_setMappers hs, hs]
    exact h
  · rw [realm.lookup_setMappers_ne heq]

theorem mapper_createScope (realm : Realm) (name : String) (id : Nat) (other : String) :
    (realm.createScope name).2.mapper id other = realm.mapper id other := by
  unfold Realm.createScope
  split
  · rfl
  · unfold Realm.mapper Realm.listMappers
    by_cases heq : id = realm.nextId
    · subst heq
      cases hold : realm.scopes.lookup realm.nextId with
      | none => simp
      | some s => exact absurd (realm.fresh _ s hold) (Nat.lt_irrefl _)
    · rw [AList.lookup_insert_ne heq]

theorem ensureAudienceScope_keeps_mapper (w : N × Realm) (id : Nat) {other : String}
    (hne : other ≠ audienceScopeName p.clientName) :
    ((ensureAudienceScope net p).runFrom w).2.2.mapper id other = w.2.mapper id other := by
  have hkeeps : Keeps (fun w' : N × Realm => w'.2.mapper id other = w.2.mapper id other)
      (ensureAudienceScope net p) := by
    apply ensureAudienceScope_keeps net p (I := fun realm => realm.mapper id other = _)
    · intro realm realm' hscopes h
      rw [← h]
      simp only [Realm.mapper, Realm.listMappers, hscopes]
    · exact fun realm h => (mapper_createScope realm _ id other).trans h
    · rintro id' realm s mappers hs hothers ⟨h, hid⟩
      exact ⟨(mapper_setMappers_of_ne hs (hothers other hne) id).trans h,
        hid.setMappers id' mappers⟩
  exact hkeeps.runFrom rfl

/-- A call that returns no error has left the scope with the mapper of the audience and no other
mapper changed, and further calls only attach the scope. -/
theorem ensureAudienceScope_converges (hon : p.audienceScopeEnabled = true) {w w' : N × Realm}
    (hrun : (ensureAudienceScope net p).runFrom w = (.ok (), w')) :
    Carries w'.2 (audienceScopeName p.clientName) p.audienceClientID ∧
      (∀ id other, other ≠ audienceScopeName p.clientName →
        w'.2.mapper id other = w.2.mapper id other) ∧
      ∀ (again : Network N) (n : N),
        (ensureAudienceScope again p).runFrom (n, w'.2) =
          (reattachAudienceScope again p).runFrom (n, w'.2) ∧
        ((ensureAudienceScope again p).runFrom (n, w'.2)).2.2.scopes = w'.2.scopes := by
  have hcarries := (ensureAudienceScope_satisfies net p hon).of_ok trivial hrun
  refine ⟨hcarries, ?_, ?_⟩
  · intro id other hne
    have hkept := ensureAudienceScope_keeps_mapper net p w id hne
    rwa [hrun] at hkept
  · intro again n
    have hsame := ensureAudienceScope_of_carries again p hon (w := (n, w'.2)) hcarries
    refine ⟨hsame, ?_⟩
    rw [hsame]
    exact (reattachAudienceScope_keeps again p (I := fun realm => realm.scopes = w'.2.scopes)
      fun _ _ heq h => heq.trans h).runFrom rfl

def agent : AudienceParams := ⟨"team/agent", "agent", [], true, none⟩

/-- The scope of the agent, with a mapper of another kind under its name. -/
def staleRealm : Realm :=
  ((emptyRealm.createScope "agent-team-agent-aud").2.addMapper 0 "agent-team-agent-aud"
    ⟨"oidc-hardcoded-claim-mapper", none⟩).2

/-- A realm whose mapper has another audience. -/
theorem staleRealm_converges :
    Carries ((ensureAudienceScope reliable agent).runFrom ((), staleRealm)).2.2
      (audienceScopeName "team/agent") "agent" :=
  (ensureAudienceScope_converges reliable agent rfl (Prod.ext (by rfl) rfl)).1

end Ensure

end Kagenti.Operator.Keycloak
