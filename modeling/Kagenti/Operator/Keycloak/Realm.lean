import Mathlib.Data.List.AList
import Kagenti.Lib.Fallible

/-!
A Keycloak realm as the operator meets it: client scopes with their protocol mappers, clients, and
the attachment of scopes. A request can fail before it reaches the server, or after the server has
done it.
-/

namespace Kagenti.Operator.Keycloak

open Lib

structure Mapper where
  protocolMapper : String
  config : Option (AList fun _ : String => String)

abbrev Mappers := AList fun _ : String => Mapper

structure Scope where
  name : String
  mappers : Mappers

/-- The scopes are kept by their ids. -/
structure Realm where
  scopes : AList fun _ : Nat => Scope
  nextId : Nat
  -- the internal ids and the client ids of the clients
  clients : List (Nat × String)
  defaultDefaultScopes : List Nat
  clientDefaultScopes : List (Nat × Nat)
  fresh : ∀ id s, scopes.lookup id = some s → id < nextId
  names : ∀ id s id' s', scopes.lookup id = some s → scopes.lookup id' = some s' →
    s.name = s'.name → id = id'

namespace Realm

variable (realm : Realm)

def setMappers (id : Nat) (mappers : Mappers) : Realm :=
  match hs : realm.scopes.lookup id with
  | none => realm
  | some s =>
    have hlookup : ∀ id' t, (realm.scopes.insert id { s with mappers := mappers }).lookup id' =
        some t → ∃ t', realm.scopes.lookup id' = some t' ∧ t'.name = t.name := by
      intro id' t ht
      by_cases heq : id' = id
      · subst heq
        rw [AList.lookup_insert] at ht
        obtain rfl := Option.some.inj ht
        exact ⟨s, hs, rfl⟩
      · rw [AList.lookup_insert_ne heq] at ht
        exact ⟨t, ht, rfl⟩
    { realm with
      scopes := realm.scopes.insert id { s with mappers := mappers }
      fresh := by
        intro id' t ht
        obtain ⟨t', ht', -⟩ := hlookup id' t ht
        exact realm.fresh id' t' ht'
      names := by
        intro id₁ t₁ id₂ t₂ h₁ h₂ hname
        obtain ⟨t₁', h₁', hn₁⟩ := hlookup id₁ t₁ h₁
        obtain ⟨t₂', h₂', hn₂⟩ := hlookup id₂ t₂ h₂
        exact realm.names id₁ t₁' id₂ t₂' h₁' h₂' (by rw [hn₁, hn₂, hname]) }

variable {id : Nat}

theorem lookup_setMappers {s : Scope} (hs : realm.scopes.lookup id = some s) (mappers : Mappers) :
    (realm.setMappers id mappers).scopes.lookup id = some { s with mappers := mappers } := by
  unfold setMappers
  split
  next hnone =>
    rw [hs] at hnone
    cases hnone
  next t ht =>
    obtain rfl : s = t := Option.some.inj (hs.symm.trans ht)
    exact AList.lookup_insert _

theorem lookup_setMappers_ne {id' : Nat} (h : id' ≠ id) (mappers : Mappers) :
    (realm.setMappers id mappers).scopes.lookup id' = realm.scopes.lookup id' := by
  unfold setMappers
  split
  · rfl
  · exact AList.lookup_insert_ne h

/-! Requests -/

/-- `GET client-scopes`. -/
def listScopes : List (Nat × String) := realm.scopes.entries.map fun e => (e.1, e.2.name)

def hasScope (name : String) : Bool := realm.scopes.entries.any fun e => e.2.name = name

theorem hasScope_iff (name : String) :
    realm.hasScope name = true ↔ ∃ id s, realm.scopes.lookup id = some s ∧ s.name = name := by
  simp only [hasScope, List.any_eq_true, decide_eq_true_eq]
  constructor
  · rintro ⟨⟨id, s⟩, hmem, hname⟩
    exact ⟨id, s, AList.mem_lookup_iff.mpr hmem, hname⟩
  · rintro ⟨id, s, hs, hname⟩
    exact ⟨⟨id, s⟩, AList.mem_lookup_iff.mp hs, hname⟩

/-- `POST client-scopes`: the id in `Location`, or nothing for a conflict. -/
def createScope (name : String) : Option Nat × Realm :=
  if h : realm.hasScope name then (none, realm)
  else
    have hlookup : ∀ id t, (realm.scopes.insert realm.nextId ⟨name, ∅⟩).lookup id = some t →
        id = realm.nextId ∧ t = ⟨name, ∅⟩ ∨ realm.scopes.lookup id = some t ∧ t.name ≠ name := by
      intro id t ht
      by_cases heq : id = realm.nextId
      · subst heq
        rw [AList.lookup_insert] at ht
        exact .inl ⟨rfl, (Option.some.inj ht).symm⟩
      · rw [AList.lookup_insert_ne heq] at ht
        refine .inr ⟨ht, fun hname => h ?_⟩
        exact (realm.hasScope_iff name).mpr ⟨id, t, ht, hname⟩
    (some realm.nextId,
      { realm with
        scopes := realm.scopes.insert realm.nextId ⟨name, ∅⟩
        nextId := realm.nextId + 1
        fresh := by
          intro id t ht
          rcases hlookup id t ht with ⟨rfl, -⟩ | ⟨hold, -⟩
          · exact Nat.lt_succ_self _
          · exact Nat.lt_succ_of_lt (realm.fresh id t hold)
        names := by
          intro id₁ t₁ id₂ t₂ h₁ h₂ hname
          rcases hlookup id₁ t₁ h₁ with ⟨rfl, rfl⟩ | ⟨h₁, hne₁⟩
          · rcases hlookup id₂ t₂ h₂ with ⟨rfl, rfl⟩ | ⟨-, hne₂⟩
            · rfl
            · exact absurd hname.symm hne₂
          · rcases hlookup id₂ t₂ h₂ with ⟨rfl, rfl⟩ | ⟨h₂, -⟩
            · exact absurd hname hne₁
            · exact realm.names id₁ t₁ id₂ t₂ h₁ h₂ hname })

/-- `GET protocol-mappers/models` of a scope, or nothing if there is no such scope. -/
def listMappers (id : Nat) : Option Mappers := (realm.scopes.lookup id).map Scope.mappers

/-- The answers to a request that changes something. -/
inductive Status where
  | success
  | notFound
  | conflict
  deriving DecidableEq

/-- `POST protocol-mappers/models`. -/
def addMapper (id : Nat) (name : String) (mapper : Mapper) : Status × Realm :=
  match realm.scopes.lookup id with
  | none => (.notFound, realm)
  | some s =>
    if (s.mappers.lookup name).isSome then (.conflict, realm)
    else (.success, realm.setMappers id (s.mappers.insert name mapper))

/-- `PUT protocol-mappers/models/id`. -/
def putMapper (id : Nat) (name : String) (mapper : Mapper) : Status × Realm :=
  match realm.scopes.lookup id with
  | none => (.notFound, realm)
  | some s =>
    if (s.mappers.lookup name).isSome then
      (.success, realm.setMappers id (s.mappers.insert name mapper))
    else (.notFound, realm)

/-- `DELETE protocol-mappers/models/id`. -/
def deleteMapper (id : Nat) (name : String) : Status × Realm :=
  match realm.scopes.lookup id with
  | none => (.notFound, realm)
  | some s =>
    if (s.mappers.lookup name).isSome then
      (.success, realm.setMappers id (s.mappers.erase name))
    else (.notFound, realm)

/-- `PUT default-default-client-scopes/id`. -/
def putDefaultDefaultScope (id : Nat) : Realm :=
  if id ∈ realm.defaultDefaultScopes then realm
  else { realm with defaultDefaultScopes := id :: realm.defaultDefaultScopes }

/-- `PUT clients/client/default-client-scopes/id`. -/
def putClientDefaultScope (client id : Nat) : Realm :=
  if (client, id) ∈ realm.clientDefaultScopes then realm
  else { realm with clientDefaultScopes := (client, id) :: realm.clientDefaultScopes }

end Realm

/-! The way to the server -/

inductive Fate where
  | answered
  | dropped (err : String)
  | lost (err : String)

abbrev Network (N : Type) := N → Fate × N

inductive AdminError where
  | transport (err : String)
  | status (request : String) (answer : Realm.Status)
  | emptyScopeID (scopeName : String)
  | verifyMapper (scopeName : String) (err : AdminError)
  | deleteStaleMapper (name protocolMapper : String) (err : AdminError)

abbrev Admin (N α : Type) := Fallible AdminError (N × Realm) α

def send {N α : Type} (net : Network N) (serve : Realm → α × Realm) : Admin N α :=
  Fallible.access fun (n, realm) =>
    match net n with
    | (.answered, n) => (.ok (serve realm).1, n, (serve realm).2)
    | (.dropped err, n) => (.error (.transport err), n, realm)
    | (.lost err, n) => (.error (.transport err), n, (serve realm).2)

variable {N α : Type} {serve : Realm → α × Realm}

theorem send_satisfies (net : Network N) {P E : N × Realm → Prop} {Q : α → N × Realm → Prop}
    (hserve : ∀ n n' realm, P (n, realm) →
      Q (serve realm).1 (n', (serve realm).2) ∧ E (n', (serve realm).2) ∧ E (n', realm)) :
    Fallible.Satisfies P (send net serve) Q E := by
  constructor
  rintro ⟨n, realm⟩ hP
  rw [send, Fallible.runFrom_access]
  rcases hnet : net n with ⟨_ | err | err, n'⟩
  · simp only [hnet]
    exact (hserve n n' realm hP).1
  · simp only [hnet]
    exact (hserve n n' realm hP).2.2
  · simp only [hnet]
    exact (hserve n n' realm hP).2.1

theorem send_keeps (net : Network N) {I : Realm → Prop} (h : ∀ realm, I realm → I (serve realm).2) :
    Fallible.Keeps (fun w => I w.2) (send net serve) :=
  send_satisfies net fun _ _ realm hI => ⟨h realm hI, h realm hI, hI⟩

def emptyRealm : Realm where
  scopes := ∅
  nextId := 0
  clients := []
  defaultDefaultScopes := []
  clientDefaultScopes := []
  fresh := by simp
  names := by simp

def reliable : Network Unit := fun _ => (.answered, ())

end Kagenti.Operator.Keycloak
