import Kagenti.Go.Http
import Kagenti.Operator.Keycloak.Realm

/-!
The audience scopes of agents (`internal/keycloak/audience.go`). `EnsureAudienceScope` is a sequence
of requests, each of which may fail.
-/

namespace Kagenti.Operator.Keycloak

open Lib Go

def audienceScopeName (clientName : String) : String :=
  "agent-" ++ String.ofList (clientName.toList.map fun c => if c = '/' then '-' else c) ++ "-aud"

structure AudienceParams where
  clientName : String
  audienceClientID : String
  platformClientIDs : List String
  audienceScopeEnabled : Bool
  agentClientUUID : Option Nat

def oidcAudienceMapper : String := "oidc-audience-mapper"

def audienceKey : String := "included.custom.audience"

namespace Mapper

/-- The audience in the configuration, unless that is `nil`. -/
def audience (m : Mapper) : Option String := m.config.map fun c => (c.lookup audienceKey).getD ""

def withAudience (m : Mapper) (audience : String) : Mapper :=
  { m with config := some ((m.config.getD ∅).insert audienceKey audience) }

end Mapper

def audienceMapper (audience : String) : Mapper where
  protocolMapper := oidcAudienceMapper
  config := some (((((∅ : AList fun _ : String => String).insert "userinfo.token.claim"
    "false").insert "access.token.claim" "true").insert "id.token.claim" "false").insert audienceKey
      audience)

section Requests

variable {N : Type} (net : Network N)

def findClientScopeIDByName (name : String) : Admin N (Option Nat) := do
  let list ← send net fun realm => (realm.listScopes, realm)
  return (list.find? fun e => e.2 = name).map Prod.fst

def createClientScope (name : String) : Admin N (Option Nat) := do
  match ← send net fun realm => realm.createScope name with
  | some id => return some id
  | none => findClientScopeIDByName net name

def listAudienceMappers (scopeID : Nat) : Admin N Mappers := do
  match ← send net fun realm => (realm.listMappers scopeID, realm) with
  | some mappers => return mappers
  | none => throw (.status "list mappers" .notFound)

def putAudienceMapper (scopeID : Nat) (name : String) (mapper : Mapper) : Admin N Unit := do
  match ← send net fun realm => realm.putMapper scopeID name mapper with
  | .success => return ()
  | answer => throw (.status "update audience mapper" answer)

def deleteMapper (scopeID : Nat) (name : String) : Admin N Unit := do
  match ← send net fun realm => realm.deleteMapper scopeID name with
  | .success => return ()
  | answer => throw (.status "delete mapper" answer)

def createAudienceMapperBestEffort (scopeID : Nat) (scopeName audience : String) :
    Admin N Unit := do
  match ← send net fun realm => realm.addMapper scopeID scopeName (audienceMapper audience) with
  | .success => return ()
  | .notFound => throw (.status "create mapper best-effort" .notFound)
  | .conflict =>
    match ← (listAudienceMappers net scopeID).attempt with
    | .error _ => return ()
    | .ok mappers =>
      match mappers.lookup scopeName with
      | none => return ()
      | some m =>
        if m.protocolMapper ≠ oidcAudienceMapper then return ()
        else if m.audience = some audience then return ()
        else putAudienceMapper net scopeID scopeName (m.withAudience audience)

/-- A mapper of the name but of another kind is replaced. -/
def replaceStaleMapper (scopeID : Nat) (scopeName audience : String) (stale : Mapper) :
    Admin N Unit := do
  match ← (deleteMapper net scopeID scopeName).attempt with
  | .error err => throw (.deleteStaleMapper scopeName stale.protocolMapper err)
  | .ok () => createAudienceMapperBestEffort net scopeID scopeName audience

def updateAudienceMapperIfNeeded (scopeID : Nat) (scopeName audience : String) :
    Admin N Unit := do
  let mappers ← listAudienceMappers net scopeID
  match mappers.lookup scopeName with
  | none => return ()
  | some m =>
    if m.protocolMapper ≠ oidcAudienceMapper then
      replaceStaleMapper net scopeID scopeName audience m
    else if m.config.isNone ∨ m.audience = some audience then return ()
    else putAudienceMapper net scopeID scopeName (m.withAudience audience)

def ensureAudienceMapper (scopeID : Nat) (scopeName audience : String) : Admin N Unit := do
  match ← send net fun realm => realm.addMapper scopeID scopeName (audienceMapper audience) with
  | .success => return ()
  | .conflict => updateAudienceMapperIfNeeded net scopeID scopeName audience
  | .notFound => throw (.status "add audience mapper" .notFound)

def verifyAudienceMapper (scopeID : Nat) (scopeName audience : String) : Admin N Unit := do
  let mappers ← listAudienceMappers net scopeID
  match mappers.lookup scopeName with
  | none => createAudienceMapperBestEffort net scopeID scopeName audience
  | some m =>
    if m.protocolMapper ≠ oidcAudienceMapper then
      replaceStaleMapper net scopeID scopeName audience m
    else if m.audience = some audience then return ()
    else putAudienceMapper net scopeID scopeName (m.withAudience audience)

def getOrCreateAudienceClientScope (scopeName audience : String) : Admin N Nat := do
  match ← findClientScopeIDByName net scopeName with
  | some id => return id
  | none =>
    match ← createClientScope net scopeName with
    | none => throw (.emptyScopeID scopeName)
    | some id =>
      -- a failure here is left to the verification
      let _ ← (ensureAudienceMapper net id scopeName audience).attempt
      return id

def attachClient (scopeID client : Nat) : Admin N Unit := do
  let _ ← (send net fun realm => ((), realm.putClientDefaultScope client scopeID)).attempt
  return ()

/-- A platform client that is not found is left out. -/
def attachPlatformClient (scopeID : Nat) (plat : String) : Admin N Unit := do
  if trimSpace plat = "" then return ()
  else
    match ← (send net fun realm =>
      ((realm.clients.find? fun c => c.2 = trimSpace plat).map Prod.fst, realm)).attempt with
    | .ok (some client) => attachClient net scopeID client
    | _ => return ()

def attachPlatformClients (scopeID : Nat) : List String → Admin N Unit
  | [] => return ()
  | plat :: rest => do
      attachPlatformClient net scopeID plat
      attachPlatformClients scopeID rest

def attachScope (scopeID : Nat) (p : AudienceParams) : Admin N Unit := do
  let _ ← (send net fun realm => ((), realm.putDefaultDefaultScope scopeID)).attempt
  p.agentClientUUID.elim (pure ()) (attachClient net scopeID)
  attachPlatformClients net scopeID p.platformClientIDs

def ensureAudienceScope (p : AudienceParams) : Admin N Unit := do
  if p.audienceScopeEnabled = false then return ()
  else
    let scopeName := audienceScopeName p.clientName
    let scopeID ← getOrCreateAudienceClientScope net scopeName p.audienceClientID
    match ← (verifyAudienceMapper net scopeID scopeName p.audienceClientID).attempt with
    | .error err => throw (.verifyMapper scopeName err)
    | .ok () => attachScope net scopeID p

end Requests

end Kagenti.Operator.Keycloak
