import Kagenti.TokenBroker.Broker

/-!
Where the broker takes the OAuth endpoints and scopes of a resource server from
(`internal/oauth/discovery.go`). The request to the `.well-known` document, with all that can go
wrong up to its decoding, is a parameter.
-/

namespace Kagenti.TokenBroker.Discovery

structure ResourceConfig where
  scopes : List String
  authorizationEndpoint : String
  tokenEndpoint : String

structure DiscovererConfig where
  authorizationEndpoint : String
  tokenEndpoint : String
  scopesSupported : List String
  resourceScopes : AList fun _ : String => List String
  resourceConfigs : AList fun _ : String => ResourceConfig

structure Metadata where
  authorizationServers : List String
  scopesSupported : List String

def trimSlash (s : String) : String :=
  if s.toList.getLast? = some '/' then String.ofList s.toList.dropLast else s

variable (config : DiscovererConfig) (fetch : Except String Metadata) (resourceURL : String)

/-- The scopes of the server's own configuration, of the legacy one, or these. -/
def resolveScopes (scopes : List String) : List String :=
  match config.resourceConfigs.lookup resourceURL with
  | some server => if 0 < server.scopes.length then server.scopes else legacy
  | none => legacy
where
  legacy := (config.resourceScopes.lookup resourceURL).getD scopes

def discovered : Except String Endpoints := do
  let metadata ← fetch
  match metadata.authorizationServers with
  | [] => .error "no authorization servers found in discovery response"
  | base :: _ =>
    .ok ⟨trimSlash base ++ "/authorize", trimSlash base ++ "/access_token", metadata.scopesSupported⟩

def globallyConfigured : Bool := config.authorizationEndpoint ≠ "" ∧ config.tokenEndpoint ≠ ""

def overridden (endpoints : Endpoints) : Endpoints :=
  match config.resourceConfigs.lookup resourceURL with
  | some server =>
    { endpoints with
      authEndpoint :=
        if server.authorizationEndpoint ≠ "" then server.authorizationEndpoint
        else endpoints.authEndpoint
      tokenEndpoint :=
        if server.tokenEndpoint ≠ "" then server.tokenEndpoint else endpoints.tokenEndpoint }
  | none => endpoints

def resolve : Except String Endpoints :=
  if globallyConfigured config then
    .ok ⟨config.authorizationEndpoint, config.tokenEndpoint,
      resolveScopes config resourceURL config.scopesSupported⟩
  else
    match discovered fetch with
    | .error err => .error err
    | .ok endpoints =>
      .ok { overridden config resourceURL endpoints with
        scopes := resolveScopes config resourceURL endpoints.scopes }

def discoverEndpoints : Except String Endpoints :=
  match config.resourceConfigs.lookup resourceURL with
  | some server =>
    if server.authorizationEndpoint ≠ "" ∧ server.tokenEndpoint ≠ "" then
      .ok ⟨server.authorizationEndpoint, server.tokenEndpoint, server.scopes⟩
    else resolve config fetch resourceURL
  | none => resolve config fetch resourceURL

/-! The documented order, field by field -/

/-- The global values, or what a discovery gives. -/
def base : Endpoints :=
  if globallyConfigured config then
    ⟨config.authorizationEndpoint, config.tokenEndpoint, config.scopesSupported⟩
  else (discovered fetch).toOption.getD ⟨"", "", []⟩

def documented : Endpoints :=
  { overridden config resourceURL (base config fetch) with
    scopes := resolveScopes config resourceURL (base config fetch).scopes }

/-- Where the branches do not come to all sources: a server with both endpoints gives its scopes
even if it has none, and the global endpoints are taken over a single one of the server. -/
def Skips (server : ResourceConfig) : Prop :=
  if server.authorizationEndpoint ≠ "" ∧ server.tokenEndpoint ≠ "" then
    server.scopes = [] ∧ resolveScopes config resourceURL (base config fetch).scopes ≠ []
  else
    globallyConfigured config ∧
      (server.authorizationEndpoint ∉ ["", config.authorizationEndpoint] ∨
        server.tokenEndpoint ∉ ["", config.tokenEndpoint])

variable {config} {fetch} {resourceURL}

/-- Whatever is configured and discovered, the result is the documented one exactly if no source is
skipped. -/
theorem discoverEndpoints_documented_iff :
    (∀ endpoints, discoverEndpoints config fetch resourceURL = .ok endpoints →
      endpoints = documented config fetch resourceURL) ↔
    ∀ server, config.resourceConfigs.lookup resourceURL = some server →
      ¬Skips config fetch resourceURL server := by
  unfold discoverEndpoints
  cases hserver : config.resourceConfigs.lookup resourceURL with
  | none =>
    simp only [reduceCtorEq, false_implies, implies_true, iff_true, resolve, documented, overridden,
      base, hserver]
    cases discovered fetch <;> grind [Except.toOption]
  | some server =>
    simp only [Option.some.injEq, forall_eq', Skips]
    by_cases both : server.authorizationEndpoint ≠ "" ∧ server.tokenEndpoint ≠ ""
    · simp only [Except.ok.injEq, forall_eq', documented, overridden, hserver, both.1,
        both.2, ne_eq, not_false_iff, if_true, Endpoints.mk.injEq, true_and, and_self]
      cases hscopes : server.scopes <;> grind [resolveScopes]
    · simp only [if_neg both, resolve, documented, overridden, base, hserver]
      cases globallyConfigured config with
      | true =>
        simp only [if_true, Except.ok.injEq, forall_eq', Endpoints.mk.injEq]
        grind
      | false => cases discovered fetch <;> grind [Except.toOption]

/-- A server with its own endpoints and legacy scopes gets no scopes, and with global endpoints a
server's own authorization endpoint is passed over. -/
theorem documented_source_skipped :
    let server : ResourceConfig := ⟨[], "https://a/authorize", "https://a/token"⟩
    let config : DiscovererConfig := ⟨"", "", [], AList.insert "https://r" ["repo"] ∅,
      AList.insert "https://r" server ∅⟩
    let global : DiscovererConfig := ⟨"https://g/authorize", "https://g/token", [], ∅,
      AList.insert "https://r" { server with tokenEndpoint := "" } ∅⟩
    discoverEndpoints config (.error "") "https://r" =
        .ok ⟨"https://a/authorize", "https://a/token", []⟩ ∧
      (documented config (.error "") "https://r").scopes = ["repo"] ∧
      discoverEndpoints global (.error "") "https://r" =
        .ok ⟨"https://g/authorize", "https://g/token", []⟩ ∧
      (documented global (.error "") "https://r").authEndpoint = "https://a/authorize" := by
  refine ⟨rfl, rfl, rfl, rfl⟩

end Kagenti.TokenBroker.Discovery
