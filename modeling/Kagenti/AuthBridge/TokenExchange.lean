import Kagenti.AuthBridge.Pipeline
import Kagenti.Go.Marshal
import Kagenti.Go.Net

/-!
Token exchange on outbound requests: the routes (`routing/router.go`), the token cache
(`plugins/tokenexchange/cache`), `HandleOutbound` (`auth/auth.go`) and the plugin's request
hook. Glob patterns and SHA-256 are parameters; the answers of the token endpoint, the
clock and the order in which Go visits a map are arbitrary.
-/

namespace Kagenti.AuthBridge

open Go

/-! Routes -/

structure Route where
  host : String
  audience : String
  scopes : String
  tokenEndpoint : String
  action : String
  deriving DecidableEq

structure ResolvedRoute where
  matched : Bool
  audience : String
  scopes : String
  tokenEndpoint : String
  passthrough : Bool
  deriving DecidableEq

/-- `glob.Match` of a compiled pattern with `.` as the separator. -/
abbrev Glob := String → String → Bool

structure Router where
  routes : List Route
  defaultAction : String
  deriving DecidableEq

def Router.resolve (r : Router) (glob : Glob) (host : String) : Option ResolvedRoute :=
  let host := ((splitHostPort host).map Prod.fst).getD host
  match r.routes.find? fun route => glob route.host host with
  | some route =>
    some
      { matched := true
        audience := route.audience
        scopes := route.scopes
        tokenEndpoint := route.tokenEndpoint
        passthrough := decide (route.action = "passthrough") }
  | none => if r.defaultAction = "exchange" then some ⟨false, "", "", "", false⟩ else none

/-- The first DNS label of a host without its port. -/
def serviceNameFromHost (host : String) : String :=
  String.ofList ((host.toList.takeWhile (· ≠ ':')).takeWhile (· ≠ '.'))

/-! The token cache -/

abbrev Instant := Int

def secondNs : Int := 1000000000

structure CacheEntry where
  token : String
  expiresAt : Instant
  deriving DecidableEq

abbrev CacheEntries := AList fun _ : String => CacheEntry

structure ExchangeCache where
  entries : CacheEntries
  maxSize : Nat

def hexEncode (b : Bytes) : String :=
  String.ofList (b.flatMap fun x => [hexChar (x.toNat / 16), hexChar (x.toNat % 16)])

abbrev Sha256 := Bytes → Bytes

def cacheKey (sha256 : Sha256) (subjectToken audience : String) : String :=
  hexEncode (sha256 (bytes subjectToken ++ [0] ++ bytes audience))

namespace ExchangeCache

def new : ExchangeCache := ⟨∅, 10000⟩

def deleteLoop (drop : CacheEntries → String → Bool) : List String → CacheEntries → CacheEntries
  | [], m => m
  | key :: keys, m => deleteLoop drop keys (if drop m key then m.erase key else m)

variable (c : ExchangeCache)

def get (now : Instant) (key : String) : Option String :=
  match c.entries.lookup key with
  | none => none
  | some e => if e.expiresAt < now then none else some e.token

def evictExpired (now : Instant) : ExchangeCache :=
  let expired (m : CacheEntries) (key : String) : Bool :=
    (m.lookup key).any fun e => decide (e.expiresAt < now)
  { c with entries := deleteLoop expired c.entries.keys c.entries }

def evictRandom (order : List String) : ExchangeCache :=
  { c with
    entries := deleteLoop (fun m _ => decide (c.maxSize * 3 / 4 < m.entries.length)) order
      c.entries }

def set (now : Instant) (order : List String) (key token : String) (ttl : Int) : ExchangeCache :=
  if ttl ≤ 30 * secondNs then c
  else
    let c :=
      if c.maxSize ≤ c.entries.entries.length then
        let c := c.evictExpired now
        if c.maxSize ≤ c.entries.entries.length then c.evictRandom order else c
      else c
    { c with entries := c.entries.insert key ⟨token, now + (ttl - 30 * secondNs)⟩ }

end ExchangeCache

/-! `HandleOutbound` -/

def extractBearer (authHeader : String) : String :=
  let cs := authHeader.toList
  if 7 < cs.length ∧ (cs.take 7).map Char.toLower = "bearer ".toList then String.ofList (cs.drop 7)
  else ""

structure ExchangeRequest where
  subjectToken : String
  audience : String
  scopes : String
  tokenEndpoint : String
  deriving DecidableEq

structure ExchangeResponse where
  accessToken : String
  expiresIn : Int
  deriving DecidableEq

structure ExchangeClient where
  tokenURL : String
  deriving DecidableEq

def ExchangeClient.endpoint (client : ExchangeClient) (override : String) : String :=
  if override = "" then client.tokenURL else override

inductive NoTokenPolicy where
  | allow
  | clientCredentials
  | deny
  deriving DecidableEq

structure Auth where
  router : Option Router
  audienceFromHost : Bool
  exchanger : Option ExchangeClient
  noTokenPolicy : NoTokenPolicy
  deriving DecidableEq

inductive OutboundAction where
  | allow
  | deny
  | replaceToken
  deriving DecidableEq

/-- The zero value comes first. -/
inductive OutboundDenialReason where
  | credsRequestedNoExchanger
  | credentialsGrantFailure
  | noToken
  | tokenExchangeFailed
  deriving DecidableEq

def OutboundDenialReason.text : OutboundDenialReason → String
  | .credsRequestedNoExchanger => "creds_requested_no_exchanger"
  | .credentialsGrantFailure => "credentials_grant_failure"
  | .noToken => "no_token"
  | .tokenExchangeFailed => "token_exchange_failed"

structure OutboundResult where
  action : OutboundAction
  token : String := ""
  cacheHit : Bool := false
  routeMatched : Bool := false
  targetAudience : String := ""
  requestedScopes : String := ""
  denyStatus : Nat := 0
  denyReason : String := ""
  denyReasonCode : OutboundDenialReason := .credsRequestedNoExchanger
  deriving DecidableEq

structure Outside where
  readAt : Instant
  storedAt : Instant
  exchange : ExchangeRequest → Option ExchangeResponse
  clientCredentials : (audience scopes : String) → Option ExchangeResponse
  order : List String

structure OutboundStep where
  result : OutboundResult
  cache : Option ExchangeCache
  granted : Option (ExchangeRequest × ExchangeResponse) := none

/-- `time.Duration(expiresIn) * time.Second`, in 64 bits. -/
def ttlOf (expiresIn : Int) : Int := Int.bmod (expiresIn * secondNs) (2 ^ 64)

namespace Auth

variable (a : Auth)

def handleNoToken (out : Outside) (audience scopes : String) : OutboundResult :=
  match a.noTokenPolicy with
  | .allow => { action := .allow }
  | .clientCredentials =>
    if a.exchanger.isNone then
      { action := .deny, denyStatus := 503
        denyReason := "exchanger not configured for client credentials"
        denyReasonCode := .credsRequestedNoExchanger }
    else
      match out.clientCredentials audience scopes with
      | none =>
        { action := .deny, denyStatus := 503
          denyReason := "client credentials token acquisition failed"
          denyReasonCode := .credentialsGrantFailure }
      | some resp => { action := .replaceToken, token := resp.accessToken }
  | .deny =>
    { action := .deny, denyStatus := 401, denyReason := "missing Authorization header"
      denyReasonCode := .noToken }

/-- The audience of a route, or the one derived from the host. -/
def audienceFor (route : ResolvedRoute) (host : String) : String :=
  if route.audience = "" ∧ a.audienceFromHost then serviceNameFromHost host else route.audience

/-- The steps of `HandleOutbound` once there is a request to make: the cache, then the
token endpoint. -/
def exchangeCached (sha256 : Sha256) (out : Outside) (req : ExchangeRequest)
    (cache : Option ExchangeCache) : OutboundStep :=
  let key := cacheKey sha256 req.subjectToken req.audience
  match cache.bind fun c => c.get out.readAt key with
  | some token =>
    { result :=
        { action := .replaceToken, token := token, cacheHit := true, routeMatched := true
          targetAudience := req.audience, requestedScopes := req.scopes }
      cache := cache }
  | none =>
    if a.exchanger.isNone then { result := { action := .allow }, cache := cache }
    else
      match out.exchange req with
      | none =>
        { result :=
            { action := .deny, routeMatched := true, targetAudience := req.audience
              requestedScopes := req.scopes, denyStatus := 503
              denyReason := "token exchange failed"
              denyReasonCode := .tokenExchangeFailed }
          cache := cache }
      | some resp =>
        { result :=
            { action := .replaceToken, token := resp.accessToken, routeMatched := true
              targetAudience := req.audience, requestedScopes := req.scopes }
          cache := cache.map fun c =>
            if 0 < resp.expiresIn then
              c.set out.storedAt out.order key resp.accessToken (ttlOf resp.expiresIn)
            else c
          granted := some (req, resp) }

def handleOutbound (glob : Glob) (sha256 : Sha256) (out : Outside) (authHeader host : String)
    (cache : Option ExchangeCache) : OutboundStep :=
  match a.router.bind fun r => r.resolve glob host with
  | none => { result := { action := .allow }, cache := cache }
  | some route =>
    if route.passthrough then { result := { action := .allow }, cache := cache }
    else
      let audience := a.audienceFor route host
      let subjectToken := extractBearer authHeader
      if subjectToken = "" then
        { result := a.handleNoToken out audience route.scopes, cache := cache }
      else
        a.exchangeCached sha256 out ⟨subjectToken, audience, route.scopes, route.tokenEndpoint⟩
          cache

end Auth

/-! The plugin -/

structure ExchangeAccess (W : Type*) where
  outside : W → Outside
  cache : W → Option ExchangeCache
  setCache : W → Option ExchangeCache → W
  realToken : W → String → Option String

structure TokenExchange where
  inner : Option Auth
  resolvePlaceholders : Bool

def isPlaceholder (token : String) : Bool := "abph_".toList.isPrefixOf token.toList

def boolStr (b : Bool) : String := if b then "true" else "false"

namespace TokenExchange

variable {W : Type*} (p : TokenExchange) (glob : Glob) (sha256 : Sha256) (access : ExchangeAccess W)

def authHeader (w : W) (pctx : Context) : Option String :=
  let authHeader := headerGet pctx.headers "Authorization"
  let bearer := extractBearer authHeader
  if p.resolvePlaceholders && isPlaceholder bearer then
    (access.realToken w bearer).map fun real => "Bearer " ++ real
  else some authHeader

def applyResult (result : OutboundResult) (pctx : Context) : Action × Context :=
  match result.action with
  | .deny =>
    let code :=
      if result.denyStatus = 403 then "policy.forbidden" else "upstream.token-exchange-failed"
    (.denyStatus result.denyStatus code result.denyReason,
      pctx.record .deny result.denyReasonCode.text
        [("route_matched", boolStr result.routeMatched), ("route_host", pctx.host),
          ("target_audience", result.targetAudience),
          ("requested_scopes", result.requestedScopes)])
  | .replaceToken =>
    let pctx :=
      { pctx with headers := headerSet pctx.headers "Authorization" ("Bearer " ++ result.token) }
    (.cont,
      pctx.record .modify (if result.cacheHit then "cache_hit" else "token_replaced")
        [("route_matched", "true"), ("route_host", pctx.host),
          ("target_audience", result.targetAudience),
          ("requested_scopes", result.requestedScopes),
          ("cache_hit", boolStr result.cacheHit)])
  | .allow =>
    (.cont,
      pctx.record .skip (if result.routeMatched then "route_passthrough" else "no_matching_route")
        [("route_matched", boolStr result.routeMatched), ("route_host", pctx.host)])

def onRequest : Hook W := fun w pctx =>
  match p.inner with
  | none => (.denyStatus 503 "upstream.unreachable" "token-exchange not configured", w, pctx)
  | some a =>
    match p.authHeader access w pctx with
    | none =>
      (.deny "auth.unauthorized" "unresolvable credential placeholder", w,
        pctx.record .deny "placeholder_unresolved" [])
    | some authHeader =>
      let step := a.handleOutbound glob sha256 (access.outside w) authHeader pctx.host
        (access.cache w)
      let (action, pctx) := applyResult step.result pctx
      (action, access.setCache w step.cache, pctx)

def plugin : Plugin W where
  name := "token-exchange"
  capabilities := ⟨false, false, [], []⟩
  onRequest := p.onRequest glob sha256 access
  onResponse w pctx := (.cont, w, pctx)

end TokenExchange

end Kagenti.AuthBridge
