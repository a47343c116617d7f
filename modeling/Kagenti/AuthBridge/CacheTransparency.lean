import Kagenti.AuthBridge.TokenExchange
import Kagenti.Lib.Entries
import Kagenti.Lib.Transition

/-!
For which request to the token endpoint the token of an outbound call was issued. The cache tells
requests apart by subject token and audience only.
-/

namespace Kagenti.AuthBridge

open Go Lib.Transition

namespace ExchangeCache

variable {key : String} {e : CacheEntry}

theorem lookup_deleteLoop {drop : CacheEntries → String → Bool} {keys : List String}
    {m : CacheEntries} (h : (deleteLoop drop keys m).lookup key = some e) :
    m.lookup key = some e := by
  induction keys generalizing m with
  | nil => exact h
  | cons k keys ih =>
    have kept := ih h
    split at kept
    · exact Lib.Entries.lookup_of_erase kept
    · exact kept

variable {token : String} {now : Instant} {c : ExchangeCache}

theorem lookup_set {order : List String} {stored : String} {ttl : Int}
    (h : (c.set now order stored token ttl).entries.lookup key = some e) :
    c.entries.lookup key = some e ∨ key = stored ∧ e.token = token := by
  unfold set at h
  split at h
  · exact .inl h
  · dsimp only at h
    rw [Lib.Entries.lookup_insert] at h
    split at h
    · obtain rfl := Option.some.inj h
      exact .inr ⟨‹_›, rfl⟩
    · left
      split at h
      · split at h
        · exact lookup_deleteLoop (lookup_deleteLoop h)
        · exact lookup_deleteLoop h
      · exact h

theorem lookup_of_get (h : c.get now key = some token) :
    ∃ e, c.entries.lookup key = some e ∧ e.token = token := by
  unfold get at h
  split at h
  · contradiction
  next e found => grind

end ExchangeCache

namespace Auth

variable (a : Auth) (glob : Glob) (sha256 : Sha256)

def requestFor (authHeader host : String) : Option ExchangeRequest :=
  match a.router.bind fun r => r.resolve glob host with
  | none => none
  | some route =>
    if route.passthrough ∨ extractBearer authHeader = "" then none
    else
      some ⟨extractBearer authHeader, a.audienceFor route host, route.scopes, route.tokenEndpoint⟩

def addressed (req : ExchangeRequest) : ExchangeRequest :=
  match a.exchanger with
  | none => req
  | some client => { req with tokenEndpoint := client.endpoint req.tokenEndpoint }

def required (authHeader host : String) : Option ExchangeRequest :=
  (a.requestFor glob authHeader host).map a.addressed

variable {a glob} {authHeader host : String}

theorem handleOutbound_of_requestFor {req : ExchangeRequest}
    (h : a.requestFor glob authHeader host = some req) (out : Outside)
    (cache : Option ExchangeCache) :
    a.handleOutbound glob sha256 out authHeader host cache =
      a.exchangeCached sha256 out req cache := by
  unfold requestFor at h
  split at h
  · contradiction
  next route resolved =>
    split at h
    · contradiction
    next exchanged =>
      have ⟨routed, bearer⟩ := not_or.mp exchanged
      obtain rfl := Option.some.inj h
      simp [handleOutbound, resolved, routed, bearer]

theorem handleOutbound_of_no_request (h : a.requestFor glob authHeader host = none) (out : Outside)
    (cache : Option ExchangeCache) :
    ∃ result, a.handleOutbound glob sha256 out authHeader host cache =
      { result := result, cache := cache } := by
  fun_cases handleOutbound with
  | case4 route resolved routed _ _ bearer =>
    exact absurd (by simpa [requestFor, resolved, routed] using h) bearer
  | _ => exact ⟨_, rfl⟩

theorem exchangeCached_cases (a : Auth) (req : ExchangeRequest) (out : Outside)
    (cache : Option ExchangeCache) :
    let key := cacheKey sha256 req.subjectToken req.audience
    let step := a.exchangeCached sha256 out req cache
    (step.granted = none ∧ step.cache = cache ∧ (step.result.action = .replaceToken →
        ∃ c, cache = some c ∧ c.get out.readAt key = some step.result.token)) ∨
      ∃ resp, step.granted = some (req, resp) ∧ step.result.token = resp.accessToken ∧
        ∀ c', step.cache = some c' → ∃ c, cache = some c ∧
          (c' = c ∨ ∃ ttl, c' = c.set out.storedAt out.order key resp.accessToken ttl) := by
  fun_cases exchangeCached with
  | case1 _ token hit =>
    obtain ⟨c, rfl, found⟩ := Option.bind_eq_some_iff.mp hit
    exact .inl ⟨rfl, rfl, fun _ => ⟨c, rfl, found⟩⟩
  | case4 _ _ _ resp => grind [Option.map_eq_some_iff]
  | _ => exact .inl ⟨rfl, rfl, nofun⟩

end Auth

/-! Sequences of calls -/

structure OutboundCall where
  authHeader : String
  host : String
  out : Outside

structure Exchanges where
  cache : Option ExchangeCache
  granted : List (ExchangeRequest × String)
  answered : List (Option ExchangeRequest × OutboundResult)

namespace Exchanges

variable (a : Auth) (glob : Glob) (sha256 : Sha256)

def call (s : Exchanges) (c : OutboundCall) : Exchanges :=
  let step := a.handleOutbound glob sha256 c.out c.authHeader c.host s.cache
  { cache := step.cache
    granted := s.granted ++ (step.granted.map fun (req, resp) =>
      (a.addressed req, resp.accessToken)).toList
    answered := s.answered ++ [(a.required glob c.authHeader c.host, step.result)] }

def system (maxSize : Option Nat) : System Exchanges OutboundCall where
  init := ⟨maxSize.map fun n => ⟨∅, n⟩, [], []⟩
  step s c := some (s.call a glob sha256 c)

def FromGrants (s : Exchanges) : Prop :=
  ∀ answer ∈ s.answered, ∀ req ∈ answer.1, answer.2.action = .replaceToken →
    (req, answer.2.token) ∈ s.granted

def SameRequestPerKey (s : Exchanges) (c : OutboundCall) : Prop :=
  ∀ answer ∈ s.answered, ∀ earlier ∈ answer.1, ∀ req ∈ a.required glob c.authHeader c.host,
    cacheKey sha256 earlier.subjectToken earlier.audience =
      cacheKey sha256 req.subjectToken req.audience → earlier = req

instance (s : Exchanges) : DecidablePred (SameRequestPerKey a glob sha256 s) := fun _ =>
  inferInstanceAs (Decidable (∀ answer ∈ s.answered, _))

structure Inv (s : Exchanges) : Prop where
  cached : ∀ c ∈ s.cache, ∀ key e, c.entries.lookup key = some e →
    ∃ req, (req, e.token) ∈ s.granted ∧ cacheKey sha256 req.subjectToken req.audience = key
  required : ∀ grant ∈ s.granted, ∃ answer ∈ s.answered, grant.1 ∈ answer.1
  answers : s.FromGrants

namespace Inv

variable {a glob sha256} {s : Exchanges}

theorem init (maxSize : Option Nat) : Inv sha256 (system a glob sha256 maxSize).init where
  cached c mem key e found := by
    obtain ⟨n, -, rfl⟩ := Option.map_eq_some_iff.mp mem
    simp at found
  required := nofun
  answers := nofun

variable {result : OutboundResult}

theorem answer (h : Inv sha256 s) {required : Option ExchangeRequest}
    (granted : ∀ req ∈ required, result.action = .replaceToken → (req, result.token) ∈ s.granted) :
    Inv sha256 { s with answered := s.answered ++ [(required, result)] } where
  cached := h.cached
  required grant mem := by
    obtain ⟨answer, earlier, found⟩ := h.required grant mem
    exact ⟨answer, List.mem_append_left _ earlier, found⟩
  answers := List.forall_mem_append.mpr ⟨h.answers, List.forall_mem_singleton.mpr granted⟩

variable {req : ExchangeRequest}

theorem exchange (h : Inv sha256 s) {cache' : Option ExchangeCache}
    (stored : ∀ c' ∈ cache', ∃ c ∈ s.cache, ∀ key e, c'.entries.lookup key = some e →
      c.entries.lookup key = some e ∨
        key = cacheKey sha256 req.subjectToken req.audience ∧ e.token = result.token) : Inv sha256
      { cache := cache'
        granted := s.granted ++ [(req, result.token)]
        answered := s.answered ++ [(some req, result)] } where
  cached c' mem key e found := by
    obtain ⟨c, cached, kept⟩ := stored c' mem
    rcases kept key e found with old | ⟨rfl, token⟩
    · obtain ⟨earlier, granted, sameKey⟩ := h.cached c cached key e old
      exact ⟨earlier, List.mem_append_left _ granted, sameKey⟩
    · exact ⟨req, by simp [token], rfl⟩
  required grant mem := by
    rcases List.mem_append.mp mem with earlier | last
    · obtain ⟨answer, answered, found⟩ := h.required grant earlier
      exact ⟨answer, List.mem_append_left _ answered, found⟩
    · obtain rfl := List.mem_singleton.mp last
      exact ⟨(some req, result), by simp, rfl⟩
  answers answer mem := by
    rcases List.mem_append.mp mem with earlier | last
    · intro q found replaced
      exact List.mem_append_left _ (h.answers answer earlier q found replaced)
    · grind

theorem granted_of_get (h : Inv sha256 s) {call : OutboundCall}
    (guard : SameRequestPerKey a glob sha256 s call)
    (required : a.required glob call.authHeader call.host = some req) {c : ExchangeCache}
    (cached : c ∈ s.cache) {now : Instant} {token : String}
    (hit : c.get now (cacheKey sha256 req.subjectToken req.audience) = some token) :
    (req, token) ∈ s.granted := by
  obtain ⟨e, found, rfl⟩ := ExchangeCache.lookup_of_get hit
  obtain ⟨earlier, granted, sameKey⟩ := h.cached c cached _ e found
  obtain ⟨answer, answered, asked⟩ := h.required _ granted
  obtain rfl := guard answer answered earlier asked req required sameKey
  exact granted

end Inv

theorem addressed_key (req : ExchangeRequest) :
    cacheKey sha256 (a.addressed req).subjectToken (a.addressed req).audience =
      cacheKey sha256 req.subjectToken req.audience := by
  unfold Auth.addressed
  split <;> rfl

variable {a glob sha256}

theorem Inv.call {s : Exchanges} (h : Inv sha256 s) {c : OutboundCall}
    (guard : SameRequestPerKey a glob sha256 s c) : Inv sha256 (s.call a glob sha256 c) := by
  unfold Exchanges.call
  cases asked : a.requestFor glob c.authHeader c.host with
  | none =>
    obtain ⟨result, step⟩ :=
      Auth.handleOutbound_of_no_request sha256 asked c.out s.cache
    have required : a.required glob c.authHeader c.host = none := by simp [Auth.required, asked]
    have silent : ∀ req ∈ (none : Option ExchangeRequest), result.action = .replaceToken →
        (req, result.token) ∈ s.granted := nofun
    rw [step, required]
    simpa using h.answer silent
  | some req =>
    have required : a.required glob c.authHeader c.host = some (a.addressed req) := by
      simp [Auth.required, asked]
    rw [Auth.handleOutbound_of_requestFor sha256 asked, required]
    dsimp only
    rcases Auth.exchangeCached_cases sha256 a req c.out s.cache with
      ⟨noGrant, sameCache, hit⟩ | ⟨resp, granted, token, stored⟩
    · rw [noGrant, sameCache]
      simp only [Option.map_none, Option.toList_none, List.append_nil]
      refine h.answer fun q same replaced => ?_
      obtain rfl := Option.some.inj same
      obtain ⟨cache, cached, found⟩ := hit replaced
      rw [← addressed_key a] at found
      exact h.granted_of_get guard required cached found
    · rw [granted]
      simp only [Option.map_some, Option.toList_some, ← token]
      refine h.exchange fun c' mem => ?_
      obtain ⟨cache, cached, rfl | ⟨ttl, rfl⟩⟩ := stored c' mem
      · exact ⟨c', cached, fun key e found => .inl found⟩
      · refine ⟨cache, cached, fun key e found => ?_⟩
        rw [addressed_key, token]
        exact ExchangeCache.lookup_set found

/-- In a sequence of calls in which calls with one cache key require the same, every token
that a call gets was issued for the subject token, audience, scopes and endpoint that its
route requires. -/
theorem cachedToken_issued_for_request {maxSize : Option Nat} {s : Exchanges}
    (h : (system a glob sha256 maxSize).Reachable (SameRequestPerKey a glob sha256) s) :
    s.FromGrants := by
  refine (h.invariant (I := Inv sha256) (Inv.init maxSize) ?_).answers
  intro s c s' inv guard step
  obtain rfl := Option.some.inj step
  exact inv.call guard

/-! Two routes with one audience -/

def scopedRoutes : Auth where
  router := some ⟨[⟨"reports", "api", "read", "", ""⟩, ⟨"console", "api", "write", "", ""⟩], ""⟩
  audienceFromHost := false
  exchanger := some ⟨"idp"⟩
  noTokenPolicy := .deny

def scopedSystem : System Exchanges OutboundCall :=
  system scopedRoutes (fun pattern host => decide (pattern = host)) id (some 10000)

def callTo (host : String) : OutboundCall where
  authHeader := "Bearer alice"
  host := host
  out :=
    { readAt := 0
      storedAt := 0
      exchange := fun req => some ⟨req.scopes, 3600⟩
      clientCredentials := fun _ _ => none
      order := [] }

/-- Two calls of one host: the second one gets the token from the cache. -/
theorem cachedToken_issued_for_second_call :
    ∃ s, scopedSystem.Reachable
        (SameRequestPerKey scopedRoutes (fun pattern host => decide (pattern = host)) id) s ∧
      (s.answered.map fun answer => answer.2.cacheHit) = [false, true] ∧ s.FromGrants := by
  obtain ⟨s, ran, hits⟩ : ∃ s ∈ scopedSystem.run
      (SameRequestPerKey scopedRoutes (fun pattern host => decide (pattern = host)) id)
      [callTo "reports", callTo "reports"],
      (s.answered.map fun answer => answer.2.cacheHit) = [false, true] := by
    decide +kernel
  have reachable := System.reachable_of_run _ ran
  exact ⟨s, reachable, hits, cachedToken_issued_for_request reachable⟩

/-- A call of the console after one of the reports gets the token issued for the scopes of
the reports, and the result says that the scopes of the console were requested. -/
theorem cachedToken_with_other_scopes :
    ∃ s, scopedSystem.Reachable System.anyAction s ∧
      (decide (s.granted = [(⟨"alice", "api", "read", "idp"⟩, "read")]) &&
        decide (s.answered.getLast? = some (some ⟨"alice", "api", "write", "idp"⟩,
          { action := .replaceToken, token := "read", cacheHit := true, routeMatched := true,
            targetAudience := "api", requestedScopes := "write" }))) = true :=
  System.exists_reachable_of_run [callTo "reports", callTo "console"]
    (by decide +kernel)

end Exchanges

end Kagenti.AuthBridge
