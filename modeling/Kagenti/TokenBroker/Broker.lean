import Kagenti.TokenBroker.SessionIndex
import Kagenti.TokenBroker.TokenCache

/-!
The token broker (`internal/core/broker.go`) as an interleaving of calls. Each access to the session
table, to the token cache or to a session object is one step. What the OAuth provider answers is
part of the action. `issued` is a ghost record of which session object each token was obtained
under.
-/

namespace Kagenti.TokenBroker

open Lib.Transition

structure Endpoints where
  authEndpoint : String
  tokenEndpoint : String
  scopes : List String
  deriving DecidableEq

structure Flow where
  session : Session
  endpoints : Endpoints
  codeVerifier : String
  deriving DecidableEq

abbrev TokenOutcome := Except String String

inductive AcquirePc where
  | validating
  | checkingCache
  | gettingSession
  | acquiring (session : Session)
  | rechecking (session : Session)
  | discovering (session : Session)
  | generating (session : Session) (endpoints : Endpoints)
  | building (flow : Flow)
  | publishing (flow : Flow) (authURL : String)
  | waiting (flow : Flow)
  | exchanging (flow : Flow) (code : String)
  | completing (flow : Flow) (token : String)
  | caching (flow : Flow) (token : String)
  | clearing (flow : Flow) (token : String)
  -- the deferred release of the semaphore, and the return to the caller
  | releasing (session : Session) (outcome : TokenOutcome)
  | returning (outcome : TokenOutcome)
  | returned (outcome : TokenOutcome)
  deriving DecidableEq

structure AcquireCall where
  sessionKey : String
  userID : String
  resourceURL : String
  pc : AcquirePc
  deriving DecidableEq

/-- What the environment contributes to a step of an `AcquireToken` call. -/
inductive AcquireMove where
  | proceed
  | cancelled
  | discovered (endpoints : Option Endpoints)
  | generated (codeVerifier : Option String)
  | built (authURLAndNonce : Option (String × String))
  | completion
  | timeout
  | sessionDone
  | exchanged (token : Option String)
  deriving DecidableEq

inductive CompletePc where
  | validating
  | gettingSession
  | checking (session : Session)
  | sending (session : Session)
  | returned (outcome : Except String Unit)
  deriving DecidableEq

structure CompleteCall where
  sessionKey : String
  userID : String
  code : String
  state : String
  pc : CompletePc
  deriving DecidableEq

/-- A token and the session object whose flow obtained it. -/
structure Issue where
  token : String
  ref : Nat
  deriving DecidableEq

structure Shared where
  sessions : SessionManager
  cache : TokenCache
  now : Time
  issued : List Issue

namespace Shared

variable (sh : Shared)

def vars (ref : Nat) : SessionVars := sh.sessions.vars ref

def setVars (ref : Nat) (v : SessionVars) : Shared :=
  { sh with sessions := sh.sessions.setVars ref v }

def updateTx (ref : Nat) (f : OAuthTransaction → OAuthTransaction) : Shared :=
  sh.setVars ref { sh.vars ref with activeOAuthTx := (sh.vars ref).activeOAuthTx.map f }

def setTx (ref : Nat) (tx : Option OAuthTransaction) : Shared :=
  sh.setVars ref { sh.vars ref with activeOAuthTx := tx }

def setTaken (ref : Nat) (taken : Bool) : Shared :=
  sh.setVars ref { sh.vars ref with semaphoreTaken := taken }

def setEvent (ref : Nat) (event : Option Event) : Shared :=
  sh.setVars ref { sh.vars ref with eventWaiters := event }

def completion (ref : Nat) : Option OAuthCompletion :=
  (sh.vars ref).activeOAuthTx.bind OAuthTransaction.completionChan

def failTx (ref : Nat) : Shared :=
  sh.updateTx ref fun tx => { tx with status := .failed }

end Shared

def flowError (message : String) : TokenOutcome := .error ("OAuth flow failed: " ++ message)

def newTransaction (resourceURL codeVerifier : String) (endpoints : Endpoints) :
    OAuthTransaction where
  resourceURL := resourceURL
  authEndpoint := endpoints.authEndpoint
  tokenEndpoint := endpoints.tokenEndpoint
  scopes := endpoints.scopes
  codeVerifier := codeVerifier
  state := ""
  callbackURL := ""
  authURL := ""
  status := .waitingCode
  completionChan := none

/-- One step of `performOAuthFlow`, and the code around it that holds the semaphore. -/
def flowStep (callbackURL : String) (sh : Shared) (c : AcquireCall) :
    AcquireMove → Option (Shared × AcquirePc)
  | .discovered endpoints =>
    match c.pc, endpoints with
    | .discovering s, some endpoints => some (sh, .generating s endpoints)
    | .discovering s, none =>
      some (sh, .releasing s (flowError
        "oauth upstream failure: failed to discover OAuth endpoints"))
    | _, _ => none
  | .generated codeVerifier =>
    match c.pc, codeVerifier with
    | .generating s endpoints, some codeVerifier =>
      some (sh.setTx s.ref (some (newTransaction c.resourceURL codeVerifier endpoints)),
        .building ⟨s, endpoints, codeVerifier⟩)
    | .generating s _, none =>
      some (sh, .releasing s (flowError "failed to generate PKCE challenge"))
    | _, _ => none
  | .built authURLAndNonce =>
    match c.pc, authURLAndNonce with
    | .building f, some (authURL, nonce) =>
      some (sh.updateTx f.session.ref fun tx =>
        { tx with
          authURL := authURL
          callbackURL := callbackURL
          state := f.session.sessionKey ++ "." ++ nonce }, .publishing f authURL)
    | .building f, none =>
      some (sh.failTx f.session.ref,
        .releasing f.session (flowError "failed to build authorization URL"))
    | _, _ => none
  | .completion =>
    match c.pc with
    | .waiting f =>
      match sh.completion f.session.ref with
      | some completion =>
        let sh := sh.updateTx f.session.ref fun tx => { tx with completionChan := none }
        match completion.error with
        | some error =>
          some (sh, .releasing f.session
            (flowError ("OAuth completion failed: " ++ error)))
        | none => some (sh, .exchanging f completion.code)
      | none => none
    | _ => none
  | .timeout =>
    match c.pc with
    | .waiting f =>
      some (sh.failTx f.session.ref,
        .releasing f.session (flowError "timeout waiting for OAuth completion"))
    | _ => none
  | .sessionDone =>
    match c.pc with
    | .waiting f =>
      if (sh.vars f.session.ref).done then
        some (sh.failTx f.session.ref, .releasing f.session (flowError "session ended"))
      else none
    | _ => none
  | .exchanged token =>
    match c.pc, token with
    | .exchanging f _, some token =>
      -- the provider never issues the same token twice
      if token ∈ sh.issued.map Issue.token then none
      else
        some ({ sh with issued := ⟨token, f.session.ref⟩ :: sh.issued }, .completing f token)
    | .exchanging f _, none =>
      some (sh.failTx f.session.ref,
        .releasing f.session
          (flowError "oauth upstream failure: token exchange failed"))
    | _, _ => none
  | .proceed =>
    match c.pc with
    | .publishing f authURL =>
      match (sh.vars f.session.ref).eventWaiters with
      | none =>
        some (sh.setEvent f.session.ref
          (some { type := "oauth_url_ready", authURL := authURL, message := "", code := "" }),
          .waiting f)
      | some _ =>
        some (sh, .releasing f.session (flowError "no event waiter available"))
    | .completing f token =>
      match (sh.vars f.session.ref).activeOAuthTx with
      | some tx =>
        some (sh.setTx f.session.ref (some { tx with status := .completed }), .caching f token)
      | none =>
        -- a write through a nil transaction panics
        some (sh, .releasing f.session (flowError "invalid memory address"))
    | .caching f token =>
      some ({ sh with
        cache := sh.cache.setToken sh.now f.session.sessionKey c.resourceURL token },
        .clearing f token)
    | .clearing f token => some (sh.setTx f.session.ref none, .releasing f.session (.ok token))
    | .releasing s outcome => some (sh.setTaken s.ref false, .returning outcome)
    | _ => none
  | .cancelled =>
    match c.pc with
    | .publishing f _ =>
      some (sh, .releasing f.session
        (flowError "context cancelled while publishing event"))
    | .waiting f =>
      some (sh.failTx f.session.ref, .releasing f.session (flowError "context cancelled"))
    | _ => none

def acquireStep (callbackURL : String) (sh : Shared) (c : AcquireCall) (move : AcquireMove) :
    Option (Shared × AcquirePc) :=
  match c.pc, move with
  | .validating, .proceed =>
    match sh.sessions.validateSession c.sessionKey c.userID with
    | .ok () => some (sh, .checkingCache)
    | .error e => some (sh, .returning (.error ("session validation failed: " ++ e)))
  | .checkingCache, .proceed =>
    match sh.cache.getToken sh.now c.sessionKey c.resourceURL with
    | some token => some (sh, .returning (.ok token))
    | none => some (sh, .gettingSession)
  | .gettingSession, .proceed =>
    match sh.sessions.getSession c.sessionKey with
    | .ok s => some (sh, .acquiring s)
    | .error e => some (sh, .returning (.error ("failed to get session: " ++ e)))
  | .acquiring s, .proceed =>
    if (sh.vars s.ref).semaphoreTaken then none
    else some (sh.setTaken s.ref true, .rechecking s)
  | .acquiring _, .cancelled =>
    some (sh, .returning (.error
      "failed to acquire semaphore: semaphore acquisition cancelled"))
  | .rechecking s, .proceed =>
    match sh.cache.getToken sh.now c.sessionKey c.resourceURL with
    | some token => some (sh, .releasing s (.ok token))
    | none => some (sh, .discovering s)
  | .returning outcome, .proceed => some (sh, .returned outcome)
  | _, move => flowStep callbackURL sh c move

def completeStep (sh : Shared) (c : CompleteCall) : Option (Shared × CompletePc) :=
  match c.pc with
  | .validating =>
    match sh.sessions.validateSession c.sessionKey c.userID with
    | .ok () => some (sh, .gettingSession)
    | .error e => some (sh, .returned (.error ("session validation failed: " ++ e)))
  | .gettingSession =>
    match sh.sessions.getSession c.sessionKey with
    | .ok s => some (sh, .checking s)
    | .error e => some (sh, .returned (.error ("session not found: " ++ e)))
  | .checking s =>
    match (sh.vars s.ref).activeOAuthTx with
    | some _ => some (sh, .sending s)
    | none => some (sh, .returned (.error "no active OAuth transaction"))
  | .sending s =>
    match (sh.vars s.ref).activeOAuthTx with
    | some tx =>
      match tx.completionChan with
      | none =>
        some (sh.setTx s.ref
          (some { tx with completionChan := some ⟨c.code, c.state, none⟩ }),
          .returned (.ok ()))
      | some _ => some (sh, .returned (.error "no waiter for OAuth completion"))
    | none => some (sh, .returned (.error "invalid memory address"))
  | .returned _ => none

structure BrokerConfig where
  session : SessionConfig
  callbackURL : String

structure Broker where
  shared : Shared
  acquires : List AcquireCall
  completes : List CompleteCall

inductive BrokerAction where
  | session (op : SessionOp)
  | tick (now : Time)
  | receiveEvent (ref : Nat)
  | cleanupExpiredTokens
  | acquireToken (sessionKey userID resourceURL : String)
  | acquire (call : Nat) (move : AcquireMove)
  | completeOAuth (sessionKey userID code state : String)
  | complete (call : Nat)
  deriving DecidableEq

namespace Broker

def init : Broker where
  shared := { sessions := .new, cache := .new, now := 0, issued := [] }
  acquires := []
  completes := []

def withSessions (b : Broker) (sessions : SessionManager) : Broker :=
  { b with shared := { b.shared with sessions := sessions } }

def step (cfg : BrokerConfig) (b : Broker) : BrokerAction → Option Broker
  | .session op =>
    (SessionIndex.apply cfg.session b.shared.sessions op).map b.withSessions
  | .tick now =>
    if b.shared.now ≤ now then some { b with shared := { b.shared with now := now } }
    else none
  | .receiveEvent ref => some { b with shared := b.shared.setEvent ref none }
  | .cleanupExpiredTokens =>
    some { b with shared :=
      { b.shared with cache := b.shared.cache.cleanupExpiredTokens b.shared.now } }
  | .acquireToken sessionKey userID resourceURL =>
    some { b with acquires :=
      b.acquires ++ [⟨sessionKey, userID, resourceURL, .validating⟩] }
  | .acquire i move =>
    match b.acquires[i]? with
    | none => none
    | some c =>
      (acquireStep cfg.callbackURL b.shared c move).map fun (shared, pc) =>
        { b with shared := shared, acquires := b.acquires.set i { c with pc := pc } }
  | .completeOAuth sessionKey userID code state =>
    some { b with completes :=
      b.completes ++ [⟨sessionKey, userID, code, state, .validating⟩] }
  | .complete i =>
    match b.completes[i]? with
    | none => none
    | some c =>
      (completeStep b.shared c).map fun (shared, pc) =>
        { b with shared := shared, completes := b.completes.set i { c with pc := pc } }

def system (cfg : BrokerConfig) : System Broker BrokerAction where
  init := init
  step := step cfg

end Broker

/-! What a step can do -/

namespace AcquirePc

/-- The session object whose semaphore the call holds. -/
@[simp] def holds : AcquirePc → Option Session
  | .rechecking s | .discovering s | .generating s _ | .releasing s _ => some s
  | .building f | .publishing f _ | .waiting f | .exchanging f _ | .completing f _
  | .caching f _ | .clearing f _ => some f.session
  | .validating | .checkingCache | .gettingSession | .acquiring _ | .returning _
  | .returned _ => none

end AcquirePc

/-- The steps of `performOAuthFlow` and of the code around it by their effect. The failures are
of two kinds: some mark the transaction, some do not. -/
inductive FlowStep (callbackURL : String) (sh : Shared) (c : AcquireCall) :
    AcquireMove → Shared → AcquirePc → Prop
  | stopped {move : AcquireMove} {s : Session} (message : String) (hs : c.pc.holds = some s) :
      FlowStep callbackURL sh c move sh (.releasing s (flowError message))
  | failed {move : AcquireMove} {s : Session} (message : String) (hs : c.pc.holds = some s) :
      FlowStep callbackURL sh c move (sh.failTx s.ref) (.releasing s (flowError message))
  | discovered {s : Session} {endpoints : Endpoints} (hpc : c.pc = .discovering s) :
      FlowStep callbackURL sh c (.discovered (some endpoints)) sh (.generating s endpoints)
  | generated {s : Session} {endpoints : Endpoints} {codeVerifier : String}
      (hpc : c.pc = .generating s endpoints) :
      FlowStep callbackURL sh c (.generated (some codeVerifier))
        (sh.setTx s.ref (some (newTransaction c.resourceURL codeVerifier endpoints)))
        (.building ⟨s, endpoints, codeVerifier⟩)
  | built {f : Flow} {authURL nonce : String} (hpc : c.pc = .building f) :
      FlowStep callbackURL sh c (.built (some (authURL, nonce)))
        (sh.updateTx f.session.ref fun tx =>
          { tx with
            authURL := authURL
            callbackURL := callbackURL
            state := f.session.sessionKey ++ "." ++ nonce }) (.publishing f authURL)
  | published {f : Flow} {authURL : String} (hpc : c.pc = .publishing f authURL) :
      FlowStep callbackURL sh c .proceed
        (sh.setEvent f.session.ref
          (some { type := "oauth_url_ready", authURL := authURL, message := "", code := "" }))
        (.waiting f)
  | refused {f : Flow} {completion : OAuthCompletion} (message : String)
      (hpc : c.pc = .waiting f) (hcompletion : sh.completion f.session.ref = some completion) :
      FlowStep callbackURL sh c .completion
        (sh.updateTx f.session.ref fun tx => { tx with completionChan := none })
        (.releasing f.session (flowError message))
  | received {f : Flow} {completion : OAuthCompletion} (hpc : c.pc = .waiting f)
      (hcompletion : sh.completion f.session.ref = some completion) :
      FlowStep callbackURL sh c .completion
        (sh.updateTx f.session.ref fun tx => { tx with completionChan := none })
        (.exchanging f completion.code)
  | exchanged {f : Flow} {code token : String} (hpc : c.pc = .exchanging f code)
      (hfresh : token ∉ sh.issued.map Issue.token) :
      FlowStep callbackURL sh c (.exchanged (some token))
        { sh with issued := ⟨token, f.session.ref⟩ :: sh.issued } (.completing f token)
  | completed {f : Flow} {token : String} {tx : OAuthTransaction}
      (hpc : c.pc = .completing f token) (htx : (sh.vars f.session.ref).activeOAuthTx = some tx) :
      FlowStep callbackURL sh c .proceed
        (sh.setTx f.session.ref (some { tx with status := .completed })) (.caching f token)
  | cached {f : Flow} {token : String} (hpc : c.pc = .caching f token) :
      FlowStep callbackURL sh c .proceed
        { sh with cache := sh.cache.setToken sh.now f.session.sessionKey c.resourceURL token }
        (.clearing f token)
  | cleared {f : Flow} {token : String} (hpc : c.pc = .clearing f token) :
      FlowStep callbackURL sh c .proceed (sh.setTx f.session.ref none)
        (.releasing f.session (.ok token))
  | released {s : Session} {outcome : TokenOutcome} (hpc : c.pc = .releasing s outcome) :
      FlowStep callbackURL sh c .proceed (sh.setTaken s.ref false) (.returning outcome)

variable {move : AcquireMove}

theorem flowStep_sound {callbackURL : String} {sh sh' : Shared} {c : AcquireCall} {pc : AcquirePc}
    (h : flowStep callbackURL sh c move = some (sh', pc)) :
    FlowStep callbackURL sh c move sh' pc := by
  revert h
  fun_cases flowStep <;> intro h <;> try cases h
  case case1 hpc => exact .discovered hpc
  case case4 hpc => exact .generated hpc
  case case7 hpc => exact .built hpc
  case case10 hpc completion hcompletion shared error _ =>
    obtain ⟨rfl, rfl⟩ := Prod.mk.inj (Option.some.inj h)
    exact .refused _ hpc hcompletion
  case case11 hpc completion hcompletion shared _ =>
    obtain ⟨rfl, rfl⟩ := Prod.mk.inj (Option.some.inj h)
    exact .received hpc hcompletion
  case case20 hpc hfresh => exact .exchanged hpc hfresh
  case case23 hpc _ => exact .published hpc
  case case25 hpc tx htx => exact .completed hpc htx
  case case27 hpc => exact .cached hpc
  case case28 hpc => exact .cleared hpc
  case case29 hpc => exact .released hpc
  all_goals first
    | exact .stopped _ (by simp [*])
    | exact .failed _ (by simp [*])

variable {i : Nat} {b b' : Broker} {cfg : BrokerConfig}

theorem acquire_step (h : Broker.step cfg b (.acquire i move) = some b') :
    ∃ c sh pc, b.acquires[i]? = some c ∧
      acquireStep cfg.callbackURL b.shared c move = some (sh, pc) ∧
      b' = { b with shared := sh, acquires := b.acquires.set i { c with pc := pc } } := by
  simp only [Broker.step] at h
  split at h
  · cases h
  next c hget => grind [Option.map_eq_some_iff, Prod.exists]

theorem complete_step (h : Broker.step cfg b (.complete i) = some b') :
    ∃ c sh pc, b.completes[i]? = some c ∧ completeStep b.shared c = some (sh, pc) ∧
      b' = { b with shared := sh, completes := b.completes.set i { c with pc := pc } } := by
  simp only [Broker.step] at h
  split at h
  · cases h
  next c hget => grind [Option.map_eq_some_iff, Prod.exists]

end Kagenti.TokenBroker
