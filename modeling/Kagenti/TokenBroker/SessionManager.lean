import Kagenti.Go.Http
import Kagenti.Lib.Entries

/-!
The session table of the token broker (`internal/session/manager.go`). The fields of a session
object that change later are kept in `SessionManager.vars`, so that a goroutine with a pointer to an
ended session still reads and writes them. No code registers a token waiter, so `TokenWaiters` is
not modelled.
-/

namespace Kagenti.TokenBroker

/-- Clock readings and durations in nanoseconds. -/
abbrev Time := Int

structure Event where
  type : String
  authURL : String
  message : String
  code : String
  deriving DecidableEq

structure OAuthCompletion where
  code : String
  state : String
  error : Option String
  deriving DecidableEq

inductive OAuthTxStatus where
  | waitingCode
  | completed
  | failed
  deriving DecidableEq

structure OAuthTransaction where
  resourceURL : String
  authEndpoint : String
  tokenEndpoint : String
  scopes : List String
  codeVerifier : String
  state : String
  callbackURL : String
  authURL : String
  status : OAuthTxStatus
  -- a channel of capacity one is the value waiting in it, if any
  completionChan : Option OAuthCompletion
  deriving DecidableEq

structure Session where
  ref : Nat
  sessionKey : String
  userID : String
  backendSessionRedirectURL : String
  createdAt : Time
  deriving DecidableEq

/-- The fields of a session object that change while it is in use. -/
structure SessionVars where
  lastPollAt : Time
  expirationDeadline : Time
  semaphoreTaken : Bool
  eventWaiters : Option Event
  doneCloses : Nat
  activeOAuthTx : Option OAuthTransaction
  deriving DecidableEq

def SessionVars.fresh (now sessionTimeout : Time) : SessionVars where
  lastPollAt := now
  expirationDeadline := now + sessionTimeout
  semaphoreTaken := false
  eventWaiters := none
  doneCloses := 0
  activeOAuthTx := none

/-- The receive side of `session.Done` is ready once the channel is closed. -/
def SessionVars.done (v : SessionVars) : Bool := decide (0 < v.doneCloses)

def trySend {α : Type*} (buffer : Option α) (value : α) : Option α :=
  buffer.orElse fun _ => some value

/-- What `cleanupSessionLocked` does to the object: it closes `Done` and leaves a
best-effort error event. -/
def SessionVars.close (v : SessionVars) (reason : String) : SessionVars :=
  { v with
    doneCloses := v.doneCloses + 1
    eventWaiters := trySend v.eventWaiters
      { type := "error", authURL := "", message := reason, code := "session_expired" } }

structure SessionConfig where
  sessionTimeout : Time
  maxSessionsPerUser : Nat
  sessionTimeout_pos : 0 < sessionTimeout
  maxSessionsPerUser_pos : 0 < maxSessionsPerUser

structure Timer where
  id : Nat
  sessionKey : String
  deriving DecidableEq

structure SessionManager where
  sessions : AList fun _ : String => Session
  userSessions : AList fun _ : String => List String
  timers : AList fun _ : String => Timer
  vars : Nat → SessionVars
  nextRef : Nat
  nextTimer : Nat
  -- timers that the runtime has not fired yet, and timers whose function has been
  -- started and is waiting for the manager's lock
  armed : List Timer
  fired : List Timer
  shutdownClosed : Bool

namespace SessionManager

def new : SessionManager where
  sessions := ∅
  userSessions := ∅
  timers := ∅
  vars := fun _ => SessionVars.fresh 0 0
  nextRef := 0
  nextTimer := 0
  armed := []
  fired := []
  shutdownClosed := false

variable (sm : SessionManager)

/-- `sm.userSessions[userID]`, with the nil slice for a missing entry. -/
def userKeys (userID : String) : List String :=
  (sm.userSessions.lookup userID).getD []

def getUserSessionCount (userID : String) : Nat :=
  match sm.userSessions.lookup userID with
  | some sessions => sessions.length
  | none => 0

def setVars (ref : Nat) (v : SessionVars) : SessionManager :=
  { sm with vars := Function.update sm.vars ref v }

def createSession (cfg : SessionConfig) (now : Time)
    (sessionKey userID backendRedirectURL : String) : Except String SessionManager :=
  let create : SessionManager :=
    { sm with
      sessions := sm.sessions.insert sessionKey
        { ref := sm.nextRef, sessionKey := sessionKey, userID := userID,
          backendSessionRedirectURL := backendRedirectURL, createdAt := now }
      vars := Function.update sm.vars sm.nextRef
        (SessionVars.fresh now cfg.sessionTimeout)
      nextRef := sm.nextRef + 1
      userSessions := sm.userSessions.insert userID (sm.userKeys userID ++ [sessionKey]) }
  match sm.userSessions.lookup userID with
  | some existingSessions =>
    if cfg.maxSessionsPerUser ≤ existingSessions.length then
      .error "max sessions per user exceeded"
    else .ok create
  | none => .ok create

def getSession (sessionKey : String) : Except String Session :=
  match sm.sessions.lookup sessionKey with
  | some session => .ok session
  | none => .error "session not found"

def validateSession (sessionKey userID : String) : Except String Unit :=
  match sm.sessions.lookup sessionKey with
  | some session =>
    if session.userID ≠ userID then .error "session user mismatch" else .ok ()
  | none => .error "session not found"

/-- `timer.Stop()` keeps the runtime from firing the timer; a function that it has
already started still runs. -/
def stopTimer (timer : Timer) : SessionManager :=
  { sm with armed := sm.armed.filter (· ≠ timer) }

def stopAndDeleteTimer (sessionKey : String) : SessionManager :=
  match sm.timers.lookup sessionKey with
  | some timer =>
    { sm.stopTimer timer with timers := sm.timers.erase sessionKey }
  | none => sm

def removeUserSession (userID sessionKey : String) : AList fun _ : String => List String :=
  match sm.userSessions.lookup userID with
  | some userSessions =>
    let newSessions := userSessions.filter (· ≠ sessionKey)
    if 0 < newSessions.length then sm.userSessions.insert userID newSessions
    else sm.userSessions.erase userID
  | none => sm.userSessions

def cleanupSessionLocked (sessionKey : String) (session : Session) (reason : String) :
    SessionManager :=
  { sm.stopAndDeleteTimer sessionKey with
    vars := Function.update sm.vars session.ref ((sm.vars session.ref).close reason)
    userSessions := sm.removeUserSession session.userID sessionKey
    sessions := sm.sessions.erase sessionKey }

def endSession (sessionKey : String) : Except String SessionManager :=
  match sm.sessions.lookup sessionKey with
  | some session => .ok (sm.cleanupSessionLocked sessionKey session "session ended")
  | none => .error "session not found"

def expireSession (sessionKey : String) : SessionManager :=
  match sm.sessions.lookup sessionKey with
  | some session => sm.cleanupSessionLocked sessionKey session "session expired"
  | none => sm

def resetSessionTimer (cfg : SessionConfig) (now : Time) (sessionKey : String) :
    SessionManager :=
  match sm.sessions.lookup sessionKey with
  | some session =>
    { sm.stopAndDeleteTimer sessionKey with
      vars := Function.update sm.vars session.ref
        { sm.vars session.ref with
          lastPollAt := now
          expirationDeadline := now + cfg.sessionTimeout } }
  | none => sm

def startSessionTimer (sessionKey : String) : SessionManager :=
  match sm.sessions.lookup sessionKey with
  | some _ =>
    let stopped :=
      match sm.timers.lookup sessionKey with
      | some timer => sm.stopTimer timer
      | none => sm
    let timer : Timer := ⟨sm.nextTimer, sessionKey⟩
    { stopped with
      timers := sm.timers.insert sessionKey timer
      nextTimer := sm.nextTimer + 1
      armed := stopped.armed ++ [timer] }
  | none => sm

def fireTimer (timer : Timer) : Option SessionManager :=
  if timer ∈ sm.armed then
    some { sm with armed := sm.armed.filter (· ≠ timer), fired := timer :: sm.fired }
  else none

def runFiredTimer (timer : Timer) : Option SessionManager :=
  if timer ∈ sm.fired then
    some ({ sm with fired := sm.fired.erase timer }.expireSession timer.sessionKey)
  else none

def cleanupAll (sm : SessionManager) : List String → SessionManager
  | [] => sm
  | sessionKey :: rest =>
    match sm.sessions.lookup sessionKey with
    | some session =>
      cleanupAll (sm.cleanupSessionLocked sessionKey session "shutdown") rest
    | none => cleanupAll sm rest

/-- `Shutdown` before its loop over the sessions. -/
def stopAllTimers : SessionManager :=
  { sm with
    shutdownClosed := true
    armed := sm.armed.filter fun timer => timer ∉ sm.timers.entries.map Sigma.snd
    timers := ∅ }

/-- `order` is the order in which the loop of `Shutdown` visits the session map. A
second call panics on the closed channel before it changes anything else. -/
def shutdown (order : List String) : Option SessionManager :=
  if order.Perm sm.sessions.keys then
    if sm.shutdownClosed then some sm
    else some (sm.stopAllTimers.cleanupAll order)
  else none

/-! What each operation does to the two tables. -/

variable {sm}

theorem getUserSessionCount_eq (userID : String) :
    sm.getUserSessionCount userID = (sm.userKeys userID).length := by
  unfold getUserSessionCount userKeys
  cases sm.userSessions.lookup userID <;> rfl

theorem createSession_eq (cfg : SessionConfig) (now : Time) (sessionKey userID url : String) :
    sm.createSession cfg now sessionKey userID url =
      if cfg.maxSessionsPerUser ≤ (sm.userKeys userID).length then
        .error "max sessions per user exceeded"
      else
        .ok { sm with
          sessions := sm.sessions.insert sessionKey
            { ref := sm.nextRef, sessionKey := sessionKey, userID := userID,
              backendSessionRedirectURL := url, createdAt := now }
          vars := Function.update sm.vars sm.nextRef
            (SessionVars.fresh now cfg.sessionTimeout)
          nextRef := sm.nextRef + 1
          userSessions :=
            sm.userSessions.insert userID (sm.userKeys userID ++ [sessionKey]) } := by
  have hpos := cfg.maxSessionsPerUser_pos
  unfold createSession userKeys
  cases sm.userSessions.lookup userID with
  | none => simp [Nat.ne_of_gt hpos]
  | some existing => rfl

variable (sessionKey : String)

@[simp] theorem stopAndDeleteTimer_sessions :
    (sm.stopAndDeleteTimer sessionKey).sessions = sm.sessions := by
  unfold stopAndDeleteTimer
  split <;> rfl

@[simp] theorem stopAndDeleteTimer_userSessions :
    (sm.stopAndDeleteTimer sessionKey).userSessions = sm.userSessions := by
  unfold stopAndDeleteTimer
  split <;> rfl

@[simp] theorem stopAndDeleteTimer_nextRef :
    (sm.stopAndDeleteTimer sessionKey).nextRef = sm.nextRef := by
  unfold stopAndDeleteTimer
  split <;> rfl

@[simp] theorem cleanupSessionLocked_sessions (session : Session)
    (reason : String) :
    (sm.cleanupSessionLocked sessionKey session reason).sessions =
      sm.sessions.erase sessionKey := rfl

theorem removeUserSession_lookup (owner sessionKey userID : String) :
    ((sm.removeUserSession owner sessionKey).lookup userID).getD [] =
      if userID = owner then (sm.userKeys userID).filter (· ≠ sessionKey)
      else sm.userKeys userID := by
  unfold removeUserSession userKeys
  by_cases huser : userID = owner
  · subst huser
    cases hkeys : sm.userSessions.lookup userID with
    | none => simp [hkeys]
    | some keys =>
      rw [if_pos rfl]
      dsimp only [Option.getD_some]
      generalize keys.filter (· ≠ sessionKey) = newSessions
      cases newSessions with
      | nil => simp
      | cons key rest => simp
  · grind [AList.lookup_insert_ne, AList.lookup_erase_ne]

theorem cleanupSessionLocked_userKeys (session : Session)
    (reason userID : String) :
    (sm.cleanupSessionLocked sessionKey session reason).userKeys userID =
      if userID = session.userID then (sm.userKeys userID).filter (· ≠ sessionKey)
      else sm.userKeys userID :=
  removeUserSession_lookup session.userID sessionKey userID

theorem insert_userKeys (owner userID : String) (keys : List String) :
    ((sm.userSessions.insert owner keys).lookup userID).getD [] =
      if userID = owner then keys else sm.userKeys userID := by
  rw [Lib.Entries.lookup_insert]
  split <;> rfl

/-- `GetSessionByState`: the text before the last dot of a state is the key of its session. -/
def getSessionByState (sm : SessionManager) (state : String) : Except String Session :=
  match Go.beforeLast '.' state.toList with
  | none => .error "invalid state format: no separator found"
  | some sessionKey =>
    match sm.sessions.lookup (String.ofList sessionKey) with
    | none => .error "session not found for state"
    | some session =>
      match (sm.vars session.ref).activeOAuthTx with
      | none => .error "state mismatch"
      | some tx => if tx.state ≠ state then .error "state mismatch" else .ok session

/-- A state leads to the session under the key it was built from, while it is the state of that
session's transaction, and to no other, whatever dots are in the keys. -/
theorem getSessionByState_eq_ok_iff (sm : SessionManager) (key : String) {nonce : String}
    (hnonce : '.' ∉ nonce.toList) (session : Session) :
    sm.getSessionByState (key ++ "." ++ nonce) = .ok session ↔
      sm.sessions.lookup key = some session ∧
        ∃ tx, (sm.vars session.ref).activeOAuthTx = some tx ∧ tx.state = key ++ "." ++ nonce := by
  have hkey : Go.beforeLast '.' (key ++ "." ++ nonce).toList = some key.toList := by
    rw [String.toList_append, String.toList_append, List.append_assoc]
    exact Go.beforeLast_append hnonce _
  rw [getSessionByState, hkey]
  dsimp only
  rw [String.ofList_toList]
  cases sm.sessions.lookup key with
  | none => simp
  | some found =>
    cases htx : (sm.vars found.ref).activeOAuthTx with
    | none => grind
    | some tx =>
      by_cases hstate : tx.state = key ++ "." ++ nonce
      · grind
      · grind

/-- Keys with dots, one of them the beginning of the other. -/
theorem getSessionByState_dotted :
    let session (ref : Nat) (key : String) : Session := ⟨ref, key, "alice", "", 0⟩
    let sm := { new with
      sessions := ((∅ : AList fun _ : String => Session).insert "a" (session 0 "a")).insert "a.b"
        (session 1 "a.b")
      vars := fun ref => { SessionVars.fresh 0 0 with
        activeOAuthTx :=
          if ref = 1 then some ⟨"", "", "", [], "", "a.b.n", "", "", .waitingCode, none⟩ else none } }
    '.' ∉ "n".toList ∧ sm.getSessionByState ("a.b" ++ "." ++ "n") = .ok (session 1 "a.b") := by
  intro session sm
  exact ⟨by decide, (getSessionByState_eq_ok_iff sm "a.b" (by decide) _).mpr ⟨rfl, _, rfl, rfl⟩⟩

end SessionManager

end Kagenti.TokenBroker
