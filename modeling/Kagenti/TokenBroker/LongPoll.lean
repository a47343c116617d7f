import Kagenti.TokenBroker.Effects

/-!
The broker behind its HTTP handlers: long-polls for events (`handleEventLongPoll` in
`internal/api/handlers.go`) interleaved with everything else.
-/

namespace Kagenti.TokenBroker

open Lib.Transition Effects

inductive PollResponse where
  | unauthorized (code message : String)
  | event (event : Event)
  | cancelled
  deriving DecidableEq

/-- Where a long-poll stands. `starting` is the deferred start of the timer. -/
inductive PollPc where
  | validating
  | resetting
  | gettingSession
  | waiting (session : Session)
  | starting (session : Session) (response : PollResponse)
  | returned (response : PollResponse)
  deriving DecidableEq

structure PollCall where
  sessionKey : String
  userID : String
  pc : PollPc
  deriving DecidableEq

def PollCall.On (c : PollCall) (s : Session) : Prop :=
  match c.pc with
  | .gettingSession => s.sessionKey = c.sessionKey
  | .waiting session | .starting session _ => session = s
  | .validating | .resetting | .returned _ => False

instance (c : PollCall) (s : Session) : Decidable (c.On s) :=
  match c with
  | { pc := .gettingSession, .. } => inferInstanceAs (Decidable (s.sessionKey = _))
  | { pc := .waiting _, .. } | { pc := .starting _ _, .. } => inferInstanceAs (Decidable (_ = s))
  | { pc := .validating, .. } | { pc := .resetting, .. } | { pc := .returned _, .. } => isFalse id

/-- The branch of the `select` that a waiting poll takes; the other steps have one way
to go. -/
inductive PollMove where
  | proceed
  | event
  | done
  | clientGone
  deriving DecidableEq

def pollStep (cfg : SessionConfig) (sh : Shared) (c : PollCall) :
    PollMove → Option (Shared × PollPc)
  | .proceed =>
    match c.pc with
    | .validating =>
      match sh.sessions.validateSession c.sessionKey c.userID with
      | .ok () => some (sh, .resetting)
      | .error _ =>
        some (sh, .returned
          (.unauthorized "unauthorized" "Invalid session or user mismatch"))
    | .resetting =>
      some ({ sh with
        sessions := sh.sessions.resetSessionTimer cfg sh.now c.sessionKey }, .gettingSession)
    | .gettingSession =>
      match sh.sessions.getSession c.sessionKey with
      | .ok session => some (sh, .waiting session)
      | .error _ =>
        some (sh, .returned (.unauthorized "session_not_found" "Session not found"))
    | .starting _ response =>
      some ({ sh with sessions := sh.sessions.startSessionTimer c.sessionKey }, .returned response)
    | .waiting _ | .returned _ => none
  | .event =>
    match c.pc with
    | .waiting session =>
      match (sh.vars session.ref).eventWaiters with
      | some event =>
        some (sh.setEvent session.ref none, .starting session (.event event))
      | none => none
    | _ => none
  | .done =>
    match c.pc with
    | .waiting session =>
      if (sh.vars session.ref).done then
        some (sh, .starting session (.event
          { type := "error", authURL := "", message := "Session expired",
            code := "session_expired" }))
      else none
    | _ => none
  | .clientGone =>
    match c.pc with
    | .waiting session => some (sh, .starting session .cancelled)
    | _ => none

structure Api where
  broker : Broker
  polls : List PollCall
  timerOwner : Nat → Option Nat

inductive ApiAction where
  | broker (action : BrokerAction)
  | longPoll (sessionKey userID : String)
  | poll (call : Nat) (move : PollMove)
  deriving DecidableEq

namespace Api

def init : Api where
  broker := Broker.init
  polls := []
  timerOwner := fun _ => none

def sessions (a : Api) : SessionManager := a.broker.shared.sessions

/-- What the long-polls and the functions of timers do themselves. -/
def ownAction : BrokerAction → Bool
  | .session (.expireSession _) | .session (.resetSessionTimer _ _)
  | .session (.startSessionTimer _) | .receiveEvent _ => true
  | _ => false

def recordOwner (a : Api) (c : PollCall) : Nat → Option Nat :=
  match c.pc with
  | .starting _ _ =>
    match a.sessions.sessions.lookup c.sessionKey with
    | some session => Function.update a.timerOwner a.sessions.nextTimer (some session.ref)
    | none => a.timerOwner
  | _ => a.timerOwner

def step (cfg : BrokerConfig) (a : Api) : ApiAction → Option Api
  | .broker action =>
    if ownAction action then none
    else (Broker.step cfg a.broker action).map fun broker => { a with broker := broker }
  | .longPoll sessionKey userID =>
    some { a with polls := a.polls ++ [⟨sessionKey, userID, .validating⟩] }
  | .poll i move =>
    match a.polls[i]? with
    | none => none
    | some c =>
      (pollStep cfg.session a.broker.shared c move).map fun (shared, pc) =>
        { broker := { a.broker with shared := shared }
          polls := a.polls.set i { c with pc := pc }
          timerOwner := a.recordOwner c }

def system (cfg : BrokerConfig) : System Api ApiAction where
  init := init
  step := step cfg

end Api

variable {cfg : BrokerConfig} {b : Broker}

theorem broker_step_sessions {b' : Broker} {action : BrokerAction}
    (hop : ∀ op, action ≠ .session op) (h : Broker.step cfg b action = some b') :
    b'.shared.sessions = { b.shared.sessions with vars := b'.shared.sessions.vars } := by
  cases step_effect h with
  | @session op => exact absurd rfl (hop op)
  | acquireToken => rfl
  | acquire hget hcall => exact (acquireStep_effect hcall).sessions
  | passive completes hpassive => exact hpassive.sessions

variable {move : PollMove}

theorem pollStep_broker {c : PollCall} {sh : Shared} {pc : PollPc}
    (h : pollStep cfg.session b.shared c move = some (sh, pc)) :
    sh = b.shared ∨ ∃ action, Api.ownAction action = true ∧
      Broker.step cfg b action = some { b with shared := sh } := by
  revert h
  fun_cases pollStep <;> rintro ⟨⟩
  case case3 => exact .inr ⟨.session (.resetSessionTimer b.shared.now c.sessionKey), rfl, rfl⟩
  case case6 => exact .inr ⟨.session (.startSessionTimer c.sessionKey), rfl, rfl⟩
  case case9 session _ _ _ => exact .inr ⟨.receiveEvent session.ref, rfl, rfl⟩
  all_goals exact .inl rfl

variable {a a' : Api}

theorem poll_step {i : Nat} (h : Api.step cfg a (.poll i move) = some a') :
    ∃ c sh pc, a.polls[i]? = some c ∧
      pollStep cfg.session a.broker.shared c move = some (sh, pc) ∧
      a' = { broker := { a.broker with shared := sh },
             polls := a.polls.set i { c with pc := pc }, timerOwner := a.recordOwner c } := by
  simp only [Api.step] at h
  split at h
  · cases h
  next c hget => grind [Option.map_eq_some_iff, Prod.exists]

theorem api_step_broker {action : ApiAction} (h : Api.step cfg a action = some a') :
    a'.broker = a.broker ∨ ∃ act, Broker.step cfg a.broker act = some a'.broker ∧
      (action = .broker act ∨ Api.ownAction act = true) := by
  cases action with
  | broker act => grind [Api.step, Option.map_eq_some_iff]
  | longPoll sessionKey userID =>
    cases h
    exact .inl rfl
  | poll i move =>
    obtain ⟨c, sh, pc, -, hcall, rfl⟩ := poll_step h
    rcases pollStep_broker hcall with rfl | ⟨act, hown, hbroker⟩
    · exact .inl rfl
    · exact .inr ⟨act, hbroker, .inr hown⟩

namespace Api

def lift (G : Broker → BrokerAction → Prop) (a : Api) : ApiAction → Prop
  | .broker action => G a.broker action
  | .longPoll _ _ | .poll _ _ => True

instance (G : Broker → BrokerAction → Prop) [∀ b, DecidablePred (G b)] (a : Api) :
    DecidablePred (lift G a)
  | .broker action => inferInstanceAs (Decidable (G a.broker action))
  | .longPoll _ _ | .poll _ _ => isTrue trivial

theorem invariant_broker {G : Broker → BrokerAction → Prop} {I : Broker → Prop}
    (hinit : I Broker.init)
    (hstep : ∀ b act b', I b → G b act → Broker.step cfg b act = some b' → I b')
    (hown : ∀ b act, ownAction act = true → G b act) {a : Api}
    (h : (system cfg).Reachable (lift G) a) : I a.broker := by
  refine h.invariant (I := fun a => I a.broker) hinit ?_
  intro a action a' ha hguard hnext
  rcases api_step_broker hnext with hsame | ⟨act, hbroker, rfl | hact⟩
  · exact hsame ▸ ha
  · exact hstep a.broker act a'.broker ha hguard hbroker
  · exact hstep a.broker act a'.broker ha (hown a.broker act hact) hbroker

end Api

end Kagenti.TokenBroker
