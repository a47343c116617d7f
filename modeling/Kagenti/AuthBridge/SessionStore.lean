import Kagenti.AuthBridge.Context
import Kagenti.Lib.Transition

/-!
The in-memory session store of a sidecar (`session/store.go`). Session ids are byte
strings, because a long id is cut at a byte. Subscribers and logging are left out.
-/

namespace Kagenti.AuthBridge

open Go Lib.PinnedBuffer

structure Entry where
  id : Bytes
  events : List SessionEvent
  createdAt : Int
  updatedAt : Int

/-- The store. A bound of zero on events or sessions means no bound. -/
structure Store where
  sessions : AList fun _ : Bytes => Entry
  ttl : Int
  maxEvents : Nat
  maxSessions : Nat
  activeID : Bytes

def maxSessionIDLen : Nat := 256

def defaultSessionID : Bytes := bytes "default"

def trimEventsPinIntent (events : List SessionEvent) (maxEvents : Nat) : List SessionEvent :=
  trimPinned isIntentEvent events maxEvents

def SessionEvent.stamp (sessionID : Bytes) (event : SessionEvent) : SessionEvent :=
  { event with sessionID := sessionID }

/-- An event added to a session at time `now`, with the bound on events enforced. -/
def Entry.push (sess : Entry) (event : SessionEvent) (maxEvents : Nat) (now : Int) : Entry :=
  let events := sess.events ++ [event]
  { sess with
    events :=
      if 0 < maxEvents ∧ maxEvents < events.length then trimEventsPinIntent events maxEvents
      else events
    updatedAt := now }

namespace Store

def new (ttl : Int) (maxEvents maxSessions : Nat) : Store :=
  ⟨∅, ttl, maxEvents, maxSessions, []⟩

variable (s : Store)

def isExpired (sess : Entry) (now : Int) : Bool := decide (s.ttl < now - sess.updatedAt)

def insertEvent (sessionID : Bytes) (event : SessionEvent) (now : Int) : Store :=
  let sessionID := sessionID.take maxSessionIDLen
  let sess := (s.sessions.lookup sessionID).getD ⟨sessionID, [], now, now⟩
  let sess := sess.push (event.stamp sessionID) s.maxEvents now
  { s with sessions := s.sessions.insert sessionID sess, activeID := sessionID }

/-- The scan of `evictOldestLocked` for the session updated longest ago, in the order in
which Go happens to iterate over the map. An empty id stands for no candidate. -/
def oldest (order : List Bytes) : Bytes :=
  (order.foldl (fun (oldestID, oldestTime) id =>
    match s.sessions.lookup id with
    | none => (oldestID, oldestTime)
    | some sess =>
      if id = s.activeID then (oldestID, oldestTime)
      else if oldestID = [] ∨ sess.updatedAt < oldestTime then (id, sess.updatedAt)
      else (oldestID, oldestTime)) (([] : Bytes), (0 : Int))).1

def evictOldest (order : List Bytes) : Store :=
  let oldestID := s.oldest order
  if oldestID = [] then
    -- no other session: the active one goes
    { s with
      sessions := if s.activeID = [] then s.sessions else s.sessions.erase s.activeID
      activeID := [] }
  else { s with sessions := s.sessions.erase oldestID }

def append (sessionID : Bytes) (event : SessionEvent) (now : Int) (order : List Bytes) : Store :=
  let s := s.insertEvent sessionID event now
  if 0 < s.maxSessions ∧ s.maxSessions < s.sessions.keys.length then s.evictOldest order else s

def view (sessionID : Bytes) (now : Int) : Option SessionView :=
  match s.sessions.lookup sessionID with
  | none => none
  | some sess => if s.isExpired sess now then none else some ⟨sessionID, sess.events⟩

def activeSession (now : Int) : Bytes :=
  if s.activeID = [] then []
  else
    match s.sessions.lookup s.activeID with
    | none => []
    | some sess => if s.isExpired sess now then [] else s.activeID

def rekey (oldID newID : Bytes) : Store :=
  if oldID = newID ∨ oldID = [] ∨ newID = [] then s
  else
    let newID := newID.take maxSessionIDLen
    match s.sessions.lookup oldID with
    | none => s
    | some sess =>
      if newID ∈ s.sessions then s
      else
        let events := sess.events.map (SessionEvent.stamp newID)
        { s with
          sessions :=
            (s.sessions.insert newID { sess with id := newID, events := events }).erase oldID
          activeID := if s.activeID = oldID then newID else s.activeID }

def cleanupOne (now : Int) (id : Bytes) : Store :=
  match s.sessions.lookup id with
  | none => s
  | some sess =>
    if s.isExpired sess now then
      { s with
        sessions := s.sessions.erase id
        activeID := if s.activeID = id then [] else s.activeID }
    else s

def cleanup (now : Int) : Store := s.sessions.keys.foldl (fun s id => s.cleanupOne now id) s

end Store

def inboundSessionID (pctx : Context) : Bytes :=
  match pctx.extensions.a2a with
  | some a2a => if a2a.sessionID ≠ "" then bytes a2a.sessionID else defaultSessionID
  | none => defaultSessionID

/-- The event that `recordInboundSession` appends for an accepted inbound request. -/
def inboundRequestEvent (pctx : Context) : SessionEvent where
  direction := .inbound
  phase := .request
  a2a := pctx.extensions.a2a

end Kagenti.AuthBridge
