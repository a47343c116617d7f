import Kagenti.AuthBridge.Parsers
import Kagenti.AuthBridge.SessionStore
import Kagenti.Lib.Entries

/-!
The user intent that guardrails read from a session: the first user text of the pinned A2A request.
The runs carry every event appended to each session.
-/

namespace Kagenti.AuthBridge

open Go Lib.Entries Lib.PinnedBuffer Lib.Transition

/-- The first user text among the fragments of an A2A message. -/
def A2AExtension.userText (a2a : A2AExtension) : String :=
  match a2a.fragments.find? fun f => decide (f.role = roleUser ∧ f.text ≠ "") with
  | some f => f.text
  | none => ""

def extractIntentText (intent : Option SessionEvent) : String :=
  match intent.bind SessionEvent.a2a with
  | some a2a => a2a.userText
  | none => ""

def carriesUserText (e : SessionEvent) : Bool :=
  isIntentEvent e && decide (extractIntentText (some e) ≠ "")

inductive StoreOp where
  | append (sessionID : Bytes) (event : SessionEvent) (now : Int) (order : List Bytes)
  | rekey (oldID newID : Bytes)
  | cleanup (now : Int)

structure Tracked where
  store : Store
  history : Bytes → List SessionEvent

namespace Store

variable (s : Store)

/-- `Rekey` renames a session. -/
def Renames (oldID newID : Bytes) : Prop :=
  ¬(oldID = newID ∨ oldID = [] ∨ newID = []) ∧ oldID ∈ s.sessions ∧
    newID.take maxSessionIDLen ∉ s.sessions

instance (oldID newID : Bytes) : Decidable (s.Renames oldID newID) :=
  inferInstanceAs (Decidable (_ ∧ _))

end Store

namespace Tracked

def apply (s : Tracked) : StoreOp → Option Tracked
  | .append sessionID event now order =>
    let key := sessionID.take maxSessionIDLen
    let past := if key ∈ s.store.sessions then s.history key else []
    if order.Perm (s.store.insertEvent sessionID event now).sessions.keys then
      some
        { store := s.store.append sessionID event now order
          history := Function.update s.history key (past ++ [event]) }
    else none
  | .rekey oldID newID =>
    some
      { store := s.store.rekey oldID newID
        history :=
          if s.store.Renames oldID newID then
            Function.update s.history (newID.take maxSessionIDLen) (s.history oldID)
          else s.history }
  | .cleanup now => some { s with store := s.store.cleanup now }

def system (ttl : Int) (maxEvents maxSessions : Nat) : System Tracked StoreOp where
  init := ⟨.new ttl maxEvents maxSessions, fun _ => []⟩
  step := apply

end Tracked

def lastIntentA2A (events : List SessionEvent) : Option A2AExtension :=
  (lastMatch isIntentEvent events).bind SessionEvent.a2a

structure Entry.Keeps (sess : Entry) (history : List SessionEvent) (maxEvents : Nat) : Prop where
  intent : lastIntentA2A sess.events = lastIntentA2A history
  bounded : 0 < maxEvents → sess.events.length ≤ maxEvents

def Tracked.Pinned (s : Tracked) : Prop :=
  ∀ id sess, s.store.sessions.lookup id = some sess → sess.Keeps (s.history id) s.store.maxEvents

variable (events : List SessionEvent)

theorem lastIntentA2A_concat (e : SessionEvent) :
    lastIntentA2A (events ++ [e]) = if isIntentEvent e then e.a2a else lastIntentA2A events := by
  rw [lastIntentA2A, lastMatch_concat]
  split <;> rfl

theorem lastIntentA2A_stamped (id : Bytes) :
    lastIntentA2A (events.map (SessionEvent.stamp id)) = lastIntentA2A events := by
  have unseen (e : SessionEvent) : isIntentEvent (e.stamp id) = isIntentEvent e := rfl
  rw [lastIntentA2A, lastMatch_map unseen, lastIntentA2A]
  cases lastMatch isIntentEvent events <;> rfl

variable {history : List SessionEvent} (s : Store)

theorem Entry.Keeps.push {sess : Entry} (h : lastIntentA2A sess.events = lastIntentA2A history)
    (event : SessionEvent) (id : Bytes) (maxEvents : Nat) (now : Int) :
    (sess.push (event.stamp id) maxEvents now).Keeps (history ++ [event]) maxEvents where
  intent := by
    have added : lastIntentA2A (sess.events ++ [event.stamp id]) =
        lastIntentA2A (history ++ [event]) := by
      rw [lastIntentA2A_concat, lastIntentA2A_concat, h]
      rfl
    dsimp only [Entry.push]
    split
    · rw [← added, lastIntentA2A, trimEventsPinIntent, lastMatch_trimPinned, lastIntentA2A]
    · exact added
  bounded := by
    intro positive
    dsimp only [Entry.push]
    split
    · exact length_trimPinned_le _ positive
    next within => exact Nat.le_of_not_lt fun exceeds => within ⟨positive, exceeds⟩

/-- A change of the store that only takes sessions away. -/
structure Store.Shrinks (s s' : Store) : Prop where
  lookup : ∀ id sess, s'.sessions.lookup id = some sess → s.sessions.lookup id = some sess
  maxEvents : s'.maxEvents = s.maxEvents

namespace Store

theorem Shrinks.refl : Shrinks s s := ⟨fun _ _ h => h, rfl⟩

theorem Shrinks.trans {s t u : Store} (h : Shrinks s t) (h' : Shrinks t u) : Shrinks s u where
  lookup id sess found := h.lookup id sess (h'.lookup id sess found)
  maxEvents := h'.maxEvents.trans h.maxEvents

theorem shrinks_evictOldest (order : List Bytes) : Shrinks s (s.evictOldest order) := by
  unfold evictOldest
  dsimp only
  split
  · refine ⟨fun id sess found => ?_, rfl⟩
    split at found
    · exact found
    · exact lookup_of_erase found
  · exact ⟨fun id sess found => lookup_of_erase found, rfl⟩

theorem shrinks_cleanupOne (now : Int) (id : Bytes) : Shrinks s (s.cleanupOne now id) := by
  fun_cases cleanupOne with
  | case1 | case3 => exact .refl s
  | case2 => exact ⟨fun _ _ found => lookup_of_erase found, rfl⟩

theorem shrinks_cleanup (now : Int) : Shrinks s (s.cleanup now) := by
  have fold (ids : List Bytes) (t : Store) : Shrinks t (ids.foldl (fun t id => t.cleanupOne now id) t) := by
    induction ids generalizing t with
    | nil => exact .refl t
    | cons id ids ih => exact (shrinks_cleanupOne t now id).trans (ih _)
  exact fold s.sessions.keys s

variable {s : Store} {oldID newID : Bytes}

theorem rekey_of_renames (h : s.Renames oldID newID) :
    ∃ sess, s.sessions.lookup oldID = some sess ∧ s.rekey oldID newID =
      { s with
        sessions :=
          (s.sessions.insert (newID.take maxSessionIDLen)
            { sess with
              id := newID.take maxSessionIDLen
              events := sess.events.map (SessionEvent.stamp (newID.take maxSessionIDLen)) }).erase
            oldID
        activeID := if s.activeID = oldID then newID.take maxSessionIDLen else s.activeID } := by
  obtain ⟨guard, present, free⟩ := h
  obtain ⟨sess, found⟩ := exists_lookup present
  refine ⟨sess, found, ?_⟩
  simp only [rekey, guard, found, free, if_false]

theorem rekey_of_not_renames (h : ¬s.Renames oldID newID) : s.rekey oldID newID = s := by
  unfold rekey
  split
  · rfl
  next guard =>
    split
    · rfl
    next sess found =>
      have taken : newID.take maxSessionIDLen ∈ s.sessions :=
        not_not.mp fun free => h ⟨guard, mem_of_lookup found, free⟩
      exact if_pos taken

end Store

namespace Tracked

def EachSession (R : Bytes → Entry → List SessionEvent → Prop) (s : Tracked) : Prop :=
  ∀ id sess, s.store.sessions.lookup id = some sess → R id sess (s.history id)

structure Maintains (maxEvents : Nat) (R : Bytes → Entry → List SessionEvent → Prop) : Prop where
  fresh : ∀ key now, R key ⟨key, [], now, now⟩ []
  push : ∀ {key sess past}, R key sess past → ∀ event now,
    R key (sess.push (event.stamp key) maxEvents now) (past ++ [event])
  rename : ∀ {old sess past}, R old sess past → ∀ new,
    R new { sess with id := new, events := sess.events.map (SessionEvent.stamp new) } past

variable {R : Bytes → Entry → List SessionEvent → Prop} {s s' : Tracked}

section

variable (h : s.EachSession R)

include h

theorem EachSession.shrink {store : Store} (shrinks : s.store.Shrinks store) :
    EachSession R { s with store := store } :=
  fun id sess found => h id sess (shrinks.lookup id sess found)

theorem EachSession.insert (activeID : Bytes) {key : Bytes} {sess : Entry}
    {past : List SessionEvent} (kept : R key sess past) :
    EachSession R
      { store := { s.store with sessions := s.store.sessions.insert key sess, activeID := activeID }
        history := Function.update s.history key past } := by
  intro id other found
  dsimp only at found ⊢
  rw [lookup_insert] at found
  split at found
  · grind
  next different =>
    rw [Function.update_of_ne different]
    exact h id other found

theorem EachSession.insertEvent (hR : Maintains s.store.maxEvents R) (sessionID : Bytes)
    (event : SessionEvent) (now : Int) : let key := sessionID.take maxSessionIDLen
    let past := if key ∈ s.store.sessions then s.history key else []
    EachSession R
      { store := s.store.insertEvent sessionID event now
        history := Function.update s.history key (past ++ [event]) } := by
  intro key past
  apply h.insert
  apply hR.push
  -- the session so far, or a new one without events, against its history
  cases live : s.store.sessions.lookup key with
  | none =>
    have absent : key ∉ s.store.sessions := AList.lookup_eq_none.mp live
    simpa [past, absent] using hR.fresh key now
  | some old =>
    simpa [past, mem_of_lookup live] using h key old live

theorem EachSession.rekey (hR : Maintains s.store.maxEvents R) (oldID newID : Bytes) :
    EachSession R
      { store := s.store.rekey oldID newID
        history :=
          if s.store.Renames oldID newID then
            Function.update s.history (newID.take maxSessionIDLen) (s.history oldID)
          else s.history } := by
  by_cases renames : s.store.Renames oldID newID
  · obtain ⟨moved, found, renamed⟩ := Store.rekey_of_renames renames
    have kept := hR.rename (h oldID moved found) (newID.take maxSessionIDLen)
    rw [renamed, if_pos renames]
    apply (h.insert s.store.activeID kept).shrink
    exact ⟨fun _ _ => lookup_of_erase, rfl⟩
  · rw [Store.rekey_of_not_renames renames, if_neg renames]
    exact h

end

variable {op : StoreOp}

theorem maxEvents_step (applied : s.apply op = some s') :
    s'.store.maxEvents = s.store.maxEvents := by
  cases op with
  | append sessionID event now order =>
    simp only [apply] at applied
    split at applied
    · obtain rfl := Option.some.inj applied
      unfold Store.append
      dsimp only
      split
      · exact (Store.shrinks_evictOldest _ order).maxEvents
      · rfl
    · contradiction
  | rekey oldID newID =>
    obtain rfl := Option.some.inj applied
    by_cases renames : s.store.Renames oldID newID
    · obtain ⟨moved, found, renamed⟩ := Store.rekey_of_renames renames
      rw [renamed]
    · rw [Store.rekey_of_not_renames renames]
  | cleanup now =>
    obtain rfl := Option.some.inj applied
    exact (Store.shrinks_cleanup s.store now).maxEvents

theorem EachSession.step (h : s.EachSession R) (hR : Maintains s.store.maxEvents R)
    (applied : s.apply op = some s') : s'.EachSession R := by
  cases op with
  | append sessionID event now order =>
    simp only [apply] at applied
    split at applied
    · obtain rfl := Option.some.inj applied
      have inserted := h.insertEvent hR sessionID event now
      unfold Store.append
      dsimp only
      split
      · exact inserted.shrink (Store.shrinks_evictOldest _ order)
      · exact inserted
    · contradiction
  | rekey oldID newID =>
    obtain rfl := Option.some.inj applied
    exact h.rekey hR oldID newID
  | cleanup now =>
    obtain rfl := Option.some.inj applied
    exact h.shrink (Store.shrinks_cleanup s.store now)

variable {ttl : Int} {maxEvents maxSessions : Nat}

theorem eachSession_of_reachable (hR : Maintains maxEvents R)
    (h : (system ttl maxEvents maxSessions).Reachable System.anyAction s) :
    s.store.maxEvents = maxEvents ∧ s.EachSession R := by
  refine h.invariant (I := fun s => s.store.maxEvents = maxEvents ∧ s.EachSession R)
    ⟨rfl, fun id sess found => by contradiction⟩ ?_
  intro s op s' inv _ applied
  refine ⟨(maxEvents_step applied).trans inv.1, inv.2.step ?_ applied⟩
  rw [inv.1]
  exact hR

theorem maintains_keeps (maxEvents : Nat) :
    Maintains maxEvents fun _ sess past => sess.Keeps past maxEvents where
  fresh key now := ⟨rfl, fun _ => Nat.zero_le maxEvents⟩
  push kept event now := .push kept.intent event _ maxEvents now
  rename kept new :=
    { intent := (lastIntentA2A_stamped _ _).trans kept.intent
      bounded := fun positive => by simpa using kept.bounded positive }

theorem pinned_of_reachable (h : (system ttl maxEvents maxSessions).Reachable System.anyAction s) :
    s.Pinned := by
  obtain ⟨bound, kept⟩ := eachSession_of_reachable (maintains_keeps maxEvents) h
  intro id sess found
  rw [bound]
  exact kept id sess found

end Tracked

/-! The log of a session -/

def Tracked.log (s : Tracked) (id : Bytes) : List SessionEvent :=
  (s.history id).map (SessionEvent.stamp id)

theorem Entry.events_push (sess : Entry) (event : SessionEvent) (maxEvents : Nat) (now : Int) :
    (sess.push event maxEvents now).events =
      trimPinned isIntentEvent (sess.events ++ [event]) maxEvents := by
  dsimp only [Entry.push]
  split
  · rfl
  next within => rw [trimPinned, if_pos (by omega)]

theorem Tracked.maintains_shows {maxEvents : Nat} (positive : 0 < maxEvents) :
    Maintains maxEvents fun id sess past =>
      Shows isIntentEvent maxEvents (past.map (SessionEvent.stamp id)) sess.events where
  fresh _ _ := .empty maxEvents
  push shows event now := by
    rw [Entry.events_push, List.map_append]
    exact shows.push positive _
  rename shows new := by
    have restamped := shows.map (f := SessionEvent.stamp new) fun _ => rfl
    rwa [List.map_map] at restamped

/-- In every run of a store with a bound on events, every session that can be viewed has the
last intent of its log, keeps the bound, holds events of the log in their order, and ends
with the newest of them. -/
theorem view_shows_log {ttl : Int} {maxEvents maxSessions : Nat} (positive : 1 ≤ maxEvents)
    {s : Tracked}
    (reachable : (Tracked.system ttl maxEvents maxSessions).Reachable System.anyAction s)
    {id : Bytes} {now : Int} {v : SessionView} (viewed : s.store.view id now = some v) :
    v.lastIntent = SessionView.lastIntent ⟨id, s.log id⟩ ∧
      v.events.length ≤ maxEvents ∧ v.events.Sublist (s.log id) ∧
      (s.log id).drop ((s.log id).length - (maxEvents - 1)) <:+ v.events := by
  unfold Store.view at viewed
  split at viewed
  · contradiction
  next sess found =>
    split at viewed
    · contradiction
    · obtain rfl := Option.some.inj viewed
      have shows := (Tracked.eachSession_of_reachable (Tracked.maintains_shows positive)
        reachable).2 id sess found
      exact ⟨shows.last, shows.bounded, shows.inOrder, shows.newest⟩

def messageEvent : SessionEvent where
  direction := .inbound
  phase := .request
  a2a := some ⟨"message/send", .null, "", "", "", "user", [], "", "", "", true⟩

def outboundEvent : SessionEvent where
  direction := .outbound
  phase := .request

/-- With room for two events, the message is still there behind two tool calls. -/
theorem view_shows_message :
    ∃ s v, (Tracked.system 600 2 0).Reachable System.anyAction s ∧
      s.store.view (bytes "ctx") 3 = some v ∧ (s.log (bytes "ctx")).length = 3 ∧
      v.lastIntent = SessionView.lastIntent ⟨bytes "ctx", s.log (bytes "ctx")⟩ ∧
      v.events.length ≤ 2 := by
  obtain ⟨s, ran, v, viewed, length⟩ : ∃ s ∈ (Tracked.system 600 2 0).run System.anyAction
      [.append (bytes "ctx") messageEvent 0 [bytes "ctx"],
        .append (bytes "ctx") outboundEvent 1 [bytes "ctx"],
        .append (bytes "ctx") outboundEvent 2 [bytes "ctx"]],
      ∃ v ∈ s.store.view (bytes "ctx") 3, (s.log (bytes "ctx")).length = 3 := by
    decide +kernel
  have reachable := System.reachable_of_run _ ran
  obtain ⟨last, bounded, -, -⟩ := view_shows_log (by decide) reachable viewed
  exact ⟨s, v, reachable, viewed, length, last, bounded⟩

theorem extractIntentText_lastMatch :
    extractIntentText (lastMatch isIntentEvent events) =
      match lastIntentA2A events with
      | some a2a => a2a.userText
      | none => "" := rfl

/-- The text that `extractIntentText` reads from the last inbound request with a user text. -/
def latestUserText (history : List SessionEvent) : String :=
  extractIntentText (lastMatch carriesUserText history)

theorem extractIntentText_eq_latest_iff (spoken : ∃ e ∈ history, carriesUserText e = true) :
    extractIntentText (lastMatch isIntentEvent history) = latestUserText history ↔
      (lastMatch isIntentEvent history).any carriesUserText = true := by
  have isIntent (e : SessionEvent) (h : carriesUserText e = true) : isIntentEvent e = true :=
    (Bool.and_eq_true_iff.mp h).1
  obtain ⟨latest, hlatest⟩ := lastMatch_isSome spoken
  obtain ⟨last, hlast⟩ : ∃ e, lastMatch isIntentEvent history = some e := by
    obtain ⟨e, member, he⟩ := spoken
    exact lastMatch_isSome ⟨e, member, isIntent e he⟩
  have nonempty : extractIntentText (some latest) ≠ "" := by
    obtain ⟨-, -, -, carries, -⟩ := exists_split_of_lastMatch hlatest
    exact of_decide_eq_true (Bool.and_eq_true_iff.mp carries).2
  rw [latestUserText, hlast, hlatest, Option.any_some]
  constructor
  · intro same
    obtain ⟨-, -, -, intent, -⟩ := exists_split_of_lastMatch hlast
    rw [carriesUserText, intent, same]
    simpa using nonempty
  · intro carries
    have same := lastMatch_of_imp isIntent hlast carries
    rw [hlatest] at same
    rw [Option.some.inj same]

/-- In every run of a store, for every session that can be viewed and in whose history
some inbound A2A request carries a user text: the intent text of the session is the text
of the last such request exactly if the last inbound A2A request carries a user text. -/
theorem intentText_latest_iff {ttl : Int} {maxEvents maxSessions : Nat} {s : Tracked}
    (reachable : (Tracked.system ttl maxEvents maxSessions).Reachable System.anyAction s)
    {id : Bytes} {now : Int} {v : SessionView} (viewed : s.store.view id now = some v)
    (spoken : ∃ e ∈ s.history id, carriesUserText e = true) :
    extractIntentText v.lastIntent = latestUserText (s.history id) ↔
      (lastMatch isIntentEvent (s.history id)).any carriesUserText = true := by
  have stored : extractIntentText v.lastIntent =
      extractIntentText (lastMatch isIntentEvent (s.history id)) := by
    unfold Store.view at viewed
    split at viewed
    · contradiction
    next sess found =>
      split at viewed
      · contradiction
      · obtain rfl := Option.some.inj viewed
        have kept := Tracked.pinned_of_reachable reachable id sess found
        rw [SessionView.lastIntent, extractIntentText_lastMatch, kept.intent,
          extractIntentText_lastMatch]
  rw [stored]
  exact extractIntentText_eq_latest_iff spoken

def inboundA2A (body : String) : Context :=
  a2aParserOnRequest (.ofRequest .inbound "POST" "http" "agent:8080" (bytes "/") ∅ (bytes body))

theorem inboundA2A_eq (body : String) : inboundA2A body = a2aParserOnRequest
    (.ofRequest .inbound "POST" "http" "agent:8080" (bytes "/") ∅ body.toByteArray.data.toList) := by
  rw [inboundA2A, bytes_eq_toByteArray body]

def userMessage : Context :=
  inboundA2A ("\x7b\"method\":\"message/send\",\"params\":\x7b\"message\":\x7b\"role\":\"user\"," ++
    "\"parts\":[\x7b\"kind\":\"text\",\"text\":\"send the report\"\x7d]\x7d\x7d\x7d")

def taskQuery : Context :=
  inboundA2A "\x7b\"method\":\"tasks/get\",\"params\":\x7b\"id\":\"t1\"\x7d\x7d"

def recordOp (pctx : Context) (now : Int) : StoreOp :=
  .append (inboundSessionID pctx) (inboundRequestEvent pctx) now [defaultSessionID]

def saying (text : String) : SessionEvent :=
  { messageEvent with
    a2a := some ⟨"message/send", .null, "", "", "", "user", [⟨"text", text⟩], "", "", "", true⟩ }

/-- Two user messages and two outbound requests, with room for two events. -/
theorem intentText_latest_userMessage :
    ∃ s v, (Tracked.system 600 2 0).Reachable System.anyAction s ∧
      s.store.view (bytes "ctx") 4 = some v ∧ (s.history (bytes "ctx")).length = 4 ∧
      v.events.length = 2 ∧ latestUserText (s.history (bytes "ctx")) = "and print it" ∧
      extractIntentText v.lastIntent = latestUserText (s.history (bytes "ctx")) := by
  obtain ⟨s, ran, v, viewed, length, trimmed, text, spoken, last⟩ :
      ∃ s ∈ (Tracked.system 600 2 0).run System.anyAction
        ([saying "send the report", saying "and print it", outboundEvent, outboundEvent].map
          fun event => .append (bytes "ctx") event 0 [bytes "ctx"]),
      ∃ v ∈ s.store.view (bytes "ctx") 4, (s.history (bytes "ctx")).length = 4 ∧
        v.events.length = 2 ∧ latestUserText (s.history (bytes "ctx")) = "and print it" ∧
        (∃ e ∈ s.history (bytes "ctx"), carriesUserText e = true) ∧
        (lastMatch isIntentEvent (s.history (bytes "ctx"))).any carriesUserText = true := by
    decide +kernel
  have reachable := System.reachable_of_run _ ran
  exact ⟨s, v, reachable, viewed, length, trimmed, text,
    (intentText_latest_iff reachable viewed spoken).mpr last⟩

/-- A task query after the user message empties the intent text. -/
theorem intentText_emptied_by_taskQuery :
    ∃ s, (Tracked.system 600 100 0).Reachable System.anyAction s ∧
      ((s.store.view defaultSessionID 2).any fun v =>
        extractIntentText v.lastIntent = "" &&
        latestUserText (s.history defaultSessionID) = "send the report") = true := by
  apply System.exists_reachable_of_run [recordOp userMessage 0, recordOp taskQuery 1]
  rw [userMessage, taskQuery, inboundA2A_eq, inboundA2A_eq]
  decide +kernel

end Kagenti.AuthBridge
