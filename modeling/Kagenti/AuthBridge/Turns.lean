import Kagenti.AuthBridge.ResponseParsers
import Kagenti.AuthBridge.SessionBuckets

/-!
The turns of inbound A2A conversations as the listeners record them. Public entries of
`Extensions.Custom`, which let an event without A2A data be recorded, are left out.
-/

namespace Kagenti.AuthBridge

open Go Lib.Entries Lib.PinnedBuffer Lib.Transition

/-! Recording -/

def Context.observable (pctx : Context) : Bool :=
  pctx.extensions.a2a.isSome || !pctx.extensions.invocations.inbound.isEmpty ||
    !pctx.extensions.invocations.outbound.isEmpty

def inboundResponseEvent (pctx : Context) : SessionEvent where
  direction := .inbound
  phase := .response
  a2a := pctx.extensions.a2a

section Listeners

variable (s : Store) (pctx : Context) (now : Int) (order : List Bytes)

/-- `recordInboundSession` of ext_proc, and the block of the reverse proxy's `handleRequest`
that mirrors it. -/
def recordInboundSession : Store :=
  if pctx.observable then s.append (inboundSessionID pctx) (inboundRequestEvent pctx) now order
  else s

/-- `rekeyInboundSession` of ext_proc, in the direction inbound. -/
def rekeyInboundSession : Store :=
  match pctx.extensions.a2a with
  | none => s
  | some a2a =>
    if a2a.sessionID = "" ∨ bytes a2a.sessionID = defaultSessionID then s
    else s.rekey defaultSessionID (bytes a2a.sessionID)

def recordInboundResponseSession : Store :=
  if pctx.observable then s.append (inboundSessionID pctx) (inboundResponseEvent pctx) now order
  else s

def recordExtProc : Store :=
  recordInboundResponseSession (rekeyInboundSession s pctx) pctx now order

/-- The end of the reverse proxy's `modifyResponse`, for a response that is not streamed. -/
def recordBuffered : Store :=
  let s :=
    match pctx.extensions.a2a with
    | some a2a =>
      if a2a.sessionID ≠ "" ∧ bytes a2a.sessionID ≠ defaultSessionID then
        s.rekey defaultSessionID (bytes a2a.sessionID)
      else s
    | none => s
  if pctx.observable then s.append (inboundSessionID pctx) (inboundResponseEvent pctx) now order
  else s

/-- `recordInboundResponseEvent` of the reverse proxy, at the close of a streamed response. -/
def recordInboundResponseEvent : Store :=
  if !pctx.observable then s
  else
    let sid := inboundSessionID pctx
    let s :=
      match pctx.extensions.a2a with
      | some a2a =>
        if a2a.sessionID ≠ "" ∧ bytes a2a.sessionID ≠ defaultSessionID then
          s.rekey defaultSessionID (bytes a2a.sessionID)
        else s
      | none => s
    s.append sid (inboundResponseEvent pctx) now order

inductive ResponsePath where
  | reverseBuffered
  | reverseStreamed
  | extProc
  deriving DecidableEq

def ResponsePath.record : ResponsePath → Store
  | .reverseBuffered => recordBuffered s pctx now order
  | .reverseStreamed => recordInboundResponseEvent s pctx now order
  | .extProc => recordExtProc s pctx now order

theorem ResponsePath.record_eq (path : ResponsePath) :
    path.record s pctx now order =
      recordInboundResponseSession (rekeyInboundSession s pctx) pctx now order := by
  have renamed : rekeyInboundSession s pctx =
      match pctx.extensions.a2a with
      | some a2a =>
        if a2a.sessionID ≠ "" ∧ bytes a2a.sessionID ≠ defaultSessionID then
          s.rekey defaultSessionID (bytes a2a.sessionID)
        else s
      | none => s := by
    unfold rekeyInboundSession
    cases pctx.extensions.a2a with
    | none => rfl
    | some a2a =>
      exact (ite_not ..).symm.trans (if_congr not_or rfl rfl)
  cases path with
  | reverseBuffered => rw [renamed]; rfl
  | extProc => rfl
  | reverseStreamed =>
    unfold ResponsePath.record recordInboundResponseEvent recordInboundResponseSession
    rw [renamed]
    cases observed : pctx.observable with
    | true => rfl
    | false =>
      have silent : pctx.extensions.a2a = none := by
        simp only [Context.observable, Bool.or_eq_false_iff] at observed
        exact Option.isNone_iff_eq_none.mp (by simpa using observed.1.1)
      simp [silent]

end Listeners

/-! A rename loses no event -/

def Store.recorded (s : Store) : List SessionEvent :=
  s.sessions.entries.flatMap fun entry => entry.2.events.map (SessionEvent.stamp [])

theorem Store.recorded_rekey (s : Store) (oldID newID : Bytes) :
    (s.rekey oldID newID).recorded.Perm s.recorded := by
  by_cases renames : s.Renames oldID newID
  · obtain ⟨moved, found, eq⟩ := rekey_of_renames renames
    obtain ⟨-, present, free⟩ := renames
    have different : oldID ≠ newID.take maxSessionIDLen := fun same => free (same ▸ present)
    -- the bucket stands between those that stay
    obtain ⟨sess, front, back, -, split, rest⟩ :=
      List.exists_of_kerase (AList.mem_keys.mp present)
    have same : sess = moved := by
      have stored : sess ∈ s.sessions.lookup oldID :=
        AList.mem_lookup_iff.mpr (by rw [split]; simp)
      rw [found] at stored
      exact (Option.some.inj stored).symm
    have unnamed : (moved.events.map (SessionEvent.stamp (newID.take maxSessionIDLen))).map
        (SessionEvent.stamp []) = moved.events.map (SessionEvent.stamp []) := by
      rw [List.map_map]
      rfl
    unfold recorded
    rw [eq]
    dsimp only [AList.erase]
    rw [AList.entries_insert_of_notMem free, List.kerase_cons_ne different, rest, split]
    simp only [List.flatMap_cons, List.flatMap_append, unnamed, same]
    exact List.perm_append_comm_assoc _ _ _
  · rw [rekey_of_not_renames renames]

/-! What a response reveals -/

def respondedWith (pctx : Context) (calls : List (Bytes × Bool)) : Context :=
  calls.foldl (fun pctx call => a2aParserOnResponseFrame call.1 call.2 pctx) pctx

def revealedID (calls : List (Bytes × Bool)) : String :=
  ((calls.map fun call => sessionIDFromJSON call.1).find? (· ≠ "")).getD ""

variable {ext : A2AExtension}

theorem sessionID_of_extractSendResponse {body : Bytes} {ext' : A2AExtension}
    (h : extractSendResponse body ext = some ext') : ext'.sessionID = ext.sessionID := by
  revert h
  fun_cases extractSendResponse <;> rintro ⟨⟩
  rfl

theorem sessionID_extractStreamEvent (data : Bytes) (ext : A2AExtension) :
    (extractStreamEvent data ext).sessionID = ext.sessionID := by
  fun_cases extractStreamEvent data ext <;> rfl

theorem sessionID_adoptSessionID (ext : A2AExtension) (found : String) :
    (ext.adoptSessionID found).sessionID = if ext.sessionID = "" then found else ext.sessionID := by
  unfold A2AExtension.adoptSessionID
  grind

theorem sessionIDFromJSON_nil : sessionIDFromJSON [] = "" := by
  decide +kernel

theorem revealedID_cons (call : Bytes × Bool) (rest : List (Bytes × Bool)) :
    revealedID (call :: rest) =
      if sessionIDFromJSON call.1 = "" then revealedID rest else sessionIDFromJSON call.1 := by
  unfold revealedID
  rw [List.map_cons, List.find?_cons]
  grind

theorem sessionID_foldFrame (ext : A2AExtension) (frame : Bytes) :
    (ext.foldFrame frame).sessionID =
      if ext.sessionID = "" then sessionIDFromJSON frame else ext.sessionID := by
  unfold A2AExtension.foldFrame
  split
  next empty =>
    rw [empty, sessionIDFromJSON_nil]
    split
    · assumption
    · rfl
  · have kept : ((extractSendResponse frame ext).getD (extractStreamEvent frame ext)).sessionID =
        ext.sessionID := by
      cases sent : extractSendResponse frame ext with
      | none => exact sessionID_extractStreamEvent frame ext
      | some ext' => exact sessionID_of_extractSendResponse sent
    rw [sessionID_adoptSessionID, kept]

variable {pctx : Context}

theorem a2a_respondedWith (h : pctx.extensions.a2a = some ext) (calls : List (Bytes × Bool)) :
    ∃ ext', (respondedWith pctx calls).extensions.a2a = some ext' ∧
      ext'.sessionID = if ext.sessionID = "" then revealedID calls else ext.sessionID := by
  induction calls generalizing pctx ext with
  | nil =>
    refine ⟨ext, h, ?_⟩
    split
    · assumption
    · rfl
  | cons call rest ih =>
    obtain ⟨ext', found, id⟩ := ih (a2a_onResponseFrame h call.1 call.2)
    refine ⟨ext', found, ?_⟩
    rw [id, sessionID_foldFrame, revealedID_cons]
    grind

/-! Turns -/

structure Turns where
  store : Store
  clock : Int
  pending : Option Context
  finished : Option (Bytes × SessionEvent × SessionEvent)

inductive TurnOp where
  | request (pctx : Context) (now : Int) (order : List Bytes)
  | response (path : ResponsePath) (calls : List (Bytes × Bool)) (now : Int) (order : List Bytes)
  | cleanup (now : Int)

namespace Turns

def apply (s : Turns) : TurnOp → Option Turns
  | .request pctx now order =>
    let event := inboundRequestEvent pctx
    if s.pending.isNone ∧ pctx.extensions.a2a.isSome ∧ s.clock ≤ now ∧
        order.Perm (s.store.insertEvent (inboundSessionID pctx) event now).sessions.keys then
      some ⟨recordInboundSession s.store pctx now order, now, some pctx, none⟩
    else none
  | .response path calls now order =>
    match s.pending with
    | none => none
    | some before =>
      let pctx := respondedWith before calls
      let event := inboundResponseEvent pctx
      if s.clock ≤ now ∧ order.Perm ((rekeyInboundSession s.store pctx).insertEvent
          (inboundSessionID pctx) event now).sessions.keys then
        some
          { store := path.record s.store pctx now order
            clock := now
            pending := none
            finished :=
              some (bucketKey (inboundSessionID pctx), inboundRequestEvent before, event) }
      else none
  | .cleanup now =>
    if s.pending.isNone ∧ s.clock ≤ now then some ⟨s.store.cleanup now, now, none, none⟩
    else none

def system (ttl : Int) (maxEvents maxSessions : Nat) (start : Int) : System Turns TurnOp where
  init := ⟨.new ttl maxEvents maxSessions, start, none, none⟩
  step := apply

def Together (s : Turns) : Prop :=
  ∀ key request response, s.finished = some (key, request, response) →
    ∃ sess, s.store.sessions.lookup key = some sess ∧
      [request.stamp key, response.stamp key] <:+ sess.events

def Placed (store : Store) (pctx : Context) (calls : List (Bytes × Bool)) : Prop :=
  (∃ a2a ∈ pctx.extensions.a2a, a2a.sessionID ≠ "") ∨
    revealedID calls = "" ∨ bytes (revealedID calls) = defaultSessionID ∨
    bucketKey (bytes (revealedID calls)) ∉ store.sessions

def Guarded (s : Turns) : TurnOp → Prop
  | .response _ calls _ _ =>
    s.store.maxEvents ≠ 1 ∧ ∀ pctx ∈ s.pending, Placed s.store pctx calls
  | _ => s.store.maxEvents ≠ 1

instance (store : Store) (pctx : Context) (calls : List (Bytes × Bool)) :
    Decidable (Placed store pctx calls) :=
  inferInstanceAs (Decidable (_ ∨ _))

instance (s : Turns) : DecidablePred s.Guarded := by
  intro action
  unfold Guarded
  split <;> infer_instance

end Turns

/-! Where the request is -/

def Store.EndsWith (s : Store) (key : Bytes) (event : SessionEvent) : Prop :=
  ∃ sess, s.sessions.lookup key = some sess ∧ sess.events.getLast? = some (event.stamp key)

variable {a2a : A2AExtension}

theorem inboundSessionID_eq (h : pctx.extensions.a2a = some a2a) :
    inboundSessionID pctx = if a2a.sessionID = "" then defaultSessionID else bytes a2a.sessionID := by
  unfold inboundSessionID
  rw [h]
  exact ite_not ..

theorem rekeyInboundSession_eq (s : Store) (h : pctx.extensions.a2a = some a2a) :
    rekeyInboundSession s pctx =
      if a2a.sessionID = "" ∨ bytes a2a.sessionID = defaultSessionID then s
      else s.rekey defaultSessionID (bytes a2a.sessionID) := by
  unfold rekeyInboundSession
  rw [h]

theorem inboundSessionID_ne_nil (pctx : Context) : inboundSessionID pctx ≠ [] := by
  fun_cases inboundSessionID with
  | case1 _ _ named => exact bytes_ne_nil named
  | case2 | case3 => decide

variable {s : Store}

theorem endsWith_rekey {event : SessionEvent} {id : Bytes} (h : s.EndsWith defaultSessionID event)
    (nonempty : id ≠ []) (other : id ≠ defaultSessionID) (free : bucketKey id ∉ s.sessions) :
    (s.rekey defaultSessionID id).EndsWith (bucketKey id) event := by
  obtain ⟨sess, stored, last⟩ := h
  have present := mem_of_lookup stored
  have different : bucketKey id ≠ defaultSessionID := fun same => free (same ▸ present)
  have moves := Store.moves_rekey (by decide) nonempty present free other.symm
  refine ⟨Store.renamed sess (bucketKey id), ?_, ?_⟩
  · rw [moves, if_neg different, if_pos rfl, stored]
    rfl
  · have restamped : (Store.renamed sess (bucketKey id)).events =
        sess.events.map (SessionEvent.stamp (bucketKey id)) := rfl
    rw [restamped, List.getLast?_map, last]
    rfl

theorem rekey_of_taken {oldID newID : Bytes} (taken : bucketKey newID ∈ s.sessions) :
    s.rekey oldID newID = s :=
  Store.rekey_of_not_renames fun renames => renames.2.2 taken

theorem Store.maxEvents_rekey (s : Store) (oldID newID : Bytes) :
    (s.rekey oldID newID).maxEvents = s.maxEvents := by
  by_cases renames : s.Renames oldID newID
  · obtain ⟨_, _, eq⟩ := Store.rekey_of_renames renames
    rw [eq]
  · rw [Store.rekey_of_not_renames renames]

theorem endsWith_rekeyInboundSession {calls : List (Bytes × Bool)}
    (a2a : pctx.extensions.a2a.isSome)
    (h : s.EndsWith (bucketKey (inboundSessionID pctx)) (inboundRequestEvent pctx))
    (placed : Turns.Placed s pctx calls) :
    (rekeyInboundSession s (respondedWith pctx calls)).EndsWith
      (bucketKey (inboundSessionID (respondedWith pctx calls))) (inboundRequestEvent pctx) := by
  obtain ⟨ext, requested⟩ := Option.isSome_iff_exists.mp a2a
  obtain ⟨ext', responded, id⟩ := a2a_respondedWith requested calls
  rw [rekeyInboundSession_eq s responded, inboundSessionID_eq responded, id]
  rw [inboundSessionID_eq requested] at h
  by_cases unnamed : ext.sessionID = ""
  · rw [if_pos unnamed] at h ⊢
    by_cases silent : revealedID calls = ""
    · rwa [if_pos (.inl silent), if_pos silent]
    · rw [if_neg silent]
      by_cases default : bytes (revealedID calls) = defaultSessionID
      · rwa [if_pos (.inr default), default]
      · rw [if_neg (not_or.mpr ⟨silent, default⟩)]
        have free : bucketKey (bytes (revealedID calls)) ∉ s.sessions := by
          rcases placed with ⟨ext'', found, named⟩ | placed
          · rw [requested] at found
            exact absurd (Option.some.inj found ▸ unnamed) named
          · exact (placed.resolve_left silent).resolve_left default
        exact endsWith_rekey h (bytes_ne_nil silent) default free
  · -- the request has named the bucket, so there is nothing to rename it to
    rw [if_neg unnamed] at h ⊢
    rw [if_neg unnamed]
    split
    · exact h
    · obtain ⟨sess, stored, last⟩ := h
      rw [rekey_of_taken (mem_of_lookup stored)]
      exact ⟨sess, stored, last⟩

theorem maxEvents_rekeyInboundSession (s : Store) (pctx : Context) :
    (rekeyInboundSession s pctx).maxEvents = s.maxEvents := by
  fun_cases rekeyInboundSession with
  | case1 | case2 => rfl
  | case3 => exact s.maxEvents_rekey _ _

/-! Runs of turns -/

namespace Turns

def clocked (s : Turns) : Clocked := ⟨s.store, s.clock⟩

structure Inv (maxSessions : Nat) (s : Turns) : Prop where
  clocked : s.clocked.Inv maxSessions
  pending : ∀ pctx, s.pending = some pctx → pctx.extensions.a2a.isSome ∧
    s.store.EndsWith (bucketKey (inboundSessionID pctx)) (inboundRequestEvent pctx)
  together : s.Together

variable {maxSessions : Nat} {s s' : Turns}

theorem together_of_unfinished (h : s.finished = none) : s.Together := by
  intro key request response finished
  rw [h] at finished
  cases finished

variable {pctx : Context}

theorem observable_of_a2a (h : pctx.extensions.a2a.isSome) : pctx.observable = true := by
  simp [Context.observable, h]

theorem room_of_ne_one {n : Nat} (h : n ≠ 1) : n = 0 ∨ 2 ≤ n := by omega

theorem clockedInv_rekeyInboundSession {s : Clocked} (h : s.Inv maxSessions) (pctx : Context) :
    Clocked.Inv maxSessions ⟨rekeyInboundSession s.store pctx, s.clock⟩ := by
  fun_cases rekeyInboundSession with
  | case1 | case2 => exact h
  | case3 => exact h.rekey _ _

variable {now : Int} {order : List Bytes}

theorem Inv.request (h : Inv maxSessions s) (room : s.store.maxEvents ≠ 1)
    (a2a : pctx.extensions.a2a.isSome) (later : s.clock ≤ now)
    (perm : order.Perm (s.store.insertEvent (inboundSessionID pctx) (inboundRequestEvent pctx)
      now).sessions.keys) :
    Inv maxSessions ⟨recordInboundSession s.store pctx now order, now, some pctx, none⟩ := by
  have recorded : recordInboundSession s.store pctx now order =
      s.store.append (inboundSessionID pctx) (inboundRequestEvent pctx) now order :=
    if_pos (observable_of_a2a a2a)
  have nonempty := inboundSessionID_ne_nil pctx
  have written := (Store.append_spec h.clocked.sound later nonempty _ perm).written
  rw [recorded]
  refine ⟨h.clocked.append nonempty later perm, ?_, together_of_unfinished rfl⟩
  intro pctx' same
  obtain rfl := Option.some.inj same
  exact ⟨a2a, _, written, Store.getLast?_appended (room_of_ne_one room) _ _ now⟩

theorem pair_suffix_appended {store : Store} {id : Bytes} {after : Context}
    (a2a : pctx.extensions.a2a.isSome) (room : store.maxEvents ≠ 1)
    (h : store.EndsWith (bucketKey id) (inboundRequestEvent pctx)) (now : Int) :
    [(inboundRequestEvent pctx).stamp (bucketKey id),
        (inboundResponseEvent after).stamp (bucketKey id)] <:+
      (store.appended id (inboundResponseEvent after) now).events := by
  obtain ⟨sess, stored, last⟩ := h
  obtain ⟨front, split⟩ := List.getLast?_eq_some_iff.mp last
  have events : (store.appended id (inboundResponseEvent after) now).events =
      trimPinned isIntentEvent (front ++ [(inboundRequestEvent pctx).stamp (bucketKey id),
        (inboundResponseEvent after).stamp (bucketKey id)]) store.maxEvents := by
    unfold Store.appended
    rw [Entry.events_push]
    rw [show store.sessions.lookup (id.take maxSessionIDLen) = some sess from stored,
      Option.getD_some, split, List.append_assoc]
    rfl
  rw [events]
  refine pair_suffix_trimPinned front ?_ rfl (room_of_ne_one room)
  simpa [isIntentEvent, SessionEvent.stamp, inboundRequestEvent] using a2a

theorem Inv.response (h : Inv maxSessions s) (room : s.store.maxEvents ≠ 1) {before : Context}
    (pending : s.pending = some before) (path : ResponsePath) {calls : List (Bytes × Bool)}
    (placed : Placed s.store before calls) (later : s.clock ≤ now)
    (perm : order.Perm ((rekeyInboundSession s.store (respondedWith before calls)).insertEvent
      (inboundSessionID (respondedWith before calls))
      (inboundResponseEvent (respondedWith before calls)) now).sessions.keys) : Inv maxSessions
      { store := path.record s.store (respondedWith before calls) now order
        clock := now
        pending := none
        finished := some (bucketKey (inboundSessionID (respondedWith before calls)),
          inboundRequestEvent before, inboundResponseEvent (respondedWith before calls)) } := by
  obtain ⟨a2a, requested⟩ := h.pending before pending
  have there := endsWith_rekeyInboundSession a2a requested placed
  have sound := clockedInv_rekeyInboundSession h.clocked (respondedWith before calls)
  have nonempty := inboundSessionID_ne_nil (respondedWith before calls)
  have written := (Store.append_spec sound.sound later nonempty _ perm).written
  have observed : (respondedWith before calls).observable = true := by
    obtain ⟨ext, found⟩ := Option.isSome_iff_exists.mp a2a
    obtain ⟨ext', responded, -⟩ := a2a_respondedWith found calls
    exact observable_of_a2a (by simp [responded])
  rw [ResponsePath.record_eq, recordInboundResponseSession, if_pos observed]
  refine ⟨sound.append nonempty later perm, fun pctx none => ?_, ?_⟩
  · cases none
  intro key request response finished
  obtain ⟨rfl, rfl, rfl⟩ := by simpa only [Option.some.injEq, Prod.mk.injEq] using finished
  refine ⟨_, written, pair_suffix_appended a2a ?_ there now⟩
  rw [maxEvents_rekeyInboundSession]
  exact room

theorem Inv.step (h : Inv maxSessions s) {op : TurnOp} (guarded : s.Guarded op)
    (applied : s.apply op = some s') : Inv maxSessions s' := by
  cases op with
  | request pctx now order =>
    obtain ⟨⟨-, a2a, later, perm⟩, eq⟩ := Option.ite_none_right_eq_some.mp applied
    cases eq
    exact h.request guarded a2a later perm
  | response path calls now order =>
    obtain ⟨room, placed⟩ := guarded
    cases pending : s.pending with
    | none =>
      simp only [apply, pending] at applied
      cases applied
    | some before =>
      simp only [apply, pending] at applied
      obtain ⟨⟨later, perm⟩, eq⟩ := Option.ite_none_right_eq_some.mp applied
      cases eq
      exact h.response room pending path (placed before pending) later perm
  | cleanup now =>
    obtain ⟨⟨-, later⟩, eq⟩ := Option.ite_none_right_eq_some.mp applied
    cases eq
    refine ⟨h.clocked.cleanup later, fun pctx none => ?_, together_of_unfinished rfl⟩
    cases none

theorem inv_of_reachable {ttl : Int} {maxEvents : Nat} {start : Int}
    (h : (system ttl maxEvents maxSessions start).Reachable Guarded s) : Inv maxSessions s := by
  refine System.Reachable.invariant ?_ (fun _ _ _ before guarded applied =>
    before.step guarded applied) h
  refine ⟨Clocked.Inv.init ttl maxEvents maxSessions start, fun _ none => ?_,
    together_of_unfinished rfl⟩
  cases none

/-- In every run of turns in which each bucket has room for two events and no response reveals
an existing session to a request that named none, the two events of a turn are in one bucket,
and no rename loses or duplicates an event. -/
theorem together_of_reachable {ttl : Int} {maxEvents maxSessions : Nat} {start : Int} {s : Turns}
    (h : (system ttl maxEvents maxSessions start).Reachable Guarded s) :
    s.Together ∧ ∀ oldID newID, (s.store.rekey oldID newID).recorded.Perm s.store.recorded :=
  ⟨(inv_of_reachable h).together, s.store.recorded_rekey⟩

def revealCtx (path : ResponsePath) (now : Int) (order : List Bytes) : TurnOp :=
  .response path [(bytes "\x7b\"result\":\x7b\"contextId\":\"ctx\"\x7d\x7d", true)] now order

/-- A message without a context, to which the response reveals a new one. -/
theorem together_after_first_turn :
    ∃ s, (system 600 2 1 0).Reachable Guarded s ∧
      (s.store.sessions.keys = [bytes "ctx"] ∧ s.finished.isSome = true) ∧ s.Together := by
  obtain ⟨s, ran, state⟩ : ∃ s ∈ (system 600 2 1 0).run Guarded
      [.request userMessage 0 [defaultSessionID], revealCtx .reverseBuffered 1 [bytes "ctx"]],
      s.store.sessions.keys = [bytes "ctx"] ∧ s.finished.isSome = true := by
    rw [userMessage, inboundA2A_eq, revealCtx, bytes_eq_toByteArray]
    decide +kernel
  have reachable := System.reachable_of_run _ ran
  exact ⟨s, reachable, state, (together_of_reachable reachable).1⟩

/-- A task query names no context, and the response reveals that of the conversation: the
query stays behind in the default session. -/
theorem apart_after_task_query :
    ∃ s, (system 600 0 0 0).Reachable System.anyAction s ∧ ¬ s.Together := by
  obtain ⟨s, ran, ⟨key, request, response⟩, finished, sess, stored, phase, events⟩ :
      ∃ s ∈ (system 600 0 0 0).run System.anyAction
        [.request userMessage 0 [defaultSessionID], revealCtx .extProc 1 [bytes "ctx"],
          .request taskQuery 2 [defaultSessionID, bytes "ctx"],
          revealCtx .reverseStreamed 3 [defaultSessionID, bytes "ctx"]],
      ∃ turn ∈ s.finished, ∃ sess ∈ s.store.sessions.lookup turn.1, turn.2.1.phase = .request ∧
        sess.events.map SessionEvent.phase = [.request, .response, .response] := by
    rw [userMessage, taskQuery, inboundA2A_eq, inboundA2A_eq, revealCtx, revealCtx,
      bytes_eq_toByteArray]
    decide +kernel
  refine ⟨s, System.reachable_of_run _ ran, fun together => ?_⟩
  obtain ⟨sess', stored', suffix⟩ := together key request response finished
  obtain rfl : sess = sess' := Option.some.inj (stored.symm.trans stored')
  have last := suffix.map SessionEvent.phase
  rw [events, List.map_cons, show (request.stamp key).phase = .request from phase] at last
  have apart (phase : SessionPhase) :
      ¬ [SessionPhase.request, phase] <:+ [.request, .response, .response] := by
    cases phase <;> decide
  exact apart _ last

end Turns

end Kagenti.AuthBridge
