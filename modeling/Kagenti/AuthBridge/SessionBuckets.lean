import Kagenti.AuthBridge.SessionInvariant

/-!
Which bucket of the session store an id names. `Append` and the new id of `Rekey` are cut to
the longest key; `View` and the old id of `Rekey` are taken as they are.
-/

namespace Kagenti.AuthBridge

open Go Lib.Entries Lib.PinnedBuffer Lib.Transition

def bucketKey (id : Bytes) : Bytes := id.take maxSessionIDLen

namespace Store

/-- The bucket `old` is the bucket `new` afterwards, with its events, and no other changes. -/
def Moves (s s' : Store) (old new : Bytes) : Prop :=
  ∀ key, s'.sessions.lookup key =
    if key = old then none
    else if key = new then (s.sessions.lookup old).map fun sess => renamed sess new
    else s.sessions.lookup key

structure Agrees (id : Bytes) (s : Store) : Prop where
  viewed : ∀ event now order, order.Perm (s.insertEvent id event now).sessions.keys →
    let t := s.append id event now order
    bucketKey id ∈ t.sessions → ∀ later, later - now ≤ s.ttl →
      ∃ v sess, t.view id later = some v ∧ t.sessions.lookup (bucketKey id) = some sess ∧
        v.events = sess.events ∧
        (s.maxEvents = 0 ∨ 2 ≤ s.maxEvents → v.events.getLast? = some (event.stamp (bucketKey id)))
  movedFrom : ∀ event now order, order.Perm (s.insertEvent id event now).sessions.keys →
    let t := s.append id event now order
    bucketKey id ∈ t.sessions → ∀ newID, newID ≠ [] → bucketKey newID ∉ t.sessions →
      t.Moves (t.rekey id newID) (bucketKey id) (bucketKey newID)
  movedTo : ∀ oldID, oldID ≠ [] → oldID ∈ s.sessions → bucketKey id ∉ s.sessions →
    s.Moves (s.rekey oldID id) oldID (bucketKey id)

variable {id : Bytes}

theorem bucketKey_of_le (h : id.length ≤ maxSessionIDLen) : bucketKey id = id :=
  List.take_of_length_le h

theorem shrinks_append (s : Store) (id : Bytes) (event : SessionEvent) (now : Int)
    (order : List Bytes) : Shrinks (s.insertEvent id event now) (s.append id event now order) := by
  unfold append
  dsimp only
  split
  · exact shrinks_evictOldest _ order
  · exact .refl _

variable {s : Store}

theorem lookup_append {event : SessionEvent} {now : Int} {order : List Bytes}
    (kept : bucketKey id ∈ (s.append id event now order).sessions) :
    (s.append id event now order).sessions.lookup (bucketKey id) =
      some (s.appended id event now) := by
  obtain ⟨sess, found⟩ := exists_lookup kept
  have written := (s.shrinks_append id event now order).lookup _ sess found
  rw [found, ← written, lookup_insertEvent]
  exact if_pos rfl

theorem moves_rekey {oldID newID : Bytes} (named : oldID ≠ []) (nonempty : newID ≠ [])
    (present : oldID ∈ s.sessions) (free : bucketKey newID ∉ s.sessions) (different : oldID ≠ newID)
    : s.Moves (s.rekey oldID newID) oldID (bucketKey newID) :=
  lookup_rekey ⟨by simp [different, named, nonempty], present, free⟩

theorem ttl_append (s : Store) (id : Bytes) (event : SessionEvent) (now : Int)
    (order : List Bytes) : (s.append id event now order).ttl = s.ttl := by
  unfold append evictOldest
  dsimp only
  split
  · split <;> rfl
  · rfl

theorem updatedAt_appended (s : Store) (id : Bytes) (event : SessionEvent) (now : Int) :
    (s.appended id event now).updatedAt = now :=
  rfl

theorem getLast?_appended (room : s.maxEvents = 0 ∨ 2 ≤ s.maxEvents) (id : Bytes)
    (event : SessionEvent) (now : Int) :
    (s.appended id event now).events.getLast? = some (event.stamp (bucketKey id)) := by
  unfold appended
  rw [Entry.events_push]
  exact getLast?_trimPinned _ _ room

theorem agrees_of_short (nonempty : id ≠ []) (short : id.length ≤ maxSessionIDLen) (s : Store) :
    s.Agrees id := by
  have uncut := bucketKey_of_le short
  constructor
  · intro event now order _ t kept later fresh
    have written : t.sessions.lookup (bucketKey id) = some (s.appended id event now) :=
      lookup_append kept
    have unexpired : t.isExpired (s.appended id event now) later = false := by
      simp only [isExpired, updatedAt_appended, t, ttl_append, decide_eq_false_iff_not]
      omega
    refine ⟨⟨id, (s.appended id event now).events⟩, _, ?_, written, rfl,
      fun room => getLast?_appended room id event now⟩
    rw [uncut] at written
    unfold view
    simp [written, unexpired]
  · grind [moves_rekey]
  · grind [moves_rekey]

/-! The first append -/

theorem lookup_first (id : Bytes) (event : SessionEvent) (key : Bytes) :
    ((Store.new 0 0 0).append id event 0 [bucketKey id]).sessions.lookup key =
      if key = bucketKey id then some ((Store.new 0 0 0).appended id event 0) else none := by
  have unbounded : (Store.new 0 0 0).append id event 0 [bucketKey id] =
      (Store.new 0 0 0).insertEvent id event 0 := by
    unfold append
    exact if_neg fun bounded => Nat.lt_irrefl 0 bounded.1
  rw [unbounded, lookup_insertEvent]
  rfl

theorem mem_first (id : Bytes) (event : SessionEvent) :
    bucketKey id ∈ ((Store.new 0 0 0).append id event 0 [bucketKey id]).sessions :=
  mem_of_lookup ((lookup_first id event (bucketKey id)).trans (if_pos rfl))

theorem perm_first (id : Bytes) (event : SessionEvent) :
    [bucketKey id].Perm ((Store.new 0 0 0).insertEvent id event 0).sessions.keys :=
  .refl _

theorem short_of_agrees (h : (Store.new 0 0 0).Agrees id) :
    id ≠ [] ∧ id.length ≤ maxSessionIDLen := by
  have kept := mem_first id outboundEvent
  have perm := perm_first id outboundEvent
  constructor
  · -- a rename of the empty id does nothing
    rintro rfl
    have moves := h.movedFrom outboundEvent 0 _ perm kept (bytes "ctx") (by decide) ?_
    · have gone := moves []
      have stays := lookup_first [] outboundEvent []
      simp [rekey, bucketKey] at gone stays
      rw [gone] at stays
      cases stays
    · rw [← AList.lookup_eq_none, lookup_first]
      exact if_neg (by decide)
  · -- a view of the whole id finds nothing under it
    by_contra long
    obtain ⟨v, -, viewed, -⟩ := h.viewed outboundEvent 0 _ perm kept 0 (by simp [new])
    have cut : id ≠ bucketKey id := by grind [bucketKey, List.length_take]
    have absent := (lookup_first id outboundEvent id).trans (if_neg cut)
    unfold view at viewed
    rw [absent] at viewed
    cases viewed

end Store

/-- In every run all operations agree on the bucket that the id names, if and only if the id is
neither empty nor longer than a key. -/
theorem sessionID_agrees_iff (id : Bytes) :
    (∀ (ttl : Int) (maxEvents maxSessions : Nat) (s : Tracked),
      (Tracked.system ttl maxEvents maxSessions).Reachable System.anyAction s →
        s.store.Agrees id) ↔
      id ≠ [] ∧ id.length ≤ maxSessionIDLen :=
  ⟨fun agrees => Store.short_of_agrees (agrees 0 0 0 _ .refl),
    fun ⟨nonempty, short⟩ _ _ _ s _ => Store.agrees_of_short nonempty short s.store⟩

def longID : Bytes := List.replicate 257 97

/-- What is appended under it can neither be viewed nor renamed under it. -/
theorem longID_disagrees :
    let t := (Store.new 0 0 0).append longID messageEvent 0 [bucketKey longID]
    t.sessions.keys = [bucketKey longID] ∧ t.view longID 0 = none ∧
      (t.rekey longID (bytes "ctx")).sessions.keys = [bucketKey longID] ∧
      ¬ (Store.new 0 0 0).Agrees longID := by
  refine ⟨by decide +kernel, ?_, by decide +kernel, fun agrees => ?_⟩
  · exact Option.isNone_iff_eq_none.mp (by decide +kernel)
  · exact absurd (Store.short_of_agrees agrees).2 (by decide +kernel)

end Kagenti.AuthBridge
