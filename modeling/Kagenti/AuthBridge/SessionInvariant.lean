import Kagenti.AuthBridge.Intent

/-!
What holds of the session store in every run with non-empty session ids and a clock that does not go
back.
-/

namespace Kagenti.AuthBridge

open Go Lib.Entries Lib.PinnedBuffer Lib.Transition

namespace Store

variable (s : Store)

/-! The scan for the oldest session -/

def scan (acc : Bytes × Int) (id : Bytes) : Bytes × Int :=
  match s.sessions.lookup id with
  | none => acc
  | some sess =>
    if id = s.activeID then acc
    else if acc.1 = [] ∨ sess.updatedAt < acc.2 then (id, sess.updatedAt)
    else acc

structure Scanned (seen : List Bytes) (acc : Bytes × Int) : Prop where
  nothing : acc.1 = [] → ∀ id ∈ seen, id ∈ s.sessions → id = s.activeID
  inactive : acc.1 ≠ [] → acc.1 ≠ s.activeID
  stored : acc.1 ≠ [] → ∃ sess, s.sessions.lookup acc.1 = some sess ∧ sess.updatedAt = acc.2
  oldest : acc.1 ≠ [] → ∀ id ∈ seen, ∀ sess, s.sessions.lookup id = some sess →
    id ≠ s.activeID → acc.2 ≤ sess.updatedAt

variable {s} {seen : List Bytes} {acc : Bytes × Int}

theorem Scanned.skip (h : s.Scanned seen acc) {id : Bytes}
    (skipped : ∀ sess, s.sessions.lookup id = some sess → id ≠ s.activeID →
      acc.1 ≠ [] ∧ acc.2 ≤ sess.updatedAt) : s.Scanned (seen ++ [id]) acc := by
  refine ⟨fun empty => ?_, h.inactive, h.stored, fun chosen => ?_⟩
  · refine List.forall_mem_append.mpr ⟨h.nothing empty, ?_⟩
    refine List.forall_mem_singleton.mpr fun present => not_not.mp fun other => ?_
    obtain ⟨sess, found⟩ := exists_lookup present
    exact (skipped sess found other).1 empty
  · refine List.forall_mem_append.mpr ⟨h.oldest chosen, ?_⟩
    exact List.forall_mem_singleton.mpr fun sess found other => (skipped sess found other).2

theorem Scanned.step (named : [] ∉ s.sessions) (h : s.Scanned seen acc) (id : Bytes) :
    s.Scanned (seen ++ [id]) (s.scan acc id) := by
  fun_cases scan with
  | case1 absent => exact h.skip (by simp [absent])
  | case2 sess found active => exact h.skip fun _ _ other => absurd active other
  | case3 sess found active older =>
    have nonempty : id ≠ [] := fun empty => named (empty ▸ mem_of_lookup found)
    refine ⟨fun empty => absurd empty nonempty, fun _ => active, fun _ => ⟨sess, found, rfl⟩,
      fun _ => ?_⟩
    refine List.forall_mem_append.mpr ⟨fun other seen stored found inactive => ?_, ?_⟩
    · by_cases empty : acc.1 = []
      · exact absurd (h.nothing empty other seen (mem_of_lookup found)) inactive
      · have less := older.resolve_left empty
        have atLeast := h.oldest empty other seen stored found inactive
        exact le_of_lt (lt_of_lt_of_le less atLeast)
    · grind
  | case4 sess found active older =>
    obtain ⟨chosen, least⟩ := not_or.mp older
    refine h.skip fun stored again _ => ⟨chosen, ?_⟩
    rw [found] at again
    rw [← Option.some.inj again]
    exact not_lt.mp least

theorem Scanned.fold (named : [] ∉ s.sessions) (h : s.Scanned seen acc) (order : List Bytes) :
    s.Scanned (seen ++ order) (order.foldl s.scan acc) := by
  induction order generalizing seen acc with
  | nil => simpa using h
  | cons id rest ih =>
    have next := ih (h.step named id)
    rwa [List.append_assoc] at next

variable {order : List Bytes}

theorem oldest_spec (named : [] ∉ s.sessions) (perm : order.Perm s.sessions.keys)
    (another : ∃ id ∈ s.sessions, id ≠ s.activeID) :
    s.oldest order ≠ [] ∧ s.oldest order ≠ s.activeID ∧
      ∃ victim, s.sessions.lookup (s.oldest order) = some victim ∧
        ∀ id sess, s.sessions.lookup id = some sess → id ≠ s.activeID →
          victim.updatedAt ≤ sess.updatedAt := by
  have start : s.Scanned [] ([], 0) := by constructor <;> simp
  have scanned := start.fold named order
  have seen (id : Bytes) : id ∈ order ↔ id ∈ s.sessions := perm.mem_iff.trans AList.mem_keys.symm
  obtain ⟨id, present, inactive⟩ := another
  have chosen : s.oldest order ≠ [] := fun empty =>
    inactive (scanned.nothing empty id ((seen id).mpr present) present)
  obtain ⟨victim, found, time⟩ := scanned.stored chosen
  refine ⟨chosen, scanned.inactive chosen, victim, found, ?_⟩
  intro id sess stored inactive
  rw [time]
  exact scanned.oldest chosen id ((seen id).mpr (mem_of_lookup stored)) sess stored inactive

/-! The invariant -/

def Identified (id : Bytes) (sess : Entry) : Prop :=
  sess.id = id ∧ ∀ e ∈ sess.events, e.sessionID = id

/-- The store between two operations, at a time not before `clock`. -/
structure Sound (s : Store) (clock : Int) : Prop where
  named : [] ∉ s.sessions
  active : s.activeID ≠ [] → s.activeID ∈ s.sessions
  newest : ∀ id sess, s.sessions.lookup id = some sess →
    ∃ newest, s.sessions.lookup s.activeID = some newest ∧ sess.updatedAt ≤ newest.updatedAt
  past : Forall (fun _ sess => sess.updatedAt ≤ clock) s.sessions
  identified : Forall Identified s.sessions

variable {clock now : Int}

theorem Sound.mono (h : s.Sound clock) (later : clock ≤ now) : s.Sound now where
  named := h.named
  active := h.active
  newest := h.newest
  past id sess found := (h.past id sess found).trans later
  identified := h.identified

theorem identified_fresh (key : Bytes) (now : Int) : Identified key ⟨key, [], now, now⟩ :=
  ⟨rfl, by simp⟩

theorem Identified.push {key : Bytes} {sess : Entry} (h : Identified key sess)
    (event : SessionEvent) (maxEvents : Nat) (now : Int) :
    Identified key (sess.push (event.stamp key) maxEvents now) := by
  refine ⟨h.1, fun e member => ?_⟩
  rw [Entry.events_push] at member
  rcases List.mem_append.mp ((trimPinned_sublist _ _).subset member) with before | new
  · exact h.2 e before
  · rw [List.mem_singleton.mp new]
    rfl

theorem take_ne_nil {id : Bytes} (h : id ≠ []) : id.take maxSessionIDLen ≠ [] := by
  simpa [maxSessionIDLen] using h

def appended (s : Store) (sessionID : Bytes) (event : SessionEvent) (now : Int) : Entry :=
  let key := sessionID.take maxSessionIDLen
  ((s.sessions.lookup key).getD ⟨key, [], now, now⟩).push (event.stamp key) s.maxEvents now

theorem lookup_insertEvent (s : Store) (sessionID : Bytes) (event : SessionEvent) (now : Int)
    (id : Bytes) : (s.insertEvent sessionID event now).sessions.lookup id =
      if id = sessionID.take maxSessionIDLen then some (s.appended sessionID event now)
      else s.sessions.lookup id :=
  lookup_insert _ _ _ _

variable {sessionID : Bytes}

theorem Sound.insertEvent (h : s.Sound clock) (later : clock ≤ now) (nonempty : sessionID ≠ [])
    (event : SessionEvent) : (s.insertEvent sessionID event now).Sound now := by
  have stored : (s.insertEvent sessionID event now).sessions.lookup
      (s.insertEvent sessionID event now).activeID = some (s.appended sessionID event now) :=
    (s.lookup_insertEvent sessionID event now _).trans (if_pos rfl)
  have past : Forall (fun _ sess => sess.updatedAt ≤ now)
      (s.insertEvent sessionID event now).sessions :=
    Forall.insert (h.mono later).past (le_refl now)
  refine ⟨?_, fun _ => ?_, fun id sess found => ⟨_, stored, past id sess found⟩, past, ?_⟩
  · rw [← AList.lookup_eq_none, lookup_insertEvent, if_neg (take_ne_nil nonempty).symm]
    exact AList.lookup_eq_none.mpr h.named
  · exact mem_of_lookup stored
  · refine Forall.insert h.identified (Identified.push ?_ _ _ _)
    cases present : s.sessions.lookup (sessionID.take maxSessionIDLen) with
    | none => exact identified_fresh _ now
    | some sess => exact h.identified _ sess present

theorem Sound.eraseOther (h : s.Sound clock) {victim : Bytes} (other : victim ≠ s.activeID) :
    Sound { s with sessions := s.sessions.erase victim } clock where
  named := by simp [h.named]
  active := fun nonempty => AList.mem_erase.mpr ⟨other.symm, h.active nonempty⟩
  newest := by
    intro id sess found
    obtain ⟨newest, stored, least⟩ := h.newest id sess (lookup_of_erase found)
    refine ⟨newest, ?_, least⟩
    rw [lookup_erase]
    exact (if_neg (Ne.symm other)).trans stored
  past := h.past.erase victim
  identified := h.identified.erase victim

def renamed (sess : Entry) (key : Bytes) : Entry :=
  { sess with id := key, events := sess.events.map (SessionEvent.stamp key) }

theorem lookup_rekey {oldID newID : Bytes} (renames : s.Renames oldID newID) (id : Bytes) :
    (s.rekey oldID newID).sessions.lookup id =
      if id = oldID then none
      else if id = newID.take maxSessionIDLen then
        (s.sessions.lookup oldID).map fun sess => renamed sess (newID.take maxSessionIDLen)
      else s.sessions.lookup id := by
  obtain ⟨moved, found, eq⟩ := rekey_of_renames renames
  rw [eq, found]
  rw [lookup_erase, lookup_insert]
  rfl

theorem Sound.rekey (h : s.Sound clock) (oldID newID : Bytes) :
    (s.rekey oldID newID).Sound clock := by
  by_cases renames : s.Renames oldID newID
  · have lookup := lookup_rekey renames
    obtain ⟨moved, found, eq⟩ := rekey_of_renames renames
    obtain ⟨guard, present, free⟩ := renames
    have nonempty : newID ≠ [] := fun empty => guard (.inr (.inr empty))
    have different : newID.take maxSessionIDLen ≠ oldID := fun same => free (same ▸ present)
    rw [found] at lookup
    -- the active session is the one it was, under the name it has now
    have active (newest : Entry) (stored : s.sessions.lookup s.activeID = some newest) :
        ∃ sess, (s.rekey oldID newID).sessions.lookup (s.rekey oldID newID).activeID = some sess ∧
          sess.updatedAt = newest.updatedAt := by
      rw [lookup]
      rw [eq]
      by_cases old : s.activeID = oldID
      · rw [if_pos old, if_neg different, if_pos rfl]
        rw [old, found] at stored
        exact ⟨_, rfl, by rw [Option.some.inj stored]; rfl⟩
      · grind [mem_of_lookup]
    refine ⟨?_, ?_, ?_, ?_, ?_⟩
    · rw [← AList.lookup_eq_none, lookup, if_neg (take_ne_nil nonempty).symm]
      split
      · rfl
      · exact AList.lookup_eq_none.mpr h.named
    · intro _
      obtain ⟨newest, stored, -⟩ := h.newest oldID moved found
      obtain ⟨sess, stored', -⟩ := active newest stored
      exact mem_of_lookup stored'
    · intro id sess stored
      rw [lookup] at stored
      split at stored
      · cases stored
      · have before : ∃ id sess', s.sessions.lookup id = some sess' ∧
            sess'.updatedAt = sess.updatedAt := by
          split at stored
          · exact ⟨oldID, moved, found, by rw [← Option.some.inj stored]; rfl⟩
          · exact ⟨id, sess, stored, rfl⟩
        obtain ⟨id', sess', stored', same⟩ := before
        obtain ⟨newest, newestStored, least⟩ := h.newest id' sess' stored'
        obtain ⟨newest', found', same'⟩ := active newest newestStored
        exact ⟨newest', found', by omega⟩
    · rw [eq]
      refine Forall.erase oldID (Forall.insert h.past ?_)
      exact h.past oldID moved found
    · rw [eq]
      refine Forall.erase oldID (Forall.insert h.identified ⟨rfl, fun e member => ?_⟩)
      obtain ⟨e, -, rfl⟩ := List.mem_map.mp member
      rfl
  · rw [rekey_of_not_renames renames]
    exact h

/-! Cleanup -/

theorem lookup_cleanupOne (s : Store) (now : Int) (id other : Bytes) :
    (s.cleanupOne now id).sessions.lookup other =
      if other = id then (s.sessions.lookup other).filter fun sess => !s.isExpired sess now
      else s.sessions.lookup other := by
  rcases eq_or_ne other id with rfl | same
  · fun_cases cleanupOne <;> simp [*, Option.filter_some]
  · fun_cases cleanupOne <;> simp [*]

theorem maxSessions_cleanupOne (s : Store) (now : Int) (id : Bytes) :
    (s.cleanupOne now id).maxSessions = s.maxSessions := by
  fun_cases cleanupOne <;> rfl

theorem maxSessions_cleanup (s : Store) (now : Int) :
    (s.cleanup now).maxSessions = s.maxSessions :=
  List.foldlRecOn (motive := fun t : Store => t.maxSessions = s.maxSessions) s.sessions.keys
    (fun t id => t.cleanupOne now id) rfl fun t same id _ =>
      (t.maxSessions_cleanupOne now id).trans same

theorem isExpired_cleanupOne (s : Store) (now : Int) (id : Bytes) (sess : Entry) :
    (s.cleanupOne now id).isExpired sess now = s.isExpired sess now := by
  fun_cases cleanupOne <;> rfl

theorem activeID_cleanupOne (s : Store) (now : Int) (id : Bytes) :
    (s.cleanupOne now id).activeID =
      if s.activeID = id ∧ (s.sessions.lookup id).any (fun sess => s.isExpired sess now) then []
      else s.activeID := by
  unfold cleanupOne
  cases s.sessions.lookup id with
  | none => simp
  | some sess => grind

theorem lookup_cleanup_fold (ids : List Bytes) (s : Store) (now : Int) (id : Bytes) :
    let s' := ids.foldl (fun s id => s.cleanupOne now id) s
    s'.sessions.lookup id =
      if id ∈ ids then (s.sessions.lookup id).filter fun sess => !s.isExpired sess now
      else s.sessions.lookup id := by
  induction ids generalizing s with
  | nil => simp
  | cons first rest ih =>
    have next := ih (s.cleanupOne now first)
    simp only [isExpired_cleanupOne, lookup_cleanupOne] at next
    rw [List.foldl_cons]
    dsimp only at next ⊢
    rw [next]
    by_cases same : id = first
    · subst id
      cases s.sessions.lookup first <;> simp
    · simp [same]

theorem lookup_cleanup (s : Store) (now : Int) (id : Bytes) :
    (s.cleanup now).sessions.lookup id =
      (s.sessions.lookup id).filter fun sess => !s.isExpired sess now := by
  have fold := lookup_cleanup_fold s.sessions.keys s now id
  rw [cleanup, fold]
  split
  · rfl
  next absent =>
    rw [AList.lookup_eq_none.mpr (fun present => absent (AList.mem_keys.mp present))]
    rfl

theorem activeID_cleanup_fold {ids : List Bytes} {s : Store} (nodup : ids.Nodup)
    (named : [] ∉ ids) (now : Int) :
    let s' := ids.foldl (fun s id => s.cleanupOne now id) s
    s'.activeID =
      if s.activeID ∈ ids ∧ (s.sessions.lookup s.activeID).any (fun sess => s.isExpired sess now)
      then [] else s.activeID := by
  induction ids generalizing s with
  | nil => simp
  | cons first rest ih =>
    obtain ⟨fresh, nodup⟩ := List.nodup_cons.mp nodup
    have others : [] ∉ rest := fun member => named (List.mem_cons_of_mem _ member)
    have next := ih (s := s.cleanupOne now first) nodup others
    rw [List.foldl_cons]
    dsimp only at next ⊢
    rw [next]
    by_cases same : s.activeID = first
    · -- the active session is the first one, so it is not among the others
      grind [activeID_cleanupOne]
    · have kept : (s.cleanupOne now first).activeID = s.activeID := by
        rw [activeID_cleanupOne, if_neg fun both => same both.1]
      rw [kept, lookup_cleanupOne, if_neg same]
      simp [same, isExpired_cleanupOne]

theorem Sound.cleanup (h : s.Sound clock) (later : clock ≤ now) : (s.cleanup now).Sound now := by
  have lookup := s.lookup_cleanup now
  have survives {id : Bytes} {sess : Entry}
      (stored : (s.cleanup now).sessions.lookup id = some sess) :
      s.sessions.lookup id = some sess ∧ s.isExpired sess now = false := by
    rw [lookup, Option.filter_eq_some_iff] at stored
    simpa using stored
  have named : [] ∉ s.sessions.keys := fun member => h.named (AList.mem_keys.mpr member)
  have active := activeID_cleanup_fold (s := s) s.sessions.keys_nodup named now
  change (s.cleanup now).activeID = _ at active
  refine ⟨?_, ?_, ?_, ?_, ?_⟩
  · rw [← AList.lookup_eq_none, lookup, AList.lookup_eq_none.mpr h.named]
    rfl
  · intro nonempty
    rw [active] at nonempty ⊢
    split at nonempty
    · contradiction
    next kept =>
      rw [if_neg kept]
      obtain ⟨sess, stored⟩ := exists_lookup (h.active nonempty)
      have unexpired : s.isExpired sess now = false := by
        have := fun expired => kept ⟨AList.mem_keys.mp (h.active nonempty), expired⟩
        simpa [stored] using this
      refine AList.lookup_isSome.mp ?_
      rw [lookup, stored]
      simp [Option.filter_some, unexpired]
  · intro id sess stored
    obtain ⟨before, unexpired⟩ := survives stored
    obtain ⟨newest, newestStored, least⟩ := h.newest id sess before
    -- the active session is not older than one that has not expired
    have alive : s.isExpired newest now = false := by
      simp only [isExpired, decide_eq_false_iff_not, not_lt] at unexpired ⊢
      omega
    have kept : (s.cleanup now).activeID = s.activeID := by
      rw [active, if_neg]
      simp [newestStored, alive]
    refine ⟨newest, ?_, least⟩
    rw [kept, lookup, newestStored]
    simp [Option.filter_some, alive]
  · exact fun id sess stored => (h.past id sess (survives stored).1).trans later
  · exact fun id sess stored => h.identified id sess (survives stored).1

/-! Append -/

structure AppendsTo (s : Store) (sessionID : Bytes) (event : SessionEvent) (now : Int)
    (s' : Store) : Prop where
  written : s'.sessions.lookup (sessionID.take maxSessionIDLen) =
    some (s.appended sessionID event now)
  evicts : let t := s.insertEvent sessionID event now
    s' = t ∨ ∃ victim old, victim ≠ sessionID.take maxSessionIDLen ∧
      t.sessions.lookup victim = some old ∧
      (∀ id sess, t.sessions.lookup id = some sess → id ≠ sessionID.take maxSessionIDLen →
        old.updatedAt ≤ sess.updatedAt) ∧
      s' = { t with sessions := t.sessions.erase victim }

theorem exists_other {s : Store} (several : 1 < s.sessions.keys.length) :
    ∃ id ∈ s.sessions, id ≠ s.activeID := by
  by_contra none
  push Not at none
  have only : s.sessions.keys ⊆ [s.activeID] := fun id member =>
    List.mem_singleton.mpr (none id (AList.mem_keys.mpr member))
  have short := (List.subperm_of_subset s.sessions.keys_nodup only).length_le
  rw [List.length_singleton] at short
  omega

theorem evictOldest_eq {s : Store} (named : [] ∉ s.sessions) (perm : order.Perm s.sessions.keys)
    (several : 1 < s.sessions.keys.length) :
    ∃ victim old, victim ≠ s.activeID ∧ s.sessions.lookup victim = some old ∧
      (∀ id sess, s.sessions.lookup id = some sess → id ≠ s.activeID →
        old.updatedAt ≤ sess.updatedAt) ∧
      s.evictOldest order = { s with sessions := s.sessions.erase victim } := by
  obtain ⟨chosen, inactive, old, stored, least⟩ := oldest_spec named perm (exists_other several)
  exact ⟨s.oldest order, old, inactive, stored, least, if_neg chosen⟩

theorem append_spec (h : s.Sound clock) (later : clock ≤ now) (nonempty : sessionID ≠ [])
    (event : SessionEvent) (perm : order.Perm (s.insertEvent sessionID event now).sessions.keys) :
    s.AppendsTo sessionID event now (s.append sessionID event now order) := by
  have stored := (s.lookup_insertEvent sessionID event now (sessionID.take maxSessionIDLen)).trans
    (if_pos rfl)
  unfold append
  dsimp only
  split
  next exceeds =>
    obtain ⟨victim, old, other, found, least, eq⟩ :=
      evictOldest_eq (h.insertEvent later nonempty event).named perm (by omega)
    rw [eq]
    refine ⟨?_, .inr ⟨victim, old, other, found, least, rfl⟩⟩
    rw [lookup_erase]
    exact (if_neg (Ne.symm other)).trans stored
  · exact ⟨stored, .inl rfl⟩

theorem Sound.append (h : s.Sound clock) (later : clock ≤ now) (nonempty : sessionID ≠ [])
    (event : SessionEvent) (perm : order.Perm (s.insertEvent sessionID event now).sessions.keys) :
    (s.append sessionID event now order).Sound now := by
  have inserted := h.insertEvent later nonempty event
  rcases (append_spec h later nonempty event perm).evicts with same | ⟨victim, -, other, -, -, eq⟩
  · rw [same]
    exact inserted
  · rw [eq]
    exact inserted.eraseOther other

/-! The number of sessions -/

theorem length_keys_append (h : s.Sound clock) (later : clock ≤ now) (nonempty : sessionID ≠ [])
    (event : SessionEvent) (perm : order.Perm (s.insertEvent sessionID event now).sessions.keys)
    (bound : 1 ≤ s.maxSessions) (before : s.sessions.keys.length ≤ s.maxSessions) :
    (s.append sessionID event now order).sessions.keys.length ≤ s.maxSessions := by
  have grows : (s.insertEvent sessionID event now).sessions.keys.length ≤ _ :=
    length_keys_insert_le _ _ _
  unfold append
  dsimp only
  split
  next exceeds =>
    obtain ⟨victim, old, -, found, -, eq⟩ :=
      evictOldest_eq (h.insertEvent later nonempty event).named perm (by omega)
    rw [eq]
    rw [length_keys_erase_of_mem (mem_of_lookup found)]
    omega
  next within => exact Nat.le_of_not_lt fun exceeds => within ⟨bound, exceeds⟩

theorem length_keys_rekey (s : Store) (oldID newID : Bytes) :
    (s.rekey oldID newID).sessions.keys.length = s.sessions.keys.length := by
  by_cases renames : s.Renames oldID newID
  · obtain ⟨moved, found, eq⟩ := rekey_of_renames renames
    obtain ⟨-, present, free⟩ := renames
    have kept (sess : Entry) : oldID ∈ s.sessions.insert (newID.take maxSessionIDLen) sess :=
      AList.mem_insert _ |>.mpr (.inr present)
    rw [eq]
    rw [length_keys_erase_of_mem (kept _), length_keys_insert_of_notMem _ free, Nat.add_sub_cancel]
  · rw [rekey_of_not_renames renames]

theorem length_keys_cleanup (s : Store) (now : Int) :
    (s.cleanup now).sessions.keys.length ≤ s.sessions.keys.length := by
  refine (List.subperm_of_subset (s.cleanup now).sessions.keys_nodup fun id member => ?_).length_le
  obtain ⟨sess, stored⟩ := exists_lookup (AList.mem_keys.mpr member)
  exact AList.mem_keys.mp (mem_of_lookup ((shrinks_cleanup s now).lookup id sess stored))

end Store

structure Clocked where
  store : Store
  clock : Int

namespace Clocked

def apply (s : Clocked) : StoreOp → Option Clocked
  | .append sessionID event now order =>
    if sessionID ≠ [] ∧ s.clock ≤ now ∧
        order.Perm (s.store.insertEvent sessionID event now).sessions.keys then
      some ⟨s.store.append sessionID event now order, now⟩
    else none
  | .rekey oldID newID => some { s with store := s.store.rekey oldID newID }
  | .cleanup now => if s.clock ≤ now then some ⟨s.store.cleanup now, now⟩ else none

def system (ttl : Int) (maxEvents maxSessions : Nat) (start : Int) : System Clocked StoreOp where
  init := ⟨.new ttl maxEvents maxSessions, start⟩
  step := apply

structure Ordered (maxSessions : Nat) (s : Clocked) : Prop where
  inactive : s.store.activeID = [] ↔ s.store.sessions.keys = []
  active : s.store.activeID ≠ [] → ∃ newest,
    s.store.sessions.lookup s.store.activeID = some newest ∧
      ∀ id sess, s.store.sessions.lookup id = some sess → sess.updatedAt ≤ newest.updatedAt
  identified : ∀ id sess, s.store.sessions.lookup id = some sess →
    sess.id = id ∧ ∀ e ∈ sess.events, e.sessionID = id
  bounded : 1 ≤ maxSessions → s.store.sessions.keys.length ≤ maxSessions
  /-- What has expired but is still stored is not shown as the active session. -/
  shown : ∀ now, (s.store.activeSession now = [] ↔
      ∀ id sess, s.store.sessions.lookup id = some sess → s.store.isExpired sess now = true) ∧
    (s.store.activeSession now ≠ [] → s.store.activeSession now = s.store.activeID)
  appends : ∀ sessionID event now order s',
    s.apply (.append sessionID event now order) = some s' →
      s.store.AppendsTo sessionID event now s'.store

structure Inv (maxSessions : Nat) (s : Clocked) : Prop where
  sound : s.store.Sound s.clock
  limit : s.store.maxSessions = maxSessions
  bounded : 1 ≤ maxSessions → s.store.sessions.keys.length ≤ maxSessions

variable {maxSessions : Nat} {s s' : Clocked}

theorem Inv.init (ttl : Int) (maxEvents maxSessions : Nat) (start : Int) :
    Inv maxSessions (system ttl maxEvents maxSessions start).init := by
  refine ⟨⟨AList.notMem_empty _, fun nonempty => absurd rfl nonempty, ?_, Forall.empty,
    Forall.empty⟩, rfl, fun _ => Nat.zero_le _⟩
  intro id sess found
  simp [system, Store.new] at found

variable {now : Int} {sessionID : Bytes} {order : List Bytes} {event : SessionEvent}

theorem Inv.append (h : Inv maxSessions s) (nonempty : sessionID ≠ []) (later : s.clock ≤ now)
    (perm : order.Perm (s.store.insertEvent sessionID event now).sessions.keys) :
    Inv maxSessions ⟨s.store.append sessionID event now order, now⟩ where
  sound := h.sound.append later nonempty event perm
  limit := by
    rcases (Store.append_spec h.sound later nonempty event perm).evicts with eq | ⟨_, _, _, _, _, eq⟩
    · exact eq ▸ h.limit
    · exact eq ▸ h.limit
  bounded positive := by
    obtain rfl := h.limit
    exact Store.length_keys_append h.sound later nonempty event perm positive (h.bounded positive)

theorem Inv.rekey (h : Inv maxSessions s) (oldID newID : Bytes) :
    Inv maxSessions { s with store := s.store.rekey oldID newID } where
  sound := h.sound.rekey oldID newID
  limit := by
    by_cases renames : s.store.Renames oldID newID
    · obtain ⟨_, _, eq⟩ := Store.rekey_of_renames renames
      exact eq ▸ h.limit
    · exact (Store.rekey_of_not_renames renames).symm ▸ h.limit
  bounded positive := (s.store.length_keys_rekey oldID newID).trans_le (h.bounded positive)

theorem Inv.cleanup (h : Inv maxSessions s) (later : s.clock ≤ now) :
    Inv maxSessions ⟨s.store.cleanup now, now⟩ where
  sound := h.sound.cleanup later
  limit := (s.store.maxSessions_cleanup now).trans h.limit
  bounded positive := (s.store.length_keys_cleanup now).trans (h.bounded positive)

theorem apply_append : s.apply (.append sessionID event now order) = some s' ↔
      (sessionID ≠ [] ∧ s.clock ≤ now ∧
        order.Perm (s.store.insertEvent sessionID event now).sessions.keys) ∧
      ⟨s.store.append sessionID event now order, now⟩ = s' := by
  simp [apply]

theorem apply_cleanup :
    s.apply (.cleanup now) = some s' ↔ s.clock ≤ now ∧ ⟨s.store.cleanup now, now⟩ = s' := by
  simp [apply]

section

variable (h : Inv maxSessions s)

include h

theorem Inv.step {op : StoreOp} (applied : s.apply op = some s') : Inv maxSessions s' := by
  cases op with
  | append sessionID event now order =>
    obtain ⟨⟨nonempty, later, perm⟩, rfl⟩ := apply_append.mp applied
    exact h.append nonempty later perm
  | rekey oldID newID =>
    cases applied
    exact h.rekey oldID newID
  | cleanup now =>
    obtain ⟨later, rfl⟩ := apply_cleanup.mp applied
    exact h.cleanup later

theorem Inv.inactive : s.store.activeID = [] ↔ s.store.sessions.keys = [] := by
  refine ⟨fun empty => List.eq_nil_iff_forall_not_mem.mpr fun id member => ?_, fun empty => ?_⟩
  · obtain ⟨sess, found⟩ := exists_lookup (AList.mem_keys.mpr member)
    obtain ⟨newest, stored, -⟩ := h.sound.newest id sess found
    exact h.sound.named (empty ▸ mem_of_lookup stored)
  · by_contra nonempty
    have member := AList.mem_keys.mp (h.sound.active nonempty)
    rw [empty] at member
    cases member

theorem Inv.active (nonempty : s.store.activeID ≠ []) :
    ∃ newest, s.store.sessions.lookup s.store.activeID = some newest ∧
      ∀ id sess, s.store.sessions.lookup id = some sess → sess.updatedAt ≤ newest.updatedAt := by
  obtain ⟨newest, stored⟩ := exists_lookup (h.sound.active nonempty)
  refine ⟨newest, stored, fun id sess found => ?_⟩
  obtain ⟨newest', stored', least⟩ := h.sound.newest id sess found
  rw [stored] at stored'
  exact Option.some.inj stored' ▸ least

/-- The newest session is the last to expire. -/
theorem Inv.activeSession_eq_nil (now : Int) :
    s.store.activeSession now = [] ↔
      ∀ id sess, s.store.sessions.lookup id = some sess → s.store.isExpired sess now = true := by
  unfold Store.activeSession
  by_cases empty : s.store.activeID = []
  · rw [if_pos empty]
    refine iff_of_true rfl fun id sess found => ?_
    have member := AList.mem_keys.mp (mem_of_lookup found)
    rw [h.inactive.mp empty] at member
    cases member
  · obtain ⟨newest, stored, least⟩ := h.active empty
    rw [if_neg empty, stored]
    dsimp only
    by_cases expired : s.store.isExpired newest now = true
    · rw [if_pos expired]
      refine iff_of_true rfl fun id sess found => ?_
      have older := least id sess found
      simp only [Store.isExpired, decide_eq_true_eq] at expired ⊢
      omega
    · rw [if_neg expired]
      exact iff_of_false empty fun all => expired (all _ newest stored)

end

theorem activeSession_ne_nil {store : Store} (nonempty : store.activeSession now ≠ []) :
    store.activeSession now = store.activeID := by
  unfold Store.activeSession at nonempty ⊢
  grind

/-- In every run with non-empty session ids and a clock that does not go back, the session
store is in good order. -/
theorem ordered_of_reachable {ttl : Int} {maxEvents maxSessions : Nat} {start : Int} {s : Clocked}
    (h : (system ttl maxEvents maxSessions start).Reachable System.anyAction s) :
    Ordered maxSessions s := by
  have inv : Inv maxSessions s :=
    System.Reachable.invariant (Inv.init ttl maxEvents maxSessions start)
      (fun _ _ _ before _ applied => before.step applied) h
  refine ⟨inv.inactive, inv.active, inv.sound.identified, inv.bounded,
    fun now => ⟨inv.activeSession_eq_nil now, activeSession_ne_nil⟩, ?_⟩
  intro sessionID event now order s' applied
  obtain ⟨⟨nonempty, later, perm⟩, rfl⟩ := apply_append.mp applied
  exact Store.append_spec inv.sound later nonempty event perm

/-- Room for two sessions: the third takes the place of the one that was not renamed. -/
theorem ordered_after_eviction :
    ∃ s, (system 600 0 2 0).Reachable System.anyAction s ∧
      s.store.sessions.keys = [bytes "c", bytes "ctx"] ∧ Ordered 2 s := by
  obtain ⟨s, reachable, keys⟩ : ∃ s, (system 600 0 2 0).Reachable System.anyAction s ∧
      s.store.sessions.keys = [bytes "c", bytes "ctx"] := System.exists_reachable_of_run
    [.append (bytes "b") messageEvent 1 [bytes "b"],
      .append defaultSessionID messageEvent 2 [bytes "b", defaultSessionID],
      .rekey defaultSessionID (bytes "ctx"),
      .append (bytes "c") messageEvent 2 [bytes "c", bytes "ctx", bytes "b"]] (by decide +kernel)
  exact ⟨s, reachable, keys, ordered_of_reachable reachable⟩

end Clocked

end Kagenti.AuthBridge
