import Kagenti.TokenBroker.SessionIndex

/-!
The life of a session object in the session table (`internal/session/manager.go`). Every
path out of the table goes through `cleanupSessionLocked`, which closes `Done`, except one:
`CreateSession` under a key that is still live overwrites the table entry and leaves the
`Done` channel of the replaced object open.
-/

namespace Kagenti.TokenBroker

open Lib.Transition SessionIndex

namespace SessionManager

/-- The object that the table holds under a key. -/
def refAt (sm : SessionManager) (sessionKey : String) : Option Nat :=
  (sm.sessions.lookup sessionKey).map Session.ref

def InTable (sm : SessionManager) (ref : Nat) : Prop := ∃ sessionKey, sm.refAt sessionKey = some ref

/-- Each object of the table is held under one key with `Done` open; every other object
created so far has its `Done` closed once. -/
structure DoneOnce (sm : SessionManager) : Prop where
  known : ∀ {key ref}, sm.refAt key = some ref → ref < sm.nextRef
  apart : ∀ {key key' ref}, sm.refAt key = some ref → sm.refAt key' = some ref → key = key'
  isOpen : ∀ {key ref}, sm.refAt key = some ref → sm.doneCloses ref = 0
  closed : ∀ {ref}, ref < sm.nextRef → ¬ sm.InTable ref → sm.doneCloses ref = 1

variable {cfg : SessionConfig} {sm sm' : SessionManager}

theorem doneOnce_new : DoneOnce SessionManager.new := by
  constructor <;> simp [refAt, SessionManager.new]

variable (h : DoneOnce sm)

include h

theorem DoneOnce.congr (hsessions : sm'.sessions = sm.sessions) (hnext : sm'.nextRef = sm.nextRef)
    (hcloses : sm'.doneCloses = sm.doneCloses) : DoneOnce sm' := by
  have hrefAt : sm'.refAt = sm.refAt := by unfold refAt; rw [hsessions]
  constructor <;> simp only [InTable, hrefAt, hnext, hcloses]
  exacts [h.known, h.apart, h.isOpen, h.closed]

theorem DoneOnce.cleanup {sessionKey : String} {session : Session}
    (hlive : sm.sessions.lookup sessionKey = some session) (reason : String) :
    DoneOnce (sm.cleanupSessionLocked sessionKey session reason) := by
  have hself : sm.refAt sessionKey = some session.ref := by simp [refAt, hlive]
  have hrefAt (key) : (sm.cleanupSessionLocked sessionKey session reason).refAt key =
      if key = sessionKey then none else sm.refAt key := by
    unfold refAt
    rw [cleanupSessionLocked_sessions, Lib.Entries.lookup_erase]
    split <;> rfl
  have hcloses (ref) : (sm.cleanupSessionLocked sessionKey session reason).doneCloses ref =
      if ref = session.ref then 1 else sm.doneCloses ref := by
    have hopen := h.isOpen hself
    simp only [doneCloses, cleanupSessionLocked, Function.update_apply] at hopen ⊢
    split
    · exact congrArg (· + 1) hopen
    · rfl
  have hnext : (sm.cleanupSessionLocked sessionKey session reason).nextRef = sm.nextRef :=
    stopAndDeleteTimer_nextRef sessionKey
  constructor <;> simp only [InTable, hrefAt, hcloses, hnext]
  all_goals grind [DoneOnce, InTable]

theorem DoneOnce.update {sessionKey : String} (hnone : sm.refAt sessionKey = none)
    (hnext : sm'.nextRef = sm.nextRef + 1)
    (hrefAt : ∀ key, sm'.refAt key = if key = sessionKey then some sm.nextRef else sm.refAt key)
    (hcloses : ∀ ref, sm'.doneCloses ref = if ref = sm.nextRef then 0 else sm.doneCloses ref) :
    DoneOnce sm' := by
  constructor <;> simp only [InTable, hrefAt, hcloses, hnext]
  all_goals grind [DoneOnce, InTable]

theorem DoneOnce.createSession (now : Time) (sessionKey userID url : String)
    (hfresh : CreatesFreshKey cfg sm (.createSession now sessionKey userID url)) :
    DoneOnce (orUnchanged sm (sm.createSession cfg now sessionKey userID url)) := by
  rw [createSession_eq]
  split
  · exact h
  next hquota =>
    have hnone : sm.refAt sessionKey = none := by simp [refAt, hfresh.resolve_right hquota]
    refine h.update hnone rfl (fun key => ?_) fun ref => ?_
    · simp only [orUnchanged, refAt, Lib.Entries.lookup_insert]
      split <;> rfl
    · simp only [orUnchanged, doneCloses, Function.update_apply]
      split <;> rfl

theorem DoneOnce.apply {op : SessionOp} (hfresh : CreatesFreshKey cfg sm op)
    (hstep : SessionIndex.apply cfg sm op = some sm') : DoneOnce sm' := by
  refine apply_keeps (fun h => h.cleanup)
    (fun same => h.congr same.sessions same.nextRef (funext fun ref => (same.vars ref).1)) ?_ hstep
  rintro now sessionKey userID url rfl
  exact h.createSession now sessionKey userID url hfresh

end SessionManager

namespace SessionIndex

open SessionManager

variable {cfg : SessionConfig} {sm : SessionManager}

/-- While no session is created under a live key, every session object ever created is in the
table with its `Done` channel open, or out of it with the channel closed once. -/
theorem in_table_open_or_closed_once (h : (system cfg).Reachable (CreatesFreshKey cfg) sm)
    {ref : Nat} (hcreated : ref < sm.nextRef) :
    sm.InTable ref ∧ sm.doneCloses ref = 0 ∨ ¬ sm.InTable ref ∧ sm.doneCloses ref = 1 := by
  have hinv : DoneOnce sm :=
    h.invariant doneOnce_new fun _ _ _ hsm hfresh hstep => hsm.apply hfresh hstep
  by_cases hin : sm.InTable ref
  · obtain ⟨key, hkey⟩ := hin
    exact .inl ⟨⟨key, hkey⟩, hinv.isOpen hkey⟩
  · exact .inr ⟨hin, hinv.closed hcreated hin⟩

instance (sm : SessionManager) (ref : Nat) : Decidable (sm.InTable ref) :=
  decidable_of_iff (∃ sessionKey ∈ sm.sessions.keys, sm.refAt sessionKey = some ref)
    ⟨fun ⟨key, _, hkey⟩ => ⟨key, hkey⟩, fun ⟨key, hkey⟩ => ⟨key, by
      obtain ⟨session, hsession, -⟩ := Option.map_eq_some_iff.mp hkey
      exact Lib.Entries.mem_of_lookup hsession, hkey⟩⟩

/-- The first session of the run of the index, which expires. -/
theorem closed_once_exampleRun : ∃ sm,
    (system exampleConfig).run (CreatesFreshKey exampleConfig) exampleRun = some sm ∧
      (sm.InTable 0 ∧ sm.doneCloses 0 = 0 ∨ ¬ sm.InTable 0 ∧ sm.doneCloses 0 = 1) :=
  ⟨_, rfl, in_table_open_or_closed_once
    (System.reachable_of_run (S := system exampleConfig) exampleRun rfl) (by decide)⟩

/-- The second create takes the first session's key: the first object leaves the table with
its `Done` channel open. -/
theorem replaced_session_stays_open : ∃ sm, (system exampleConfig).Reachable System.anyAction sm ∧
    0 < sm.nextRef ∧ ¬ sm.InTable 0 ∧ sm.doneCloses 0 = 0 := by
  refine ⟨_, System.reachable_of_run
    [.createSession 0 "s1" "alice" "", .createSession 1 "s1" "bob" ""] rfl, ?_⟩
  decide

end SessionIndex

end Kagenti.TokenBroker
