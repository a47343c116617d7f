import Kagenti.Lib.Transition
import Kagenti.TokenBroker.SessionManager

/-!
Runs of the session manager and the agreement of its two tables: `userSessions` is meant to be the
inverse of the owner map of `sessions`.
-/

namespace Kagenti.TokenBroker

open Lib.Transition

namespace SessionManager

variable (sm : SessionManager)

def owner (sessionKey : String) : Option String :=
  (sm.sessions.lookup sessionKey).map Session.userID

def doneCloses (ref : Nat) : Nat := (sm.vars ref).doneCloses

def liveKeys (userID : String) : List String :=
  (sm.sessions.entries.filter fun entry => entry.2.userID = userID).map Sigma.fst

variable {sm}

theorem mem_liveKeys {sessionKey userID : String} :
    sessionKey ∈ sm.liveKeys userID ↔ sm.owner sessionKey = some userID := by
  simp only [liveKeys, owner, List.mem_map, List.mem_filter, decide_eq_true_eq,
    Option.map_eq_some_iff]
  constructor
  · rintro ⟨⟨key, session⟩, ⟨hmem, huser⟩, rfl⟩
    exact ⟨session, AList.mem_lookup_iff.mpr hmem, huser⟩
  · rintro ⟨session, hlookup, huser⟩
    exact ⟨⟨sessionKey, session⟩, ⟨AList.mem_lookup_iff.mp hlookup, huser⟩, rfl⟩

theorem nodup_liveKeys (userID : String) : (sm.liveKeys userID).Nodup := by
  have hsub : (sm.liveKeys userID).Sublist sm.sessions.keys :=
    List.filter_sublist.map Sigma.fst
  exact sm.sessions.keys_nodup.sublist hsub

@[simp] theorem owner_cleanupSessionLocked (sessionKey : String) (session : Session)
    (reason key : String) :
    (sm.cleanupSessionLocked sessionKey session reason).owner key =
      if key = sessionKey then none else sm.owner key := by
  unfold owner
  rw [cleanupSessionLocked_sessions, Lib.Entries.lookup_erase]
  split <;> rfl

end SessionManager

inductive SessionOp where
  | createSession (now : Time) (sessionKey userID backendRedirectURL : String)
  | endSession (sessionKey : String)
  | expireSession (sessionKey : String)
  | resetSessionTimer (now : Time) (sessionKey : String)
  | startSessionTimer (sessionKey : String)
  | fireTimer (timer : Timer)
  | runFiredTimer (timer : Timer)
  | shutdown (order : List String)
  deriving DecidableEq

namespace SessionIndex

open SessionManager

def orUnchanged (sm : SessionManager) : Except String SessionManager → SessionManager
  | .ok sm' => sm'
  | .error _ => sm

def apply (cfg : SessionConfig) (sm : SessionManager) : SessionOp → Option SessionManager
  | .createSession now sessionKey userID url =>
    some (orUnchanged sm (sm.createSession cfg now sessionKey userID url))
  | .endSession sessionKey => some (orUnchanged sm (sm.endSession sessionKey))
  | .expireSession sessionKey => some (sm.expireSession sessionKey)
  | .resetSessionTimer now sessionKey => some (sm.resetSessionTimer cfg now sessionKey)
  | .startSessionTimer sessionKey => some (sm.startSessionTimer sessionKey)
  | .fireTimer timer => sm.fireTimer timer
  | .runFiredTimer timer => sm.runFiredTimer timer
  | .shutdown order => sm.shutdown order

def system (cfg : SessionConfig) : System SessionManager SessionOp where
  init := SessionManager.new
  step := apply cfg

/-! What an operation can do -/

structure SameSessions (sm sm' : SessionManager) : Prop where
  sessions : sm'.sessions = sm.sessions
  userSessions : sm'.userSessions = sm.userSessions
  nextRef : sm'.nextRef = sm.nextRef
  vars : ∀ ref, (sm'.vars ref).doneCloses = (sm.vars ref).doneCloses ∧
    (sm'.vars ref).semaphoreTaken = (sm.vars ref).semaphoreTaken ∧
    (sm'.vars ref).activeOAuthTx = (sm.vars ref).activeOAuthTx ∧
    (sm'.vars ref).eventWaiters = (sm.vars ref).eventWaiters

/-- The key of the session that the operation removes where it is live. -/
def removes : SessionOp → Option String
  | .endSession sessionKey | .expireSession sessionKey => some sessionKey
  | .runFiredTimer timer => some timer.sessionKey
  | _ => none

inductive OpMove (cfg : SessionConfig) (sm : SessionManager) : SessionOp → SessionManager → Prop
  | created (now : Time) (sessionKey userID url : String) :
      OpMove cfg sm (.createSession now sessionKey userID url)
        (orUnchanged sm (sm.createSession cfg now sessionKey userID url))
  | same {op : SessionOp} {sm' : SessionManager} (hsame : SameSessions sm sm') : OpMove cfg sm op sm'
  | removed {op : SessionOp} {sm' : SessionManager} {sessionKey : String} {session : Session}
      (hsame : SameSessions sm sm') (hremoves : removes op = some sessionKey)
      (hlive : sm'.sessions.lookup sessionKey = some session) (reason : String) :
      OpMove cfg sm op (sm'.cleanupSessionLocked sessionKey session reason)
  | shutdown {order : List String} {sm' : SessionManager} (hsame : SameSessions sm sm')
      (hperm : order.Perm sm.sessions.keys) : OpMove cfg sm (.shutdown order) (sm'.cleanupAll order)

section Moves

variable {cfg : SessionConfig} {sm sm' : SessionManager} {op : SessionOp}

theorem SameSessions.refl (sm : SessionManager) : SameSessions sm sm :=
  ⟨rfl, rfl, rfl, fun _ => ⟨rfl, rfl, rfl, rfl⟩⟩

theorem SameSessions.expire (hsame : SameSessions sm sm') {sessionKey : String}
    (hremoves : removes op = some sessionKey) :
    OpMove cfg sm op (sm'.expireSession sessionKey) := by
  unfold SessionManager.expireSession
  split
  next session hlive => exact .removed hsame hremoves hlive _
  · exact .same hsame

theorem apply_move (hstep : apply cfg sm op = some sm') : OpMove cfg sm op sm' := by
  cases op with
  | createSession now sessionKey userID url =>
    cases hstep
    exact .created now sessionKey userID url
  | endSession sessionKey =>
    cases hstep
    unfold SessionManager.endSession
    split
    next session hlive => exact .removed (.refl sm) rfl hlive _
    · exact .same (.refl sm)
  | expireSession sessionKey =>
    cases hstep
    exact (SameSessions.refl sm).expire rfl
  | resetSessionTimer now sessionKey =>
    cases hstep
    unfold SessionManager.resetSessionTimer
    split
    · refine .same ⟨by simp, by simp, by simp, fun ref => ?_⟩
      simp only [Function.update_apply]
      split <;> simp_all
    · exact .same (.refl sm)
  | startSessionTimer sessionKey =>
    cases hstep
    unfold SessionManager.startSessionTimer
    split
    · dsimp only
      split <;> exact .same ⟨rfl, rfl, rfl, fun _ => ⟨rfl, rfl, rfl, rfl⟩⟩
    · exact .same (.refl sm)
  | fireTimer timer =>
    obtain ⟨-, ⟨⟩⟩ := Option.ite_none_right_eq_some.mp hstep
    exact .same ⟨rfl, rfl, rfl, fun _ => ⟨rfl, rfl, rfl, rfl⟩⟩
  | runFiredTimer timer =>
    obtain ⟨-, ⟨⟩⟩ := Option.ite_none_right_eq_some.mp hstep
    have hsame : SameSessions sm { sm with fired := sm.fired.erase timer } :=
      ⟨rfl, rfl, rfl, fun _ => ⟨rfl, rfl, rfl, rfl⟩⟩
    exact hsame.expire rfl
  | shutdown order =>
    obtain ⟨hperm, hstep⟩ := Option.ite_none_right_eq_some.mp hstep
    split at hstep <;> cases hstep
    · exact .same (.refl sm)
    · exact .shutdown ⟨rfl, rfl, rfl, fun _ => ⟨rfl, rfl, rfl, rfl⟩⟩ hperm

/-- A property that is kept when a live session is cleaned up, and that reads only the tables
and the closed channels, is kept by every operation other than `CreateSession`. -/
theorem apply_keeps {P : SessionManager → Prop}
    (hcleanup : ∀ {sm sessionKey session}, P sm → sm.sessions.lookup sessionKey = some session →
      ∀ reason, P (sm.cleanupSessionLocked sessionKey session reason))
    (hsame : ∀ {sm'}, SameSessions sm sm' → P sm')
    (hcreate : ∀ now sessionKey userID url, op = .createSession now sessionKey userID url →
      P (orUnchanged sm (sm.createSession cfg now sessionKey userID url)))
    (hstep : apply cfg sm op = some sm') : P sm' := by
  cases apply_move hstep with
  | created now sessionKey userID url => exact hcreate now sessionKey userID url rfl
  | same same => exact hsame same
  | removed same _ hlive reason => exact hcleanup (hsame same) hlive reason
  | @shutdown order sm₁ same hperm =>
    have hall (order : List String) {sm : SessionManager} (h : P sm) : P (sm.cleanupAll order) := by
      induction order generalizing sm with
      | nil => exact h
      | cons sessionKey rest ih => grind [SessionManager.cleanupAll]
    exact hall order (hsame same)

end Moves

structure Indexed (cfg : SessionConfig) (sm : SessionManager) : Prop where
  count_eq : ∀ userID sessionKey, (sm.userKeys userID).count sessionKey =
    if sm.owner sessionKey = some userID then 1 else 0
  length_le : ∀ userID, (sm.userKeys userID).length ≤ cfg.maxSessionsPerUser

def CreatesFreshKey (cfg : SessionConfig) (sm : SessionManager) : SessionOp → Prop
  | .createSession _ sessionKey userID _ =>
    sm.sessions.lookup sessionKey = none ∨ cfg.maxSessionsPerUser ≤ (sm.userKeys userID).length
  | _ => True

variable {cfg : SessionConfig} {sm sm' : SessionManager}

theorem indexed_new (cfg : SessionConfig) : Indexed cfg SessionManager.new where
  count_eq _ _ := by simp [SessionManager.new, userKeys, owner]
  length_le _ := by simp [SessionManager.new, userKeys]

theorem Indexed.congr (h : Indexed cfg sm) (hsessions : sm'.sessions = sm.sessions)
    (huserSessions : sm'.userSessions = sm.userSessions) : Indexed cfg sm' := by
  have hkeys : ∀ userID, sm'.userKeys userID = sm.userKeys userID := by
    intro userID
    simp only [userKeys, huserSessions]
  have howner : ∀ sessionKey, sm'.owner sessionKey = sm.owner sessionKey := by
    intro sessionKey
    simp only [owner, hsessions]
  constructor
  · intro userID sessionKey
    rw [hkeys, howner]
    exact h.count_eq userID sessionKey
  · intro userID
    rw [hkeys]
    exact h.length_le userID

theorem Indexed.cleanup (h : Indexed cfg sm) {sessionKey : String} {session : Session}
    (hlive : sm.sessions.lookup sessionKey = some session) (reason : String) :
    Indexed cfg (sm.cleanupSessionLocked sessionKey session reason) := by
  have howner : sm.owner sessionKey = some session.userID := by simp [owner, hlive]
  constructor
  · intro userID key
    rw [cleanupSessionLocked_userKeys, owner_cleanupSessionLocked]
    by_cases hkey : key = sessionKey
    · subst hkey
      by_cases huser : userID = session.userID
      · simp [huser, List.count_eq_zero]
      · have hcount := h.count_eq userID key
        rw [howner, if_neg (by simpa using Ne.symm huser)] at hcount
        simp [huser, hcount]
    · rw [if_neg hkey]
      by_cases huser : userID = session.userID
      · rw [if_pos huser, List.count_filter (by simpa using hkey)]
        exact h.count_eq userID key
      · rw [if_neg huser]
        exact h.count_eq userID key
  · intro userID
    rw [cleanupSessionLocked_userKeys]
    split
    · exact Nat.le_trans (List.length_filter_le _ _) (h.length_le userID)
    · exact h.length_le userID

theorem createSession_tables (cfg : SessionConfig) (now : Time)
    (sessionKey userID url : String)
    (hquota : (sm.userKeys userID).length < cfg.maxSessionsPerUser) :
    ∃ sm', sm.createSession cfg now sessionKey userID url = .ok sm' ∧
      (∀ user, sm'.userKeys user =
        if user = userID then sm.userKeys userID ++ [sessionKey] else sm.userKeys user) ∧
      (∀ key, sm'.owner key = if key = sessionKey then some userID else sm.owner key) := by
  rw [createSession_eq, if_neg (Nat.not_le.mpr hquota)]
  refine ⟨_, rfl, fun user => insert_userKeys userID user _, fun key => ?_⟩
  unfold owner
  rw [Lib.Entries.lookup_insert]
  split <;> rfl

theorem Indexed.createSession (h : Indexed cfg sm) (now : Time)
    (sessionKey userID url : String)
    (hfresh : CreatesFreshKey cfg sm (.createSession now sessionKey userID url)) :
    Indexed cfg (orUnchanged sm (sm.createSession cfg now sessionKey userID url)) := by
  by_cases hquota : (sm.userKeys userID).length < cfg.maxSessionsPerUser
  · obtain ⟨sm', hok, hkeys, howner⟩ :=
      createSession_tables cfg now sessionKey userID url hquota
    rw [hok]
    have hnone : sm.owner sessionKey = none := by
      rcases hfresh with hnone | hfull
      · simp [owner, hnone]
      · omega
    constructor
    · intro user key
      change (sm'.userKeys user).count key = if sm'.owner key = some user then 1 else 0
      have hcount := h.count_eq user key
      rw [hkeys, howner]
      by_cases hkey : key = sessionKey
      · grind
      · grind
    · intro user
      change (sm'.userKeys user).length ≤ cfg.maxSessionsPerUser
      rw [hkeys]
      split
      · simpa [Nat.succ_le_iff] using hquota
      · exact h.length_le user
  · rw [createSession_eq, if_pos (Nat.not_lt.mp hquota)]
    exact h

theorem indexed_step (h : Indexed cfg sm) (op : SessionOp)
    (hfresh : CreatesFreshKey cfg sm op) (hstep : apply cfg sm op = some sm') :
    Indexed cfg sm' := by
  refine apply_keeps (fun h => h.cleanup)
    (fun same => h.congr same.sessions same.userSessions) ?_ hstep
  rintro now sessionKey userID url rfl
  exact h.createSession now sessionKey userID url hfresh

theorem indexed_reachable (h : (system cfg).Reachable (CreatesFreshKey cfg) sm) :
    Indexed cfg sm :=
  h.invariant (indexed_new cfg) fun _ op _ hsm hfresh hstep =>
    indexed_step hsm op hfresh hstep

theorem Indexed.perm_liveKeys (h : Indexed cfg sm) (userID : String) :
    (sm.userKeys userID).Perm (sm.liveKeys userID) := by
  rw [List.perm_iff_count]
  intro sessionKey
  rw [h.count_eq, (nodup_liveKeys userID).count]
  simp only [mem_liveKeys]

structure IndexExact (cfg : SessionConfig) (sm : SessionManager) : Prop where
  occurs : ∀ userID sessionKey, (sm.userKeys userID).count sessionKey =
    if sm.owner sessionKey = some userID then 1 else 0
  counts : ∀ userID, sm.getUserSessionCount userID = (sm.liveKeys userID).length
  refuses : ∀ now sessionKey userID url,
    sm.createSession cfg now sessionKey userID url =
        .error "max sessions per user exceeded" ↔
      (sm.liveKeys userID).length = cfg.maxSessionsPerUser

/-- The index is exact in every state of every run that creates sessions only under
keys that are not live. -/
theorem indexExact_of_fresh_keys (cfg : SessionConfig) (sm : SessionManager)
    (h : (system cfg).Reachable (CreatesFreshKey cfg) sm) : IndexExact cfg sm := by
  have hindexed := indexed_reachable h
  have hlength : ∀ userID, (sm.userKeys userID).length = (sm.liveKeys userID).length :=
    fun userID => (hindexed.perm_liveKeys userID).length_eq
  refine ⟨hindexed.count_eq, ?_, ?_⟩
  · intro userID
    rw [getUserSessionCount_eq, hlength]
  · intro now sessionKey userID url
    have hle := hindexed.length_le userID
    rw [createSession_eq, ← hlength userID]
    split
    next hfull => simpa using Nat.le_antisymm hle hfull
    next hroom =>
      simp only [reduceCtorEq, false_iff]
      omega

def exampleConfig : SessionConfig where
  sessionTimeout := 60000000000
  maxSessionsPerUser := 2
  sessionTimeout_pos := by decide
  maxSessionsPerUser_pos := by decide

def exampleRun : List SessionOp :=
  [.createSession 0 "s1" "alice" "", .createSession 1 "s2" "alice" "",
    .createSession 2 "s3" "alice" "", .expireSession "s1", .createSession 3 "s1" "bob" ""]

instance (cfg : SessionConfig) (sm : SessionManager) : DecidablePred (CreatesFreshKey cfg sm) := by
  intro action
  unfold CreatesFreshKey
  split <;> infer_instance

/-- A run with a refusal by the quota, an expiry and a key that is used again. -/
theorem indexExact_exampleRun :
    ∃ sm, (system exampleConfig).run (CreatesFreshKey exampleConfig) exampleRun = some sm ∧
      IndexExact exampleConfig sm := by
  refine ⟨_, rfl, indexExact_of_fresh_keys _ _ (System.reachable_of_run exampleRun rfl)⟩

/-- A user creates a session under a key that another user's session already has. The
first user's list keeps the key although that user has no live session. -/
theorem index_stale_after_live_key :
    ¬ ∀ sm, (system exampleConfig).Reachable System.anyAction sm → IndexExact exampleConfig sm := by
  intro hexact
  obtain ⟨sm, hrun, hcount⟩ : ∃ sm ∈ (system exampleConfig).run System.anyAction
      [.createSession 0 "s1" "alice" "", .createSession 1 "s1" "bob" ""],
      sm.getUserSessionCount "alice" ≠ (sm.liveKeys "alice").length := by
    decide
  exact hcount ((hexact sm (System.reachable_of_run _ hrun)).counts "alice")

/-- What is left of `Indexed` when a live key can be created again: every live session is listed
under its owner, and no list is longer than the quota. -/
def Bounded (cfg : SessionConfig) (sm : SessionManager) : Prop :=
  ∀ userID, (∀ key, sm.owner key = some userID → key ∈ sm.userKeys userID) ∧
    (sm.userKeys userID).length ≤ cfg.maxSessionsPerUser

theorem bounded_step (h : Bounded cfg sm) {op : SessionOp} (hstep : apply cfg sm op = some sm') :
    Bounded cfg sm' := by
  refine apply_keeps (fun h _ _ user => ?_) (fun same user => ?_) ?_ hstep
  · have before := h user
    simp only [cleanupSessionLocked_userKeys, owner_cleanupSessionLocked]
    split <;> grind
  · simpa only [owner, userKeys, same.sessions, same.userSessions] using h user
  · rintro now key userID url -
    by_cases room : (sm.userKeys userID).length < cfg.maxSessionsPerUser
    · obtain ⟨sm', ok, keys, owner⟩ := createSession_tables cfg now key userID url room
      intro user
      have before := h user
      simp only [ok, orUnchanged, keys, owner]
      split <;> grind
    · rw [createSession_eq, if_pos (Nat.not_lt.mp room)]
      exact h

/-- In every run, also where the index is stale, each live session is listed under its owner and
no user has more than the quota, neither listed nor live. -/
theorem live_within_quota (h : (system cfg).Reachable System.anyAction sm) :
    Bounded cfg sm ∧ ∀ userID, (sm.liveKeys userID).length ≤ cfg.maxSessionsPerUser := by
  have new : Bounded cfg .new := by simp [Bounded, SessionManager.new, owner, userKeys]
  have bounded : Bounded cfg sm := h.invariant new fun _ _ _ h _ => bounded_step h
  refine ⟨bounded, fun userID => ?_⟩
  obtain ⟨listed, within⟩ := bounded userID
  have contained := List.subperm_of_subset (nodup_liveKeys userID) fun key live =>
    listed key (mem_liveKeys.mp live)
  exact Nat.le_trans contained.length_le within

/-- A key that passes to another user leaves a stale entry with the first. -/
theorem live_within_quota_stale : ∃ sm, (system exampleConfig).Reachable System.anyAction sm ∧
    Bounded exampleConfig sm ∧ ∀ userID, (sm.liveKeys userID).length ≤ 2 := by
  have reach := System.reachable_of_run (S := system exampleConfig) (G := System.anyAction)
    [.createSession 0 "s1" "alice" "", .createSession 1 "s1" "bob" ""] rfl
  exact ⟨_, reach, live_within_quota reach⟩

end SessionIndex

end Kagenti.TokenBroker
