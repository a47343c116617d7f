import Kagenti.TokenBroker.Isolation
import Kagenti.TokenBroker.LongPoll

/-!
Which timer expires a session (`StartSessionTimer`, `ResetSessionTimer` and `ExpireSession` of
`internal/session/manager.go`). A timer's function knows only the key it captured.
-/

namespace Kagenti.TokenBroker

open Lib.Transition Effects
open Isolation (exampleConfig)

namespace SessionManager

variable {sm : SessionManager}

theorem timers_stopAndDeleteTimer (key key' : String) :
    (sm.stopAndDeleteTimer key).timers.lookup key' =
      if key' = key then none else sm.timers.lookup key' := by
  unfold stopAndDeleteTimer
  split
  · rw [Lib.Entries.lookup_erase]
  next hnone =>
    split
    · subst key'
      exact hnone
    · rfl

@[simp] theorem stopAndDeleteTimer_fired (key : String) :
    (sm.stopAndDeleteTimer key).fired = sm.fired := by
  unfold stopAndDeleteTimer
  split <;> rfl

@[simp] theorem stopAndDeleteTimer_nextTimer (key : String) :
    (sm.stopAndDeleteTimer key).nextTimer = sm.nextTimer := by
  unfold stopAndDeleteTimer
  split <;> rfl

end SessionManager

namespace Timers

open SessionManager

structure TimersOk (sm : SessionManager) (owner : Nat → Option Nat) : Prop where
  key_eq : ∀ key s, sm.sessions.lookup key = some s → s.sessionKey = key
  set : ∀ key t, sm.timers.lookup key = some t → t.sessionKey = key ∧ t.id < sm.nextTimer ∧
    ∃ s, sm.sessions.lookup key = some s ∧ owner t.id = some s.ref
  armed : ∀ t ∈ sm.armed, sm.timers.lookup t.sessionKey = some t
  fired : ∀ t ∈ sm.fired, ∀ s, sm.sessions.lookup t.sessionKey = some s →
    sm.timers.lookup t.sessionKey = some t

variable {sm sm' : SessionManager} {owner : Nat → Option Nat}

theorem timersOk_new : TimersOk SessionManager.new owner := by
  constructor <;> intros <;> simp_all [SessionManager.new]

variable {key : String}

theorem armed_stopAndDeleteTimer (h : TimersOk sm owner) {t : Timer}
    (ht : t ∈ (sm.stopAndDeleteTimer key).armed) : t ∈ sm.armed ∧ t.sessionKey ≠ key := by
  have := h.armed t
  unfold stopAndDeleteTimer stopTimer at ht
  grind

structure PollsOk (sm : SessionManager) (polls : List PollCall) : Prop where
  key_eq : ∀ c ∈ polls, ∀ s, c.On s → s.sessionKey = c.sessionKey
  unset : ∀ c ∈ polls, ∀ s, sm.sessions.lookup c.sessionKey = some s → c.On s →
    sm.timers.lookup c.sessionKey = none

/-- Sessions, timers and functions of timers can go; a timer goes before its session, and with
a function that waits only together with it. -/
structure Shrinks (sm sm' : SessionManager) : Prop where
  live : ∀ key s, sm'.sessions.lookup key = some s → sm.sessions.lookup key = some s
  set : ∀ key t, sm'.timers.lookup key = some t → sm.timers.lookup key = some t ∧
    sm'.nextTimer = sm.nextTimer ∧ sm'.sessions.lookup key = sm.sessions.lookup key
  armed : ∀ t ∈ sm'.armed,
    t ∈ sm.armed ∧ sm'.timers.lookup t.sessionKey = sm.timers.lookup t.sessionKey
  fired : ∀ t ∈ sm'.fired, sm'.sessions.lookup t.sessionKey = none ∨
    (t ∈ sm.fired ∨ t ∈ sm.armed) ∧ sm'.timers.lookup t.sessionKey = sm.timers.lookup t.sessionKey

/-- What holds of the timers, the sessions that they were set for and the polls in flight. -/
structure Ok (sm : SessionManager) (owner : Nat → Option Nat) (polls : List PollCall) : Prop where
  timers : TimersOk sm owner
  polls : PollsOk sm polls

variable {polls : List PollCall}

theorem Shrinks.ok (hsm : Shrinks sm sm') (h : Ok sm owner polls) : Ok sm' owner polls := by
  obtain ⟨htimers, hpolls⟩ := h
  refine ⟨⟨fun key s hs => htimers.key_eq key s (hsm.live key s hs), ?_, ?_, ?_⟩, hpolls.key_eq, ?_⟩
  · intro key t ht
    obtain ⟨ht, hnext, hsame⟩ := hsm.set key t ht
    rw [hsame, hnext]
    exact htimers.set key t ht
  · intro t ht
    obtain ⟨hmem, hsame⟩ := hsm.armed t ht
    exact hsame.trans (htimers.armed t hmem)
  · intro t ht s hs
    obtain hgone | ⟨hmem, hsame⟩ := hsm.fired t ht
    · cases hgone.symm.trans hs
    · exact hsame.trans (hmem.elim (htimers.fired t · s (hsm.live _ s hs)) (htimers.armed t))
  · intro c hc s hs hon
    have hunset := hpolls.unset c hc s (hsm.live _ s hs) hon
    refine Option.eq_none_iff_forall_not_mem.mpr fun t ht => ?_
    cases hunset.symm.trans (hsm.set _ t ht).1

theorem Shrinks.of_vars (hsm : sm' = { sm with vars := sm'.vars }) : Shrinks sm sm' := by
  rw [hsm]
  exact ⟨fun _ _ => id, fun _ _ ht => ⟨ht, rfl, rfl⟩, fun _ ht => ⟨ht, rfl⟩,
    fun _ ht => .inr ⟨.inl ht, rfl⟩⟩

section

variable (h : TimersOk sm owner)

include h

theorem TimersOk.stopAndDelete (htimers : sm'.timers = (sm.stopAndDeleteTimer key).timers)
    (harmed : sm'.armed = (sm.stopAndDeleteTimer key).armed) (hfired : sm'.fired = sm.fired)
    (hnext : sm'.nextTimer = sm.nextTimer)
    (hlive : ∀ key', key' ≠ key → sm'.sessions.lookup key' = sm.sessions.lookup key')
    (hquiet : sm'.sessions.lookup key = none ∨ sm'.sessions.lookup key =
      sm.sessions.lookup key ∧ ∀ t ∈ sm.fired, t.sessionKey ≠ key)
    : Shrinks sm sm' := by
  have hset (key' : String) : sm'.timers.lookup key' =
      if key' = key then none else sm.timers.lookup key' := by
    rw [htimers, timers_stopAndDeleteTimer]
  refine ⟨?_, ?_, ?_, ?_⟩
  · grind
  · grind
  · intro t ht
    obtain ⟨hmem, hne⟩ := armed_stopAndDeleteTimer h (harmed ▸ ht)
    exact ⟨hmem, (hset _).trans (if_neg hne)⟩
  · grind

theorem TimersOk.cleanup (key : String) (s : Session) (reason : String) :
    Shrinks sm (sm.cleanupSessionLocked key s reason) :=
  h.stopAndDelete rfl rfl (stopAndDeleteTimer_fired key) (stopAndDeleteTimer_nextTimer key)
    (fun _ hne => AList.lookup_erase_ne hne) (.inl (by simp))

theorem TimersOk.expireSession (key : String) : Shrinks sm (sm.expireSession key) := by
  unfold SessionManager.expireSession
  split
  · exact h.cleanup _ _ _
  · exact .of_vars rfl

theorem TimersOk.resetSessionTimer (cfg : SessionConfig) (now : Time) (key : String)
    (hquiet : sm.sessions.lookup key = none ∨ ∀ t ∈ sm.fired, t.sessionKey ≠ key) :
    Shrinks sm (sm.resetSessionTimer cfg now key) := by
  unfold SessionManager.resetSessionTimer
  split
  next s hlive =>
    refine h.stopAndDelete rfl rfl (stopAndDeleteTimer_fired key)
      (stopAndDeleteTimer_nextTimer key) (by simp) (.inr ⟨by simp, ?_⟩)
    exact hquiet.resolve_left (by simp [hlive])
  · exact .of_vars rfl

end

theorem Shrinks.dropFired (timer : Timer) :
    Shrinks sm { sm with fired := sm.fired.erase timer } :=
  ⟨fun _ _ => id, fun _ _ ht => ⟨ht, rfl, rfl⟩, fun _ ht => ⟨ht, rfl⟩,
    fun _ ht => .inr ⟨.inl (List.mem_of_mem_erase ht), rfl⟩⟩

theorem Shrinks.fireTimer {timer : Timer} (hfire : sm.fireTimer timer = some sm') :
    Shrinks sm sm' := by
  simp only [SessionManager.fireTimer, Option.ite_none_right_eq_some, Option.some.injEq] at hfire
  obtain ⟨harmed, rfl⟩ := hfire
  refine ⟨fun _ _ => id, fun _ _ ht => ⟨ht, rfl, rfl⟩,
    fun _ ht => ⟨List.mem_of_mem_filter ht, rfl⟩, fun t ht => .inr ⟨?_, rfl⟩⟩
  rcases List.mem_cons.mp ht with rfl | ht
  · exact .inr harmed
  · exact .inl ht

variable {s : Session}

theorem startSessionTimer_eq (hlive : sm.sessions.lookup key = some s) : sm.startSessionTimer key =
      { sm with
        timers := sm.timers.insert key ⟨sm.nextTimer, key⟩
        nextTimer := sm.nextTimer + 1
        armed := (sm.stopAndDeleteTimer key).armed ++ [⟨sm.nextTimer, key⟩] } := by
  unfold SessionManager.startSessionTimer stopAndDeleteTimer
  rw [hlive]
  cases sm.timers.lookup key <;> rfl

theorem startSessionTimer_of_gone (hgone : sm.sessions.lookup key = none) :
    sm.startSessionTimer key = sm := by
  simp [SessionManager.startSessionTimer, hgone]

theorem TimersOk.startSessionTimer (h : TimersOk sm owner) (hlive : sm.sessions.lookup key = some s)
    (hquiet : ∀ t ∈ sm.fired, t.sessionKey ≠ key) :
    TimersOk (sm.startSessionTimer key) (Function.update owner sm.nextTimer (some s.ref)) := by
  rw [startSessionTimer_eq hlive]
  have hold := @armed_stopAndDeleteTimer _ _ key h
  obtain ⟨hkey, hset, harmed, hfired⟩ := h
  refine ⟨hkey, ?_, ?_, ?_⟩
  · grind [Lib.Entries.lookup_insert]
  · grind [Lib.Entries.lookup_insert]
  · grind [Lib.Entries.lookup_insert]

variable {now : Time} {userID url : String}

theorem TimersOk.createSession (h : TimersOk sm owner) {cfg : SessionConfig}
    (hunset : sm.timers.lookup key = none) (hquiet : ∀ t ∈ sm.fired, t.sessionKey ≠ key)
    (hcreate : sm.createSession cfg now key userID url = .ok sm') : TimersOk sm' owner := by
  rw [createSession_eq] at hcreate
  split at hcreate <;> cases hcreate
  obtain ⟨hkey, hset, harmed, hfired⟩ := h
  refine ⟨?_, ?_, harmed, ?_⟩
  · grind [Lib.Entries.lookup_insert]
  · grind [Lib.Entries.lookup_insert]
  · grind [Lib.Entries.lookup_insert]

theorem sessions_cleanupAll (order : List String) (key : String) :
    (sm.cleanupAll order).sessions.lookup key =
      if key ∈ order then none else sm.sessions.lookup key := by
  induction order generalizing sm with
  | nil => simp [SessionManager.cleanupAll]
  | cons first rest ih =>
    unfold SessionManager.cleanupAll
    split
    · rw [ih, cleanupSessionLocked_sessions, Lib.Entries.lookup_erase]
      by_cases hkey : key = first <;> simp [hkey]
    next hnone => grind

theorem timers_cleanupAll (htimers : sm.timers = ∅) (harmed : sm.armed = [])
    (order : List String) :
    (sm.cleanupAll order).timers = ∅ ∧ (sm.cleanupAll order).armed = [] := by
  induction order generalizing sm with
  | nil => exact ⟨htimers, harmed⟩
  | cons key rest ih =>
    have hstop : sm.stopAndDeleteTimer key = sm := by
      simp [stopAndDeleteTimer, htimers]
    unfold SessionManager.cleanupAll
    split
    · refine ih ?_ ?_
      · rw [cleanupSessionLocked, hstop]
        exact htimers
      · rw [cleanupSessionLocked, hstop]
        exact harmed
    · exact ih htimers harmed

variable {order : List String}

theorem TimersOk.shutdown (h : TimersOk sm owner) (hshutdown : sm.shutdown order = some sm') :
    Shrinks sm sm' := by
  simp only [SessionManager.shutdown, Option.ite_none_right_eq_some] at hshutdown
  obtain ⟨hperm, hshutdown⟩ := hshutdown
  split at hshutdown <;> cases hshutdown
  · exact .of_vars rfl
  · have hgone (key : String) : (sm.stopAllTimers.cleanupAll order).sessions.lookup key = none := by
      rw [sessions_cleanupAll]
      split
      · rfl
      next hkey => exact AList.lookup_eq_none.mpr fun hmem => hkey (hperm.mem_iff.mpr hmem)
    have harmed : sm.stopAllTimers.armed = [] := by
      refine List.filter_eq_nil_iff.mpr fun t ht => ?_
      have hmem := AList.mem_lookup_iff.mp (h.armed t ht)
      simpa using ⟨_, hmem⟩
    obtain ⟨htimers', harmed'⟩ := timers_cleanupAll rfl harmed order
    refine ⟨fun key s hs => ?_, fun key t ht => ?_, fun t ht => ?_, fun t _ => .inl (hgone _)⟩
    · cases (hgone key).symm.trans hs
    · rw [htimers'] at ht
      cases ht
    · rw [harmed'] at ht
      cases ht

def ApiOk (a : Api) : Prop := Ok a.sessions a.timerOwner a.polls

def Pending (sm : SessionManager) (key : String) : Prop :=
  ∃ t ∈ sm.fired, t.sessionKey = key

def TimersUndisturbed (cfg : BrokerConfig) (a : Api) : ApiAction → Prop
  | .broker (.session (.createSession _ key userID _)) =>
    cfg.session.maxSessionsPerUser ≤ (a.sessions.userKeys userID).length ∨
      a.sessions.timers.lookup key = none ∧ ¬ Pending a.sessions key
  | .poll i .proceed => ∀ c ∈ a.polls[i]?, ∀ s ∈ a.sessions.sessions.lookup c.sessionKey,
      match c.pc with
      | .resetting => ¬ Pending a.sessions c.sessionKey
      | .starting _ _ => ¬ Pending a.sessions c.sessionKey ∧
          ∀ j < a.polls.length, j ≠ i → ∀ c' ∈ a.polls[j]?, ¬ c'.On s
      | _ => True
  | _ => True

theorem not_pending (h : ¬ Pending sm key) : ∀ t ∈ sm.fired, t.sessionKey ≠ key :=
  fun t ht hkey => h ⟨t, ht, hkey⟩

theorem PollsOk.createSession (h : PollsOk sm polls) {cfg : SessionConfig}
    (hunset : sm.timers.lookup key = none)
    (hcreate : sm.createSession cfg now key userID url = .ok sm') : PollsOk sm' polls := by
  rw [createSession_eq] at hcreate
  split at hcreate <;> cases hcreate
  refine ⟨h.key_eq, ?_⟩
  intro c hc s hs hon
  rw [Lib.Entries.lookup_insert] at hs
  split at hs
  next hkey =>
    rw [hkey]
    exact hunset
  · exact h.unset c hc s hs hon

variable {i : Nat} {c : PollCall} {pc : PollPc}

theorem PollsOk.set (h : PollsOk sm polls) {d : PollCall}
    (hd : ∀ s, d.On s → s.sessionKey = d.sessionKey ∧
      (sm.sessions.lookup d.sessionKey = some s → sm.timers.lookup d.sessionKey = none)) :
    PollsOk sm (polls.set i d) := by
  have hold (d' : PollCall) (hd' : d' ∈ polls.set i d) := List.mem_or_eq_of_mem_set hd'
  obtain ⟨hkey, hunset⟩ := h
  constructor <;> grind

theorem PollsOk.move (h : PollsOk sm polls) (hget : polls[i]? = some c)
    (hon : ∀ s, PollCall.On { c with pc := pc } s → s.sessionKey = c.sessionKey ∧
      (sm.sessions.lookup c.sessionKey = some s → c.On s)) :
    PollsOk sm (polls.set i { c with pc := pc }) := by
  have hmem := List.mem_of_getElem? hget
  exact h.set fun s hs =>
    ⟨(hon s hs).1, fun hlive => h.unset c hmem s hlive ((hon s hs).2 hlive)⟩

theorem unset_resetSessionTimer (cfg : SessionConfig) (now : Time)
    (hlive : (sm.resetSessionTimer cfg now key).sessions.lookup key = some s) :
    (sm.resetSessionTimer cfg now key).timers.lookup key = none := by
  unfold SessionManager.resetSessionTimer at hlive ⊢
  split
  · exact (timers_stopAndDeleteTimer key key).trans (if_pos rfl)
  next hgone =>
    simp only [hgone, reduceCtorEq] at hlive

theorem PollsOk.startSessionTimer (h : PollsOk sm polls) {response : PollResponse}
    (halone : ∀ s, sm.sessions.lookup c.sessionKey = some s →
      ∀ j < polls.length, j ≠ i → ∀ c' ∈ polls[j]?, ¬ c'.On s) :
    PollsOk (sm.startSessionTimer c.sessionKey)
      (polls.set i { c with pc := .returned response }) := by
  -- the poll itself is no longer in flight, so the property is one of the other polls
  have hrest : PollsOk sm (polls.set i { c with pc := .returned response }) :=
    h.set fun s hs => hs.elim
  cases hlive : sm.sessions.lookup c.sessionKey with
  | none =>
    rw [startSessionTimer_of_gone hlive]
    exact hrest
  | some s₀ =>
    rw [startSessionTimer_eq hlive]
    refine ⟨hrest.key_eq, ?_⟩
    intro d hd s hs hon
    have hkey : d.sessionKey ≠ c.sessionKey := by
      obtain ⟨j, hj⟩ := List.mem_iff_getElem?.mp hd
      rw [List.getElem?_set] at hj
      grind [PollCall.On]
    rw [Lib.Entries.lookup_insert, if_neg hkey]
    exact hrest.unset d hd s hs hon

variable {a : Api} {cfg : BrokerConfig}

theorem sessionOp_apiOk (ha : ApiOk a) {op : SessionOp} (hown : Api.ownAction (.session op) = false)
    (hguard : TimersUndisturbed cfg a (.broker (.session op)))
    (hop : SessionIndex.apply cfg.session a.sessions op = some sm) :
    Ok sm a.timerOwner a.polls := by
  have htimers := ha.timers
  cases op with
  | createSession now key userID url =>
    cases hop
    cases hcreate : a.sessions.createSession cfg.session now key userID url with
    | error e => exact ha
    | ok sm =>
      rcases hguard with hfull | ⟨hunset, hpending⟩
      · rw [createSession_eq, if_pos hfull] at hcreate
        cases hcreate
      · exact ⟨htimers.createSession hunset (not_pending hpending) hcreate,
          ha.polls.createSession hunset hcreate⟩
  | endSession key =>
    cases hop
    unfold SessionManager.endSession
    split
    · exact (htimers.cleanup _ _ _).ok ha
    · exact ha
  | expireSession | resetSessionTimer | startSessionTimer => cases hown
  | fireTimer timer => exact (Shrinks.fireTimer hop).ok ha
  | runFiredTimer timer =>
    obtain ⟨-, ⟨⟩⟩ := Option.ite_none_right_eq_some.mp hop
    have hdrop := (Shrinks.dropFired timer).ok ha
    exact (hdrop.timers.expireSession _).ok hdrop
  | shutdown order => exact (htimers.shutdown hop).ok ha

/-- A poll that is now on no session says nothing. -/
theorem done_ok (ha : ApiOk a) (hdone : ∀ s, ¬PollCall.On { c with pc := pc } s) :
    Ok a.sessions a.timerOwner (a.polls.set i { c with pc := pc }) :=
  ⟨ha.timers, ha.polls.set fun s hs => (hdone s hs).elim⟩

section

variable (ha : ApiOk a) (hget : a.polls[i]? = some c)

include ha hget

theorem resetting_ok (hpc : c.pc = .resetting)
    (hguard : TimersUndisturbed cfg a (.poll i .proceed)) (now : Time) :
    Ok (a.sessions.resetSessionTimer cfg.session now c.sessionKey) a.timerOwner
      (a.polls.set i { c with pc := .gettingSession }) := by
  have hquiet : a.sessions.sessions.lookup c.sessionKey = none ∨
      ∀ t ∈ a.sessions.fired, t.sessionKey ≠ c.sessionKey := by
    cases hlive : a.sessions.sessions.lookup c.sessionKey with
    | none => exact .inl rfl
    | some s =>
      have hquiet := hguard c hget s hlive
      rw [hpc] at hquiet
      exact .inr (not_pending hquiet)
  have hreset := (ha.timers.resetSessionTimer cfg.session now c.sessionKey hquiet).ok ha
  exact ⟨hreset.timers, hreset.polls.set fun s hs => ⟨hs, unset_resetSessionTimer _ _⟩⟩

theorem found_ok (hpc : c.pc = .gettingSession)
    (hlive : a.sessions.sessions.lookup c.sessionKey = some s) :
    Ok a.sessions a.timerOwner (a.polls.set i { c with pc := .waiting s }) := by
  have hkey := ha.timers.key_eq c.sessionKey s hlive
  refine ⟨ha.timers, ha.polls.move hget fun s' hs => ?_⟩
  obtain rfl : s = s' := hs
  exact ⟨hkey, fun _ => by simpa only [PollCall.On, hpc] using hkey⟩

/-- Every branch of the select leaves with the same session object. -/
theorem waiting_ok (hpc : c.pc = .waiting s) (response : PollResponse) :
    Ok a.sessions a.timerOwner (a.polls.set i { c with pc := .starting s response }) := by
  refine ⟨ha.timers, ha.polls.move hget fun s' hs => ?_⟩
  have hon : c.On s' := by
    simp only [PollCall.On, hpc]
    exact hs
  exact ⟨ha.polls.key_eq c (List.mem_of_getElem? hget) s' hon, fun _ => hon⟩

theorem starting_ok {response : PollResponse} (hpc : c.pc = .starting s response)
    (hguard : TimersUndisturbed cfg a (.poll i .proceed)) :
    Ok (a.sessions.startSessionTimer c.sessionKey) (a.recordOwner c)
      (a.polls.set i { c with pc := .returned response }) := by
  cases hlive : a.sessions.sessions.lookup c.sessionKey with
  | none =>
    rw [startSessionTimer_of_gone hlive]
    simp only [Api.recordOwner, hpc, hlive]
    exact done_ok ha fun s => id
  | some s =>
    have hquiet := hguard c hget s hlive
    rw [hpc] at hquiet
    obtain ⟨hpending, halone⟩ := hquiet
    simp only [Api.recordOwner, hpc, hlive]
    refine ⟨ha.timers.startSessionTimer hlive (not_pending hpending),
      ha.polls.startSessionTimer fun s' hs' => ?_⟩
    rw [← Option.some.inj (hlive.symm.trans hs')]
    exact halone

theorem poll_apiOk {move : PollMove} {sh : Shared}
    (hguard : TimersUndisturbed cfg a (.poll i move))
    (hcall : pollStep cfg.session a.broker.shared c move = some (sh, pc)) :
    Ok sh.sessions (a.recordOwner c) (a.polls.set i { c with pc := pc }) := by
  have howner : (∀ s response, c.pc ≠ .starting s response) → a.recordOwner c = a.timerOwner := by
    grind [Api.recordOwner]
  cases hpc : c.pc with
  | validating =>
    rw [howner (by simp [hpc])]
    cases move <;> simp only [pollStep, hpc, reduceCtorEq] at hcall
    split at hcall <;> cases hcall <;> exact done_ok ha fun s => id
  | resetting =>
    rw [howner (by simp [hpc])]
    cases move <;> simp only [pollStep, hpc, reduceCtorEq] at hcall
    cases hcall
    exact resetting_ok ha hget hpc hguard _
  | gettingSession =>
    rw [howner (by simp [hpc])]
    cases move <;> simp only [pollStep, hpc, reduceCtorEq] at hcall
    unfold SessionManager.getSession at hcall
    cases hlive : a.broker.shared.sessions.sessions.lookup c.sessionKey with
    | none =>
      rw [hlive] at hcall
      cases hcall
      exact done_ok ha fun s => id
    | some s =>
      rw [hlive] at hcall
      cases hcall
      exact found_ok ha hget hpc hlive
  | waiting session =>
    rw [howner (by simp [hpc])]
    cases move <;> simp only [pollStep, hpc, reduceCtorEq] at hcall
    · split at hcall <;> cases hcall
      exact (Shrinks.of_vars rfl).ok (waiting_ok ha hget hpc _)
    · split at hcall <;> cases hcall
      exact waiting_ok ha hget hpc _
    · cases hcall
      exact waiting_ok ha hget hpc _
  | starting session response =>
    cases move <;> simp only [pollStep, hpc, reduceCtorEq] at hcall
    cases hcall
    exact starting_ok ha hget hpc hguard
  | returned response => cases move <;> simp [pollStep, hpc] at hcall

end

theorem apiOk_step {a' : Api} (ha : ApiOk a) (action : ApiAction)
    (hguard : TimersUndisturbed cfg a action) (hstep : Api.step cfg a action = some a') :
    ApiOk a' := by
  cases action with
  | broker action =>
    simp only [Api.step] at hstep
    split at hstep
    · cases hstep
    next hown =>
      simp only [Option.map_eq_some_iff] at hstep
      obtain ⟨b, hbroker, rfl⟩ := hstep
      by_cases hsession : ∃ op, action = .session op
      · obtain ⟨op, rfl⟩ := hsession
        simp only [Broker.step, Option.map_eq_some_iff] at hbroker
        obtain ⟨sm, hop, rfl⟩ := hbroker
        exact (sessionOp_apiOk ha (by simpa using hown) hguard hop :)
      · have hsame := broker_step_sessions (fun op hop => hsession ⟨op, hop⟩) hbroker
        exact (Shrinks.of_vars hsame).ok ha
  | longPoll sessionKey userID =>
    cases hstep
    have hold {c s} (hc : c ∈ a.polls ++ [⟨sessionKey, userID, .validating⟩]) (hs : c.On s) :
        c ∈ a.polls := by
      rcases List.mem_append.mp hc with hc | hc
      · exact hc
      · rw [List.mem_singleton.mp hc] at hs
        exact hs.elim
    exact ⟨ha.timers, fun c hc s hs => ha.polls.key_eq c (hold hc hs) s hs,
      fun c hc s hlive hs => ha.polls.unset c (hold hc hs) s hlive hs⟩
  | poll i move =>
    obtain ⟨c, sh, pc, hget, hcall, rfl⟩ := poll_step hstep
    exact poll_apiOk ha hget hguard hcall

theorem apiOk_init : ApiOk Api.init :=
  ⟨timersOk_new, by simp [Api.init], by simp [Api.init]⟩

theorem apiOk_reachable (h : (Api.system cfg).Reachable (TimersUndisturbed cfg) a) : ApiOk a :=
  h.invariant (I := ApiOk) apiOk_init fun _ action _ ha hguard hstep =>
    apiOk_step ha action hguard hstep

def OwnTimer (a : Api) (t : Timer) (s : Session) : Prop :=
  a.sessions.timers.lookup s.sessionKey = some t ∧ a.timerOwner t.id = some s.ref ∧
    ∀ c ∈ a.polls, ¬ c.On s

/-- In every run that leaves the timers of a key alone while a function of one of them
waits for the lock, the session that such a function would find and expire is the one of
its own timer. -/
theorem expired_by_own_timer (cfg : BrokerConfig) (a : Api)
    (h : (Api.system cfg).Reachable (TimersUndisturbed cfg) a) (t : Timer)
    (hfired : t ∈ a.sessions.fired) (s : Session)
    (hlive : a.sessions.sessions.lookup t.sessionKey = some s) : OwnTimer a t s := by
  obtain ⟨htimers, hpolls⟩ := apiOk_reachable h
  have hkey := htimers.key_eq t.sessionKey s hlive
  have hset := htimers.fired t hfired s hlive
  obtain ⟨-, -, s', hs', howner⟩ := htimers.set t.sessionKey t hset
  rw [hlive] at hs'
  obtain rfl : s = s' := Option.some.inj hs'
  refine ⟨hkey ▸ hset, howner, ?_⟩
  intro c hc hon
  have hckey := hpolls.key_eq c hc s hon
  rw [hkey] at hckey
  have hunset := hpolls.unset c hc s (hckey ▸ hlive) hon
  rw [← hckey, hset] at hunset
  cases hunset

instance (sm : SessionManager) (key : String) : Decidable (Pending sm key) :=
  inferInstanceAs (Decidable (∃ t ∈ _, _))

instance (cfg : BrokerConfig) (a : Api) : DecidablePred (TimersUndisturbed cfg a) := by
  intro action
  unfold TimersUndisturbed
  split
  · infer_instance
  · refine @Option.decidableForallMem _ _ (fun c => ?_) _
    refine @Option.decidableForallMem _ _ (fun s => ?_) _
    cases c.pc <;> infer_instance
  · infer_instance

def pollActions (i : Nat) (userID : String) : List ApiAction :=
  [.longPoll "s1" userID, .poll i .proceed, .poll i .proceed, .poll i .proceed]

def idleRun : List ApiAction :=
  [.broker (.session (.createSession 0 "s1" "alice" ""))] ++ pollActions 0 "alice" ++
    [.poll 0 .clientGone, .poll 0 .proceed, .broker (.tick (60 * second)),
      .broker (.session (.fireTimer ⟨0, "s1"⟩))]

/-- A session that no request keeps alive. -/
theorem expired_by_own_timer_idleRun :
    ∃ a s, (Api.system exampleConfig).run (TimersUndisturbed exampleConfig) idleRun = some a ∧
      ⟨0, "s1"⟩ ∈ a.sessions.fired ∧ a.sessions.sessions.lookup "s1" = some s ∧
      OwnTimer a ⟨0, "s1"⟩ s := by
  obtain ⟨a, hrun, hfired, s, hlive, -⟩ : ∃ a ∈ (Api.system exampleConfig).run
      (TimersUndisturbed exampleConfig) idleRun, ⟨0, "s1"⟩ ∈ a.sessions.fired ∧
      ∃ s ∈ a.sessions.sessions.lookup "s1", True := by
    decide +kernel
  exact ⟨a, s, hrun, hfired, hlive,
    expired_by_own_timer exampleConfig a (System.reachable_of_run idleRun hrun)
      ⟨0, "s1"⟩ hfired s hlive⟩

def overlappingPollsRun : List ApiAction :=
  [.broker (.session (.createSession 0 "s1" "alice" ""))] ++ pollActions 0 "alice" ++
    pollActions 1 "alice" ++ [.poll 0 .clientGone, .poll 0 .proceed,
      .broker (.tick (60 * second)), .broker (.session (.fireTimer ⟨0, "s1"⟩))]

def lateResetRun : List ApiAction :=
  idleRun ++ [.longPoll "s1" "alice", .poll 1 .proceed, .poll 1 .proceed]

def recreatedRun : List ApiAction :=
  idleRun ++ [.broker (.session (.endSession "s1")),
    .broker (.session (.createSession (60 * second) "s1" "bob" ""))]

/-- A timer's function can expire a session with a long-poll in flight, a session whose
timer was reset before, and a session created after the timer's own one ended. -/
theorem expired_by_foreign_timer :
    (∃ a t s, (Api.system exampleConfig).Reachable System.anyAction a ∧
      t ∈ a.sessions.fired ∧ a.sessions.sessions.lookup t.sessionKey = some s ∧
      ∃ c ∈ a.polls, c.On s) ∧
    (∃ a t s, (Api.system exampleConfig).Reachable System.anyAction a ∧
      t ∈ a.sessions.fired ∧ a.sessions.sessions.lookup t.sessionKey = some s ∧
      a.sessions.timers.lookup s.sessionKey ≠ some t) ∧
    (∃ a t s, (Api.system exampleConfig).Reachable System.anyAction a ∧
      t ∈ a.sessions.fired ∧ a.sessions.sessions.lookup t.sessionKey = some s ∧
      a.timerOwner t.id ≠ some s.ref) := by
  have hexists (as : List ApiAction) {p : Api → Timer → Session → Prop}
      (h : ∃ a ∈ (Api.system exampleConfig).run System.anyAction as,
        ∃ t ∈ a.sessions.fired, ∃ s ∈ a.sessions.sessions.lookup t.sessionKey, p a t s) :
      ∃ a t s, (Api.system exampleConfig).Reachable System.anyAction a ∧
        t ∈ a.sessions.fired ∧ a.sessions.sessions.lookup t.sessionKey = some s ∧ p a t s := by
    obtain ⟨a, hrun, t, ht, s, hs, hp⟩ := h
    exact ⟨a, t, s, System.reachable_of_run _ hrun, ht, hs, hp⟩
  refine ⟨hexists overlappingPollsRun ?_, hexists lateResetRun ?_,
    hexists recreatedRun ?_⟩ <;> decide +kernel

end Timers

end Kagenti.TokenBroker
