import Kagenti.TokenBroker.IsolationInvariant

/-!
What one step of an `AcquireToken` call, of a `CompleteOAuth` call and of the session manager can do
to the state that they share.
-/

namespace Kagenti.TokenBroker

open Lib.Transition

namespace AcquirePc

@[simp] def session : AcquirePc → Option Session
  | .acquiring s => some s
  | pc => pc.holds

/-- The session object under which the call is inside `performOAuthFlow`, the code
that stores the token included. -/
@[simp] def inFlow : AcquirePc → Option Session
  | .rechecking _ | .releasing _ _ => none
  | pc => pc.holds

/-- As `inFlow`, until the token is stored. -/
@[simp] def obtains : AcquirePc → Option Session
  | .clearing _ _ => none
  | pc => pc.inFlow

variable {s : Session} {pc : AcquirePc}

theorem holds_of_inFlow (h : pc.inFlow = some s) : pc.holds = some s := by
  cases pc <;> first | exact h | cases h

theorem inFlow_of_obtains (h : pc.obtains = some s) : pc.inFlow = some s := by
  cases pc <;> first | exact h | cases h

theorem session_of_holds (h : pc.holds = some s) : pc.session = some s := by
  cases pc <;> first | exact h | cases h

end AcquirePc

namespace Effects

def SemaphoreMove (sh : Shared) (pc : AcquirePc) (sh' : Shared) (pc' : AcquirePc) : Prop :=
  (pc'.holds = pc.holds ∧
    ∀ ref, (sh'.vars ref).semaphoreTaken = (sh.vars ref).semaphoreTaken) ∨
  (∃ s, pc = .acquiring s ∧ pc' = .rechecking s ∧ (sh.vars s.ref).semaphoreTaken = false ∧
    sh' = sh.setTaken s.ref true) ∨
  (∃ s, pc.holds = some s ∧ pc'.holds = none ∧ sh' = sh.setTaken s.ref false)

structure CallEffect (sh : Shared) (c : AcquireCall) (sh' : Shared) (pc : AcquirePc) :
    Prop where
  now : sh'.now = sh.now
  sessions : sh'.sessions = { sh.sessions with vars := sh'.sessions.vars }
  known : ∀ s, pc.session = some s → c.pc.session = some s ∨ sh.live c.sessionKey = some s
  semaphore : SemaphoreMove sh c.pc sh' pc
  frame : ∀ ref, (∀ s, c.pc.holds = some s → s.ref ≠ ref) →
    (sh'.vars ref).activeOAuthTx = (sh.vars ref).activeOAuthTx ∧
      (sh'.vars ref).eventWaiters = (sh.vars ref).eventWaiters
  cache : sh'.cache = sh.cache ∨ ∃ f token, c.pc = .caching f token ∧
    sh'.cache = sh.cache.setToken sh.now f.session.sessionKey c.resourceURL token
  starts : ∀ s, pc.inFlow = some s → c.pc.inFlow = some s ∨
    sh.cache.getToken sh.now c.sessionKey c.resourceURL = none
  obtains : ∀ s, pc.obtains = some s → c.pc.obtains = some s ∨
    sh.cache.getToken sh.now c.sessionKey c.resourceURL = none

section Calls

variable {sh : Shared} {c : AcquireCall} {pc : AcquirePc} {sh' : Shared}

theorem CallEffect.live (h : CallEffect sh c sh' pc) (key : String) :
    sh'.live key = sh.live key := by
  rw [Shared.live, h.sessions]
  rfl

theorem CallEffect.nextRef (h : CallEffect sh c sh' pc) :
    sh'.sessions.nextRef = sh.sessions.nextRef := by
  rw [h.sessions]

theorem setTaken_frame (sh : Shared) (ref ref' : Nat) (taken : Bool) :
    ((sh.setTaken ref taken).vars ref').activeOAuthTx = (sh.vars ref').activeOAuthTx ∧
      ((sh.setTaken ref taken).vars ref').eventWaiters = (sh.vars ref').eventWaiters := by
  exact ⟨proj_update SessionVars.activeOAuthTx (by rfl) ref',
    proj_update SessionVars.eventWaiters (by rfl) ref'⟩

theorem CallEffect.write {s : Session} (hc : c.pc.holds = some s) (hpc : pc.holds = some s)
    (hflow : pc.inFlow = some s → c.pc.inFlow = some s)
    (hobtains : pc.obtains = some s → c.pc.obtains = some s) (v : SessionVars)
    (hv : v.semaphoreTaken = (sh.vars s.ref).semaphoreTaken) :
    CallEffect sh c (sh.setVars s.ref v) pc := by
  have hsession := AcquirePc.session_of_holds hc
  have hsame : ∀ s', pc.session = some s' → s' = s := by
    intro s' hs'
    have hs := AcquirePc.session_of_holds hpc
    rw [hs] at hs'
    exact (Option.some.inj hs').symm
  refine ⟨rfl, rfl, ?_, .inl ⟨hpc.trans hc.symm, ?_⟩, ?_, .inl rfl, ?_, ?_⟩
  · intro s' hs'
    rw [hsame s' hs']
    exact .inl hsession
  · exact proj_update SessionVars.semaphoreTaken hv
  · intro ref hne
    have hvars : (sh.setVars s.ref v).vars ref = sh.vars ref :=
      Function.update_of_ne (hne s hc).symm _ _
    rw [hvars]
    exact ⟨rfl, rfl⟩
  · intro s' hs'
    have hholds := AcquirePc.holds_of_inFlow hs'
    have heq := hsame s' (AcquirePc.session_of_holds hholds)
    subst heq
    exact .inl (hflow hs')
  · intro s' hs'
    have hholds := AcquirePc.holds_of_inFlow (AcquirePc.inFlow_of_obtains hs')
    have heq := hsame s' (AcquirePc.session_of_holds hholds)
    subst heq
    exact .inl (hobtains hs')

theorem CallEffect.goto (hsessions : sh'.sessions = sh.sessions) (hcache : sh'.cache = sh.cache)
    (hnow : sh'.now = sh.now) (hholds : pc.holds = c.pc.holds) (hknown : ∀ s, pc.session = some s →
      c.pc.session = some s ∨ sh.live c.sessionKey = some s)
    (hflow : ∀ s, pc.inFlow = some s → c.pc.inFlow = some s ∨
      sh.cache.getToken sh.now c.sessionKey c.resourceURL = none)
    (hobtains : ∀ s, pc.obtains = some s → c.pc.obtains = some s ∨
      sh.cache.getToken sh.now c.sessionKey c.resourceURL = none) : CallEffect sh c sh' pc where
  now := hnow
  sessions := by rw [hsessions]
  known := hknown
  semaphore := .inl ⟨hholds, fun ref => by rw [Shared.vars, hsessions]; rfl⟩
  frame ref _ := by simp only [Shared.vars, hsessions, and_self]
  cache := .inl hcache
  starts := hflow
  obtains := hobtains

variable {callbackURL : String} {move : AcquireMove}

theorem flowStep_effect (h : flowStep callbackURL sh c move = some (sh', pc)) :
    CallEffect sh c sh' pc := by
  -- every step stays with the session object it holds, `released` excepted
  cases flowStep_sound h with
  | stopped message hs =>
    exact .goto rfl rfl rfl hs.symm (fun s hs' => .inl (AcquirePc.session_of_holds
      (hs.trans hs'))) (by simp) (by simp)
  | failed message hs => exact .write hs rfl (by simp) (by simp) _ rfl
  | discovered hpc =>
    exact .goto rfl rfl rfl (by simp [hpc]) (by simp [hpc]) (by simp [hpc]) (by simp [hpc])
  | generated hpc | built hpc | published hpc | refused _ hpc | received hpc | completed hpc
  | cleared hpc =>
    exact .write (by simp [hpc]) (by simp) (by simp [hpc]) (by simp [hpc]) _ rfl
  | exchanged hpc hfresh =>
    exact .goto rfl rfl rfl (by simp [hpc]) (by simp [hpc]) (by simp [hpc]) (by simp [hpc])
  | @cached f token hpc =>
    exact ⟨rfl, rfl, by simp [hpc], .inl ⟨by simp [hpc], fun _ => rfl⟩,
      fun _ _ => ⟨rfl, rfl⟩, .inr ⟨f, token, hpc, rfl⟩, by simp [hpc], by simp⟩
  | @released s outcome hpc =>
    exact ⟨rfl, rfl, by simp, .inr (.inr ⟨s, by simp [hpc], by simp, rfl⟩),
      fun ref _ => setTaken_frame sh s.ref ref false, .inl rfl, by simp, by simp⟩

theorem acquireStep_effect (h : acquireStep callbackURL sh c move = some (sh', pc)) :
    CallEffect sh c sh' pc := by
  revert h
  fun_cases acquireStep with
  | case5 hpc s hget =>
    rintro ⟨⟩
    refine .goto rfl rfl rfl (by simp [hpc]) (fun s' hs' => .inr ?_) (by simp) (by simp)
    cases hs'
    exact Isolation.live_of_getSession hget
  | case7 => exact nofun
  | case8 s hpc hfree =>
    rintro ⟨⟩
    exact ⟨rfl, rfl, by simp [hpc], .inr (.inl ⟨s, hpc, rfl, by simpa using hfree, rfl⟩),
      fun ref _ => setTaken_frame sh s.ref ref true, .inl rfl, by simp, by simp⟩
  | case11 s hpc hmiss =>
    rintro ⟨⟩
    exact .goto rfl rfl rfl (by simp [hpc]) (by simp [hpc]) (fun _ _ => .inr hmiss)
      fun _ _ => .inr hmiss
  | case13 => exact flowStep_effect
  | _ =>
    rintro ⟨⟩
    exact .goto rfl rfl rfl (by simp [*]) (by simp [*]) (by simp) (by simp)

theorem completeStep_effect {c : CompleteCall} {pc : CompletePc}
    (h : completeStep sh c = some (sh', pc)) :
    sh' = sh ∨ ∃ s tx, c.pc = .sending s ∧ (sh.vars s.ref).activeOAuthTx = some tx ∧
      tx.completionChan = none ∧ pc = .returned (.ok ()) ∧
      sh' = sh.setTx s.ref
        (some { tx with completionChan := some ⟨c.code, c.state, none⟩ }) := by
  revert h
  fun_cases completeStep with
  | case7 s hpc tx htx hchan =>
    rintro ⟨⟩
    exact .inr ⟨s, tx, hpc, htx, hchan, rfl, rfl⟩
  | case10 => rintro ⟨⟩
  | _ =>
    rintro ⟨⟩
    exact .inl rfl

end Calls

section SessionOps

structure OpEffect (sm sm' : SessionManager) : Prop where
  nextRef_le : sm.nextRef ≤ sm'.nextRef
  live : ∀ key s, sm'.sessions.lookup key = some s → sm.sessions.lookup key = some s ∨
    s.sessionKey = key ∧ sm.nextRef ≤ s.ref ∧ s.ref < sm'.nextRef
  semaphoreTaken : ∀ ref < sm.nextRef, (sm'.vars ref).semaphoreTaken = (sm.vars ref).semaphoreTaken
  activeOAuthTx : ∀ ref, (sm'.vars ref).activeOAuthTx = (sm.vars ref).activeOAuthTx ∨
    sm.nextRef ≤ ref ∧ (sm'.vars ref).activeOAuthTx = none
  eventWaiters : ∀ ref e, (sm'.vars ref).eventWaiters = some e → e.type = "oauth_url_ready" →
    (sm.vars ref).eventWaiters = some e ∧ (sm'.vars ref).activeOAuthTx = (sm.vars ref).activeOAuthTx

variable {sm sm' sm'' : SessionManager}

theorem OpEffect.activeOAuthTx_of_lt (h : OpEffect sm sm') {ref : Nat} (known : ref < sm.nextRef) :
    (sm'.vars ref).activeOAuthTx = (sm.vars ref).activeOAuthTx :=
  (h.activeOAuthTx ref).resolve_right fun ⟨new, _⟩ => absurd known (Nat.not_lt.mpr new)

theorem OpEffect.trans (h : OpEffect sm sm') (h' : OpEffect sm' sm'') : OpEffect sm sm'' where
  nextRef_le := Nat.le_trans h.nextRef_le h'.nextRef_le
  live key s hs := by
    have hle := h.nextRef_le
    have hle' := h'.nextRef_le
    rcases h'.live key s hs with hs | ⟨hkey, hge, hlt⟩
    · rcases h.live key s hs with hs | ⟨hkey, hge, hlt⟩
      · exact .inl hs
      · exact .inr ⟨hkey, hge, by omega⟩
    · exact .inr ⟨hkey, by omega, hlt⟩
  semaphoreTaken ref href :=
    (h'.semaphoreTaken ref (Nat.lt_of_lt_of_le href h.nextRef_le)).trans
      (h.semaphoreTaken ref href)
  activeOAuthTx ref := by
    rcases h'.activeOAuthTx ref with same | ⟨new, none⟩
    · exact same ▸ h.activeOAuthTx ref
    · exact .inr ⟨Nat.le_trans h.nextRef_le new, none⟩
  eventWaiters ref e he htype := by
    obtain ⟨he', htx'⟩ := h'.eventWaiters ref e he htype
    obtain ⟨he'', htx⟩ := h.eventWaiters ref e he' htype
    exact ⟨he'', htx'.trans htx⟩

theorem OpEffect.same (h : SessionIndex.SameSessions sm sm') : OpEffect sm sm' where
  nextRef_le := Nat.le_of_eq h.nextRef.symm
  live _ _ hs := .inl (h.sessions ▸ hs)
  semaphoreTaken ref _ := (h.vars ref).2.1
  activeOAuthTx ref := .inl (h.vars ref).2.2.1
  eventWaiters ref _ he _ := ⟨(h.vars ref).2.2.2 ▸ he, (h.vars ref).2.2.1⟩

theorem cleanupSessionLocked_effect (key : String) (s : Session) (reason : String) :
    OpEffect sm (sm.cleanupSessionLocked key s reason) where
  nextRef_le := by simp [SessionManager.cleanupSessionLocked]
  live key' s' hs' := by
    exact .inl (Lib.Entries.lookup_of_erase hs')
  semaphoreTaken ref _ := proj_update SessionVars.semaphoreTaken (by rfl) ref
  activeOAuthTx ref := .inl (proj_update SessionVars.activeOAuthTx (by rfl) ref)
  eventWaiters ref e he htype := by
    simp only [SessionManager.cleanupSessionLocked, Function.update_apply] at he ⊢
    split
    · subst ref
      rw [if_pos rfl] at he
      refine ⟨?_, rfl⟩
      cases hold : (sm.vars s.ref).eventWaiters with
      | none =>
        simp only [SessionVars.close, trySend, hold, Option.orElse_none, Option.some.injEq] at he
        subst he
        simp at htype
      | some e' => simpa [SessionVars.close, trySend, hold] using he
    next hne =>
      rw [if_neg hne] at he
      exact ⟨he, rfl⟩

variable {cfg : SessionConfig}

theorem createSession_effect {now : Time} {key userID url : String}
    (h : sm.createSession cfg now key userID url = .ok sm') : OpEffect sm sm' := by
  rw [SessionManager.createSession_eq] at h
  split at h <;> cases h
  refine ⟨Nat.le_succ _, ?_, ?_, ?_, ?_⟩
  · grind [Lib.Entries.lookup_insert]
  · grind
  · intro ref
    simp only [Function.update_apply]
    split
    next new => exact .inr ⟨Nat.le_of_eq new.symm, rfl⟩
    · exact .inl rfl
  · intro ref e he htype
    simp only [Function.update_apply] at he ⊢
    split at he
    · cases he
    next hne =>
      rw [if_neg hne]
      exact ⟨he, rfl⟩

theorem sessionOp_effect {op : SessionOp} (h : SessionIndex.apply cfg sm op = some sm') :
    OpEffect sm sm' := by
  refine SessionIndex.apply_keeps (fun h _ _ => h.trans (cleanupSessionLocked_effect _ _ _))
    (fun same => .same same) ?_ h
  rintro now key userID url rfl
  cases hcreate : sm.createSession cfg now key userID url with
  | ok sm' => exact createSession_effect hcreate
  | error e => exact .same (.refl sm)

end SessionOps

section Steps

structure Passive (sh sh' : Shared) : Prop where
  now : sh.now ≤ sh'.now
  sessions : sh'.sessions = { sh.sessions with vars := sh'.sessions.vars }
  semaphoreTaken : ∀ ref, (sh'.vars ref).semaphoreTaken = (sh.vars ref).semaphoreTaken
  eventWaiters : ∀ ref, (sh'.vars ref).eventWaiters = (sh.vars ref).eventWaiters ∨
    (sh'.vars ref).eventWaiters = none
  activeOAuthTx : ∀ ref, (sh'.vars ref).activeOAuthTx = (sh.vars ref).activeOAuthTx ∨
    ∃ tx x, (sh.vars ref).activeOAuthTx = some tx ∧ tx.completionChan = none ∧
      (sh'.vars ref).activeOAuthTx = some { tx with completionChan := some x }
  cache : sh'.cache = sh.cache ∨ sh'.cache = sh.cache.cleanupExpiredTokens sh.now

theorem Passive.of_same {sh sh' : Shared} (hnow : sh.now ≤ sh'.now)
    (hsessions : sh'.sessions = sh.sessions)
    (hcache : sh'.cache = sh.cache ∨ sh'.cache = sh.cache.cleanupExpiredTokens sh.now) :
    Passive sh sh' := by
  have hvars : sh'.vars = sh.vars := congrArg SessionManager.vars hsessions
  exact ⟨hnow, by rw [hsessions], fun _ => by rw [hvars], fun _ => .inl (by rw [hvars]),
    fun _ => .inl (by rw [hvars]), hcache⟩

inductive StepEffect (cfg : BrokerConfig) (b : Broker) : BrokerAction → Broker → Prop
  | session {op : SessionOp} {sm : SessionManager} (heff : OpEffect b.shared.sessions sm) :
      StepEffect cfg b (.session op) (b.withSessions sm)
  | acquireToken (sessionKey userID resourceURL : String) :
      StepEffect cfg b (.acquireToken sessionKey userID resourceURL)
        { b with acquires := b.acquires ++ [⟨sessionKey, userID, resourceURL, .validating⟩] }
  | acquire {i : Nat} {move : AcquireMove} {c : AcquireCall} {sh : Shared} {pc : AcquirePc}
      (hget : b.acquires[i]? = some c)
      (hcall : acquireStep cfg.callbackURL b.shared c move = some (sh, pc)) :
      StepEffect cfg b (.acquire i move)
        { b with shared := sh, acquires := b.acquires.set i { c with pc := pc } }
  | passive {action : BrokerAction} {sh : Shared} (completes : List CompleteCall)
      (h : Passive b.shared sh) :
      StepEffect cfg b action { shared := sh, acquires := b.acquires, completes := completes }

theorem step_effect {cfg : BrokerConfig} {b b' : Broker} {action : BrokerAction}
    (hstep : Broker.step cfg b action = some b') : StepEffect cfg b action b' := by
  cases action with
  | session op =>
    simp only [Broker.step, Option.map_eq_some_iff] at hstep
    obtain ⟨sm, hop, rfl⟩ := hstep
    exact .session (sessionOp_effect hop)
  | tick now =>
    simp only [Broker.step, Option.ite_none_right_eq_some, Option.some.injEq] at hstep
    obtain ⟨hle, rfl⟩ := hstep
    exact .passive _ (.of_same hle rfl (.inl rfl))
  | receiveEvent ref =>
    cases hstep
    refine .passive _ ⟨Int.le_refl _, rfl, proj_update SessionVars.semaphoreTaken rfl,
      fun ref' => ?_, fun ref' => .inl ?_, .inl rfl⟩
    · by_cases hsame : ref' = ref
      · exact .inr (by simp [Shared.setEvent, Shared.setVars, SessionManager.setVars,
          Shared.vars, hsame])
      · exact .inl (congrArg SessionVars.eventWaiters (Function.update_of_ne hsame _ _))
    · exact proj_update SessionVars.activeOAuthTx (by rfl) ref'
  | cleanupExpiredTokens =>
    cases hstep
    exact .passive _ (.of_same (Int.le_refl _) rfl (.inr rfl))
  | acquireToken sessionKey userID resourceURL =>
    cases hstep
    exact .acquireToken sessionKey userID resourceURL
  | acquire i move =>
    obtain ⟨c, sh, pc, hget, hcall, rfl⟩ := acquire_step hstep
    exact .acquire hget hcall
  | completeOAuth sessionKey userID code state =>
    cases hstep
    exact .passive _ (.of_same (Int.le_refl _) rfl (.inl rfl))
  | complete i =>
    obtain ⟨c, sh, pc, -, hcall, rfl⟩ := complete_step hstep
    rcases completeStep_effect hcall with rfl | ⟨s, tx, -, htx, hfree, -, rfl⟩
    · exact .passive _ (.of_same (Int.le_refl _) rfl (.inl rfl))
    · refine .passive _ ⟨Int.le_refl _, rfl, proj_update SessionVars.semaphoreTaken rfl,
        fun ref => .inl (proj_update SessionVars.eventWaiters (by rfl) ref), fun ref => ?_,
        .inl rfl⟩
      by_cases hsame : ref = s.ref
      · subst hsame
        exact .inr ⟨tx, _, htx, hfree, congrArg _ (Function.update_self _ _ _)⟩
      · exact .inl (congrArg SessionVars.activeOAuthTx (Function.update_of_ne hsame _ _))

end Steps

end Effects

end Kagenti.TokenBroker
