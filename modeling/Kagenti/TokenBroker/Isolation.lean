import Kagenti.TokenBroker.IsolationInvariant

/-!
Isolation of tokens between session objects: a token that `AcquireToken` returns was obtained by a
flow of the session object that is live under its key.
-/

namespace Kagenti.TokenBroker

open Lib.Transition

namespace Isolation

variable {sh sh' : Shared} {c : AcquireCall}

structure Replaces (sh sh' : Shared) (key : String) (new : Option Session) : Prop where
  live : ∀ key', sh'.live key' = if key' = key then new else sh.live key'
  nextRef : sh.sessions.nextRef ≤ sh'.sessions.nextRef
  fresh : ∀ s, new = some s →
    s.sessionKey = key ∧ sh.sessions.nextRef ≤ s.ref ∧ s.ref < sh'.sessions.nextRef
  cache : sh'.cache = sh.cache
  now : sh'.now = sh.now
  issued : sh'.issued = sh.issued
  completion : ∀ ref, sh'.completion ref = sh.completion ref ∨ sh'.completion ref = none

variable {key : String} {new : Option Session} {s : Session}

section

variable (h : Replaces sh sh' key new)

include h

theorem Replaces.dead (hd : sh.Dead s) : sh'.Dead s := by
  refine ⟨Nat.lt_of_lt_of_le hd.1 h.nextRef, ?_⟩
  intro key' s' hlive
  rw [h.live] at hlive
  split at hlive
  · have hfresh := (h.fresh s' hlive).2.1
    have hlt := hd.1
    omega
  · exact hd.2 key' s' hlive

theorem Replaces.dead_of_live (hsh : SharedOk sh) (hs : sh.live key = some s) : sh'.Dead s := by
  have hlt := hsh.ref_lt hs
  refine ⟨Nat.lt_of_lt_of_le hlt h.nextRef, ?_⟩
  intro key' s' hlive href
  rw [h.live] at hlive
  split at hlive
  · have hfresh := (h.fresh s' hlive).2.1
    omega
  next hne => exact hne (hsh.ref_inj hlive hs href)

theorem Replaces.completion_none {ref : Nat} (hn : sh.completion ref = none) :
    sh'.completion ref = none := by
  rcases h.completion ref with heq | heq
  · rw [heq, hn]
  · exact heq

theorem Replaces.owns (hne : c.sessionKey ≠ key) (ho : Owns sh c s) : Owns sh' c s := by
  refine ⟨?_, ho.2⟩
  rw [h.live, if_neg hne]
  exact ho.1

end

def QuietPc (sh : Shared) : AcquirePc → Prop
  | .validating | .returned _ | .releasing _ (.error _) | .returning (.error _) => True
  | .discovering _ | .generating _ _ => True
  | .building f | .publishing f _ | .waiting f => sh.completion f.session.ref = none
  | _ => False

theorem QuietPc.replaces {pc : AcquirePc} (hquiet : QuietPc sh pc)
    (h : Replaces sh sh' key new) : QuietPc sh' pc := by
  cases pc with
  | validating | returned _ | discovering _ | generating _ _ => trivial
  | building f | publishing f _ | waiting f => exact h.completion_none hquiet
  | releasing _ outcome | returning outcome =>
    cases outcome with
    | error _ => trivial
    | ok _ => exact hquiet.elim
  | checkingCache | gettingSession | acquiring _ | rechecking _ | exchanging _ _
  | completing _ _ | caching _ _ | clearing _ _ => exact hquiet.elim

/-- A `CompleteOAuth` call that has looked up its session has yet to deliver the code. -/
def Delivering : CompletePc → Prop
  | .checking _ | .sending _ => True
  | _ => False

theorem AcquireOk.replaces_ne (hc : AcquireOk sh c) (h : Replaces sh sh' key new)
    (hne : c.sessionKey ≠ key) : AcquireOk sh' c :=
  hc.mono (h.owns hne) h.dead (fun _ => h.completion_none) fun hi => by rwa [IssuedUnder, h.issued]

theorem AcquireOk.replaces_quiet (hc : AcquireOk sh c) (hsh : SharedOk sh)
    (h : Replaces sh sh' key new) (hkey : c.sessionKey = key) (hquiet : QuietPc sh c.pc) :
    AcquireOk sh' c := by
  subst hkey
  have hdead : ∀ s, Owns sh c s ∨ sh.Dead s → sh'.Dead s := by
    rintro s (hs | hd)
    · exact h.dead_of_live hsh hs.1
    · exact h.dead hd
  obtain ⟨sessionKey, userID, resourceURL, pc⟩ := c
  cases pc with
  | validating | returned _ => trivial
  | discovering s | generating s _ => exact .inr (hdead s hc)
  | building f | publishing f _ | waiting f =>
    exact .inr ⟨hdead f.session (Or.imp_right And.left hc), h.completion_none hquiet⟩
  | releasing s outcome | returning outcome =>
    cases outcome with
    | error _ => trivial
    | ok _ => exact hquiet.elim
  | checkingCache | gettingSession | acquiring _ | rechecking _ | exchanging _ _
  | completing _ _ | caching _ _ | clearing _ _ => exact hquiet.elim

def Quiet (b : Broker) (key : String) : Prop :=
  (∀ c ∈ b.acquires, c.sessionKey = key → QuietPc b.shared c.pc) ∧
    ∀ c ∈ b.completes, c.sessionKey = key → ¬ Delivering c.pc

/-- The cache holds no token for the key that it would still return. -/
def NothingCached (sh : Shared) (key : String) : Prop :=
  ∀ e ∈ ((sh.cache.tokens.lookup key).getD ∅).entries, isTokenExpired sh.now e.2.expiresAt = true

theorem NothingCached.entry (h : NothingCached sh key) {resourceURL : String} {e : TokenEntry}
    (hentry : sh.cache.entry key resourceURL = some e) :
    isTokenExpired sh.now e.expiresAt = true := by
  rw [TokenCache.entry, Option.bind_eq_some_iff] at hentry
  obtain ⟨m, hm, he⟩ := hentry
  rw [NothingCached, hm] at h
  exact h ⟨resourceURL, e⟩ (AList.mem_lookup_iff.mp he)

theorem SharedOk.replaces (hsh : SharedOk sh) (h : Replaces sh sh' key new)
    (hnew : new = none ∨ NothingCached sh key) : SharedOk sh' := by
  constructor
  · intro key' s hs
    rw [h.live] at hs
    split at hs
    next heq => exact heq ▸ (h.fresh s hs).1
    · exact hsh.key_eq hs
  · intro key' s hs
    rw [h.live] at hs
    split at hs
    · exact (h.fresh s hs).2.2
    · exact Nat.lt_of_lt_of_le (hsh.ref_lt hs) h.nextRef
  · intro key₁ key₂ s₁ s₂ hs₁ hs₂ href
    rw [h.live] at hs₁ hs₂
    split at hs₁ <;> split at hs₂
    · simp_all
    · have hfresh := (h.fresh s₁ hs₁).2.1
      have hlt := hsh.ref_lt hs₂
      omega
    · have hfresh := (h.fresh s₂ hs₂).2.1
      have hlt := hsh.ref_lt hs₁
      omega
    · exact hsh.ref_inj hs₁ hs₂ href
  · intro key' s resourceURL e hs hentry hvalid
    rw [h.live] at hs
    rw [h.cache] at hentry
    rw [h.now] at hvalid
    rw [IssuedUnder, h.issued]
    split at hs
    next heq =>
      subst heq
      rcases hnew with hnone | hcached
      · rw [hnone] at hs
        cases hs
      · rw [hcached.entry hentry] at hvalid
        cases hvalid
    · exact hsh.cached hs hentry hvalid
  · rw [h.issued]
    exact hsh.distinct

theorem Isolated.replaces {b : Broker} (hb : Isolated b) (hquiet : Quiet b key)
    (h : Replaces b.shared sh' key new) (hnew : new = none ∨ NothingCached b.shared key) :
    Isolated { b with shared := sh' } := by
  refine ⟨hb.shared.replaces h hnew, ?_, ?_⟩
  · intro c hmem
    by_cases hkey : c.sessionKey = key
    · exact (hb.acquires c hmem).replaces_quiet hb.shared h hkey (hquiet.1 c hmem hkey)
    · exact (hb.acquires c hmem).replaces_ne h hkey
  · intro c hmem
    have hc := hb.completes c hmem
    have hkey := hquiet.2 c hmem
    obtain ⟨sessionKey, userID, code, state, pc⟩ := c
    cases pc with
    | validating | gettingSession | returned _ => trivial
    | checking s | sending s =>
      change sh'.live sessionKey = some s
      rw [h.live, if_neg fun heq => hkey heq trivial]
      exact hc

theorem Isolated.evolves {b : Broker} (hb : Isolated b) (hsh : SharedOk sh')
    (h : Evolves b.shared sh') : Isolated { b with shared := sh' } :=
  ⟨hsh, fun c hmem => (hb.acquires c hmem).evolves h,
    fun c hmem => (hb.completes c hmem).evolves h⟩

variable {sm : SessionManager}

theorem evolves_sessions (htable : sm.sessions = sh.sessions.sessions)
    (hnext : sm.nextRef = sh.sessions.nextRef)
    (htx : ∀ ref, (sm.vars ref).activeOAuthTx = (sh.sessions.vars ref).activeOAuthTx) :
    Evolves sh { sh with sessions := sm } := by
  refine ⟨htable, hnext, fun _ hi => hi, fun ref => .inr (.inl ?_)⟩
  simp only [Shared.completion, Shared.vars, htx]

theorem SharedOk.sessions (hsh : SharedOk sh) (htable : sm.sessions = sh.sessions.sessions)
    (hnext : sm.nextRef = sh.sessions.nextRef) : SharedOk { sh with sessions := sm } := by
  have hlive : ∀ key, Shared.live { sh with sessions := sm } key = sh.live key := by
    intro key
    simp only [Shared.live, htable]
  constructor
  · intro key s hs
    exact hsh.key_eq ((hlive key).symm.trans hs)
  · intro key s hs
    exact hnext ▸ hsh.ref_lt ((hlive key).symm.trans hs)
  · grind [hsh.ref_inj]
  · intro key s resourceURL e hs hentry hvalid
    exact hsh.cached ((hlive key).symm.trans hs) hentry hvalid
  · exact hsh.distinct

theorem replaces_cleanup (reason : String) :
    Replaces sh { sh with sessions := sh.sessions.cleanupSessionLocked key s reason } key none := by
  refine ⟨fun key' => ?_, ?_, ?_, rfl, rfl, rfl, fun ref => .inl ?_⟩
  · exact Lib.Entries.lookup_erase sh.sessions.sessions key key'
  · exact Nat.le_of_eq (SessionManager.stopAndDeleteTimer_nextRef key).symm
  · intro s hs
    cases hs
  · exact congrArg (Option.bind · _) (proj_update SessionVars.activeOAuthTx (by rfl) ref)

theorem replaces_createSession {cfg : SessionConfig} {now : Time} {userID url : String}
    (h : sh.sessions.createSession cfg now key userID url = .ok sm) :
    ∃ s, Replaces sh { sh with sessions := sm } key (some s) := by
  rw [SessionManager.createSession_eq] at h
  split at h <;> cases h
  refine ⟨⟨sh.sessions.nextRef, key, userID, url, now⟩, fun key' => ?_, Nat.le_succ _, ?_,
    rfl, rfl, rfl, fun ref => ?_⟩
  · exact Lib.Entries.lookup_insert sh.sessions.sessions key key' _
  · grind
  · simp only [Shared.completion, Shared.vars, Function.update_apply]
    split
    · exact .inr rfl
    · exact .inl rfl

def LifecycleQuiet (cfg : BrokerConfig) (b : Broker) : BrokerAction → Prop
  | .session (.createSession _ key userID _) =>
    cfg.session.maxSessionsPerUser ≤ (b.shared.sessions.userKeys userID).length ∨
      Quiet b key ∧ NothingCached b.shared key
  | .session (.endSession key) => b.shared.live key = none ∨ Quiet b key
  | .session (.expireSession key) => b.shared.live key = none ∨ Quiet b key
  | .session (.runFiredTimer timer) =>
    b.shared.live timer.sessionKey = none ∨ Quiet b timer.sessionKey
  | .session (.shutdown _) => ∀ key ∈ b.shared.sessions.sessions.keys, Quiet b key
  | _ => True

variable {b : Broker}

theorem Isolated.sessions (hb : Isolated b)
    (h : SessionIndex.SameSessions b.shared.sessions sm) : Isolated (b.withSessions sm) :=
  hb.evolves (hb.shared.sessions h.sessions h.nextRef)
    (evolves_sessions h.sessions h.nextRef fun ref => (h.vars ref).2.2.1)

theorem Quiet.sessions (h : Quiet b key) (hsame : SessionIndex.SameSessions b.shared.sessions sm) :
    Quiet (b.withSessions sm) key := by
  have hcompletion : (b.withSessions sm).shared.completion = b.shared.completion :=
    funext fun ref => congrArg (Option.bind · _) (hsame.vars ref).2.2.1
  refine ⟨fun c hmem hkey => ?_, h.2⟩
  have hquiet := h.1 c hmem hkey
  unfold QuietPc at hquiet ⊢
  rwa [hcompletion]

theorem Isolated.cleanup (hb : Isolated (b.withSessions sm))
    (hlive : sm.sessions.lookup key = some s) (reason : String)
    (hquiet : sm.sessions.lookup key = none ∨ Quiet (b.withSessions sm) key) :
    Isolated (b.withSessions (sm.cleanupSessionLocked key s reason)) := by
  rcases hquiet with hnone | hquiet
  · rw [hlive] at hnone
    cases hnone
  · exact hb.replaces hquiet (replaces_cleanup reason) (.inl rfl)

theorem Isolated.cleanupAll (hb : Isolated (b.withSessions sm)) (order : List String)
    (hquiet : ∀ key ∈ order, Quiet (b.withSessions sm) key) :
    Isolated (b.withSessions (sm.cleanupAll order)) := by
  induction order generalizing sm with
  | nil => exact hb
  | cons key rest ih =>
    unfold SessionManager.cleanupAll
    split
    next s hlive =>
      refine ih (hb.cleanup hlive _ (.inr (hquiet key List.mem_cons_self))) ?_
      intro key' hmem
      have hq := hquiet key' (List.mem_cons_of_mem _ hmem)
      refine ⟨fun c hc hkey => ?_, hq.2⟩
      exact (hq.1 c hc hkey).replaces (replaces_cleanup "shutdown")
    · exact ih hb fun key' hmem => hquiet key' (List.mem_cons_of_mem _ hmem)

variable {cfg : BrokerConfig}

theorem isolated_sessionOp (hb : Isolated b) (op : SessionOp)
    (hguard : LifecycleQuiet cfg b (.session op))
    (hstep : SessionIndex.apply cfg.session b.shared.sessions op = some sm) :
    Isolated (b.withSessions sm) := by
  cases SessionIndex.apply_move hstep with
  | created now key userID url =>
    rcases hguard with hfull | ⟨hquiet, hcached⟩
    · rw [SessionManager.createSession_eq, if_pos hfull]
      exact hb
    · cases hcreate : b.shared.sessions.createSession cfg.session now key userID url with
      | error e => exact hb
      | ok sm =>
        obtain ⟨s, hreplaces⟩ := replaces_createSession hcreate
        exact hb.replaces hquiet hreplaces (.inr hcached)
  | same hsame => exact hb.sessions hsame
  | @removed _ sm' key s hsame hremoves hlive reason =>
    have hquiet : b.shared.live key = none ∨ Quiet b key := by
      cases op <;> cases hremoves <;> exact hguard
    refine (hb.sessions hsame).cleanup hlive reason ?_
    exact hquiet.imp (fun hnone => hsame.sessions ▸ hnone) fun hquiet => hquiet.sessions hsame
  | shutdown hsame hperm =>
    refine (hb.sessions hsame).cleanupAll _ fun key hmem => ?_
    exact (hguard key (hperm.mem_iff.mp hmem)).sessions hsame

theorem forall_mem_set {α : Type*} {P : α → Prop} {l : List α} (h : ∀ a ∈ l, P a) (i : Nat)
    {a : α} (ha : P a) : ∀ a' ∈ l.set i a, P a' := by
  intro a' hmem
  rcases List.mem_or_eq_of_mem_set hmem with hmem | rfl
  · exact h a' hmem
  · exact ha

theorem isolated_step {b' : Broker} (hb : Isolated b) (action : BrokerAction)
    (hguard : LifecycleQuiet cfg b action) (hstep : Broker.step cfg b action = some b') :
    Isolated b' := by
  cases action with
  | session op =>
    simp only [Broker.step, Option.map_eq_some_iff] at hstep
    obtain ⟨sm, hop, rfl⟩ := hstep
    exact isolated_sessionOp hb op hguard hop
  | tick now =>
    simp only [Broker.step, Option.ite_none_right_eq_some, Option.some.injEq] at hstep
    obtain ⟨hnow, rfl⟩ := hstep
    refine hb.evolves ⟨hb.shared.key_eq, hb.shared.ref_lt, hb.shared.ref_inj, ?_,
      hb.shared.distinct⟩ ⟨rfl, rfl, fun _ hi => hi, fun _ => .inr (.inl rfl)⟩
    intro key s resourceURL e hs hentry hvalid
    exact hb.shared.cached hs hentry (TokenCache.isTokenExpired_mono hnow hvalid)
  | receiveEvent ref =>
    cases hstep
    exact hb.evolves (hb.shared.setVars _ _) (evolves_setEvent _ _)
  | cleanupExpiredTokens =>
    cases hstep
    refine hb.evolves ⟨hb.shared.key_eq, hb.shared.ref_lt, hb.shared.ref_inj, ?_,
      hb.shared.distinct⟩ ⟨rfl, rfl, fun _ hi => hi, fun _ => .inr (.inl rfl)⟩
    intro key s resourceURL e hs hentry hvalid
    exact hb.shared.cached hs (TokenCache.entry_cleanupExpiredTokens hentry) hvalid
  | acquireToken sessionKey userID resourceURL =>
    cases hstep
    exact ⟨hb.shared, List.forall_mem_append.mpr
      ⟨hb.acquires, List.forall_mem_singleton.mpr trivial⟩, hb.completes⟩
  | acquire i move =>
    obtain ⟨c, sh', pc, hget, hcall, rfl⟩ := acquire_step hstep
    have hok := acquireStep_ok hb.shared (hb.acquires c (List.mem_of_getElem? hget)) hcall
    have hb' := hb.evolves hok.shared hok.evolves
    exact ⟨hb'.shared, forall_mem_set hb'.acquires i hok.call, hb'.completes⟩
  | completeOAuth sessionKey userID code state =>
    cases hstep
    exact ⟨hb.shared, hb.acquires, List.forall_mem_append.mpr
      ⟨hb.completes, List.forall_mem_singleton.mpr trivial⟩⟩
  | complete i =>
    obtain ⟨c, sh', pc, hget, hcall, rfl⟩ := complete_step hstep
    obtain ⟨hsh, hev, hc⟩ :=
      completeStep_ok hb.shared (hb.completes c (List.mem_of_getElem? hget)) hcall
    have hb' := hb.evolves hsh hev
    exact ⟨hb'.shared, hb'.acquires, forall_mem_set hb'.completes i hc⟩

theorem isolated_init : Isolated Broker.init := by
  refine ⟨⟨?_, ?_, ?_, ?_, List.nodup_nil⟩, by simp [Broker.init], by simp [Broker.init]⟩ <;>
    intros <;> simp_all [Broker.init, Shared.live, SessionManager.new]

theorem isolated_reachable (h : (Broker.system cfg).Reachable (LifecycleQuiet cfg) b) :
    Isolated b :=
  h.invariant isolated_init fun _ action _ hb hguard hstep => isolated_step hb action hguard hstep

/-- A token that `AcquireToken` is about to return was obtained by a flow of the session
object that is live under the call's key, and by no flow of another one. -/
def ReturnsOwnToken (b : Broker) (c : AcquireCall) (token : String) : Prop :=
  ∃ s, b.shared.live c.sessionKey = some s ∧ s.userID = c.userID ∧
    ⟨token, s.ref⟩ ∈ b.shared.issued ∧
    ∀ issue ∈ b.shared.issued, issue.token = token → issue.ref = s.ref

/-- In every run that changes the session table under a key only while the key is quiet,
every token that is returned belongs to the live session of its caller. -/
theorem returned_token_isolated (cfg : BrokerConfig) (b : Broker)
    (h : (Broker.system cfg).Reachable (LifecycleQuiet cfg) b)
    (c : AcquireCall) (hcall : c ∈ b.acquires) (token : String)
    (hreturn : c.pc = .returning (.ok token)) : ReturnsOwnToken b c token := by
  have hb := isolated_reachable h
  have hc := hb.acquires c hcall
  rw [AcquireOk, hreturn] at hc
  obtain ⟨s, hs, hissued⟩ := hc
  refine ⟨s, hs.1, hs.2, hissued, ?_⟩
  intro issue hmem htoken
  have hsame : issue = ⟨token, s.ref⟩ :=
    List.inj_on_of_nodup_map hb.shared.distinct hmem hissued htoken
  rw [hsame]

instance (sh : Shared) : DecidablePred (QuietPc sh) := by
  intro action
  unfold QuietPc
  split <;> infer_instance

instance : DecidablePred Delivering
  | .checking _ | .sending _ => isTrue trivial
  | .validating | .gettingSession | .returned _ => isFalse not_false

instance (b : Broker) (key : String) : Decidable (Quiet b key) :=
  inferInstanceAs (Decidable (_ ∧ _))

instance (sh : Shared) (key : String) : Decidable (NothingCached sh key) :=
  inferInstanceAs (Decidable (∀ e ∈ _, _))

instance (cfg : BrokerConfig) (b : Broker) : DecidablePred (LifecycleQuiet cfg b) := by
  intro action
  unfold LifecycleQuiet
  split <;> infer_instance

def exampleConfig : BrokerConfig := ⟨SessionIndex.exampleConfig, "http://broker/callback"⟩

def flowRun : List BrokerAction :=
  [.session (.createSession 0 "s1" "alice" ""), .acquireToken "s1" "alice" "https://tool",
    .acquire 0 .proceed, .acquire 0 .proceed, .acquire 0 .proceed, .acquire 0 .proceed,
    .acquire 0 .proceed, .acquire 0 (.discovered (some ⟨"https://as/auth", "https://as/token", []⟩)),
    .acquire 0 (.generated (some "verifier")),
    .acquire 0 (.built (some ("https://as/auth?state=s1.n", "n"))), .acquire 0 .proceed,
    .completeOAuth "s1" "alice" "code" "s1.n", .complete 0, .complete 0, .complete 0, .complete 0,
    .acquire 0 .completion, .acquire 0 (.exchanged (some "t1")), .acquire 0 .proceed,
    .acquire 0 .proceed, .acquire 0 .proceed, .acquire 0 .proceed]

/-- A flow run to its end returns the token of its own session. -/
theorem returned_token_isolated_flowRun :
    ∃ b c, (Broker.system exampleConfig).run (LifecycleQuiet exampleConfig) flowRun = some b ∧
      c ∈ b.acquires ∧ c.pc = .returning (.ok "t1") ∧ ReturnsOwnToken b c "t1" := by
  obtain ⟨b, hrun, c, hmem, hpc⟩ :
      ∃ b ∈ (Broker.system exampleConfig).run (LifecycleQuiet exampleConfig) flowRun,
      ∃ c ∈ b.acquires, c.pc = .returning (.ok "t1") := by
    decide +kernel
  exact ⟨b, c, hrun, hmem, hpc,
    returned_token_isolated exampleConfig b (System.reachable_of_run _ hrun) c hmem "t1" hpc⟩

def reuseRun : List BrokerAction :=
  flowRun ++ [.acquire 0 .proceed, .session (.endSession "s1"),
    .session (.createSession 1 "s1" "bob" ""), .acquireToken "s1" "bob" "https://tool",
    .acquire 1 .proceed, .acquire 1 .proceed]

/-- The token cached for a session that has ended is returned to the next session of its key. -/
theorem token_returned_across_sessions :
    ¬ ∀ b, (Broker.system exampleConfig).Reachable System.anyAction b →
      ∀ c ∈ b.acquires, ∀ token, c.pc = .returning (.ok token) → ReturnsOwnToken b c token := by
  intro hisolated
  obtain ⟨b, hrun, c, hmem, hpc, hforeign⟩ :
      ∃ b ∈ (Broker.system exampleConfig).run System.anyAction reuseRun,
      ∃ c ∈ b.acquires, c.pc = .returning (.ok "t1") ∧
        ∀ s ∈ b.shared.live c.sessionKey, ⟨"t1", s.ref⟩ ∉ b.shared.issued := by
    decide +kernel
  obtain ⟨s, hlive, -, hissued, -⟩ :=
    hisolated b (System.reachable_of_run _ hrun) c hmem "t1" hpc
  exact hforeign s hlive hissued

end Isolation

end Kagenti.TokenBroker
