import Kagenti.TokenBroker.Broker

/-!
What an `AcquireToken` or `CompleteOAuth` call may rely on at each of its steps, while the session
table does not change.
-/

namespace Kagenti.TokenBroker

open Lib.Transition

theorem proj_update {α : Type*} (g : SessionVars → α) {vars : Nat → SessionVars} {ref : Nat}
    {v : SessionVars} (h : g v = g (vars ref)) (ref' : Nat) :
    g (Function.update vars ref v ref') = g (vars ref') := by
  rw [Function.update_apply]
  split
  · next same => rw [h, same]
  · rfl

namespace Shared

variable (sh : Shared)

def live (sessionKey : String) : Option Session := sh.sessions.sessions.lookup sessionKey

/-- The session object is in use no longer: no key leads to it. -/
def Dead (s : Session) : Prop :=
  s.ref < sh.sessions.nextRef ∧ ∀ key s', sh.live key = some s' → s'.ref ≠ s.ref

variable {sh}

theorem completion_setTx (sh : Shared) (ref : Nat) (tx : Option OAuthTransaction) (ref' : Nat) :
    (sh.setTx ref tx).completion ref' =
      if ref' = ref then tx.bind OAuthTransaction.completionChan else sh.completion ref' := by
  simp only [completion, setTx, setVars, vars, SessionManager.setVars, Function.update_apply]
  split <;> rfl

theorem completion_setVars (ref : Nat) (v : SessionVars) (ref' : Nat)
    (h : v.activeOAuthTx = (sh.vars ref).activeOAuthTx) :
    (sh.setVars ref v).completion ref' = sh.completion ref' :=
  congrArg (Option.bind · _) (proj_update SessionVars.activeOAuthTx h ref')

theorem completion_updateTx (ref : Nat) (f : OAuthTransaction → OAuthTransaction)
    (ref' : Nat)
    (h : ∀ tx, (f tx).completionChan = tx.completionChan ∨ (f tx).completionChan = none) :
    (sh.updateTx ref f).completion ref' = sh.completion ref' ∨
      (sh.updateTx ref f).completion ref' = none := by
  simp only [completion, updateTx, setVars, vars, SessionManager.setVars, Function.update_apply]
  split
  · subst ref'
    cases (sh.sessions.vars ref).activeOAuthTx with
    | none => exact .inl rfl
    | some tx => exact h tx
  · exact .inl rfl

end Shared

namespace Isolation

variable {sh sh' : Shared} {c : AcquireCall}

def Owns (sh : Shared) (c : AcquireCall) (s : Session) : Prop :=
  sh.live c.sessionKey = some s ∧ s.userID = c.userID

def IssuedUnder (sh : Shared) (token : String) (s : Session) : Prop :=
  ⟨token, s.ref⟩ ∈ sh.issued

def AcquireOk (sh : Shared) (c : AcquireCall) : Prop :=
  match c.pc with
  | .validating | .returned _ | .releasing _ (.error _) | .returning (.error _) => True
  | .checkingCache | .gettingSession => ∃ s, Owns sh c s
  | .acquiring s | .rechecking s => Owns sh c s
  | .discovering s | .generating s _ => Owns sh c s ∨ sh.Dead s
  | .building f | .publishing f _ | .waiting f =>
    Owns sh c f.session ∨ sh.Dead f.session ∧ sh.completion f.session.ref = none
  | .exchanging f _ => Owns sh c f.session
  | .completing f token | .caching f token | .clearing f token =>
    Owns sh c f.session ∧ IssuedUnder sh token f.session
  | .releasing s (.ok token) => Owns sh c s ∧ IssuedUnder sh token s
  | .returning (.ok token) => ∃ s, Owns sh c s ∧ IssuedUnder sh token s

def CompleteOk (sh : Shared) (c : CompleteCall) : Prop :=
  match c.pc with
  | .checking s | .sending s => sh.live c.sessionKey = some s
  | .validating | .gettingSession | .returned _ => True

structure SharedOk (sh : Shared) : Prop where
  key_eq : ∀ {key s}, sh.live key = some s → s.sessionKey = key
  ref_lt : ∀ {key s}, sh.live key = some s → s.ref < sh.sessions.nextRef
  ref_inj : ∀ {key key' s s'}, sh.live key = some s → sh.live key' = some s' →
    s.ref = s'.ref → key = key'
  cached : ∀ {key s resourceURL e}, sh.live key = some s →
    sh.cache.entry key resourceURL = some e →
    isTokenExpired sh.now e.expiresAt = false → IssuedUnder sh e.accessToken s
  distinct : (sh.issued.map Issue.token).Nodup

structure Isolated (b : Broker) : Prop where
  shared : SharedOk b.shared
  acquires : ∀ c ∈ b.acquires, AcquireOk b.shared c
  completes : ∀ c ∈ b.completes, CompleteOk b.shared c

structure Evolves (sh sh' : Shared) : Prop where
  table : sh'.sessions.sessions = sh.sessions.sessions
  nextRef : sh'.sessions.nextRef = sh.sessions.nextRef
  issued : ∀ i ∈ sh.issued, i ∈ sh'.issued
  completion : ∀ ref, (∃ key s, sh.live key = some s ∧ s.ref = ref) ∨
    sh'.completion ref = sh.completion ref ∨ sh'.completion ref = none

theorem Evolves.live (h : Evolves sh sh') (key : String) : sh'.live key = sh.live key := by
  simp only [Shared.live, h.table]

variable {s : Session}

theorem Evolves.owns (h : Evolves sh sh') (ho : Owns sh c s) : Owns sh' c s :=
  ⟨(h.live _).trans ho.1, ho.2⟩

theorem Evolves.dead (h : Evolves sh sh') (hd : sh.Dead s) : sh'.Dead s := by
  refine ⟨h.nextRef ▸ hd.1, ?_⟩
  intro key s' hlive
  exact hd.2 key s' ((h.live key).symm.trans hlive)

theorem Evolves.completion_none (h : Evolves sh sh') (hd : sh.Dead s)
    (hn : sh.completion s.ref = none) : sh'.completion s.ref = none := by
  rcases h.completion s.ref with ⟨key, s', hlive, href⟩ | heq | heq
  · exact absurd href (hd.2 key s' hlive)
  · rw [heq, hn]
  · exact heq

theorem AcquireOk.mono (hc : AcquireOk sh c) (howns : ∀ {s}, Owns sh c s → Owns sh' c s)
    (hdead : ∀ {s}, sh.Dead s → sh'.Dead s)
    (hnone : ∀ {s}, sh.Dead s → sh.completion s.ref = none → sh'.completion s.ref = none)
    (hissued : ∀ {token s}, IssuedUnder sh token s → IssuedUnder sh' token s) :
    AcquireOk sh' c := by
  obtain ⟨sessionKey, userID, resourceURL, pc⟩ := c
  cases pc with
  | validating | returned _ => trivial
  | checkingCache | gettingSession =>
    obtain ⟨s, hs⟩ := hc
    exact ⟨s, howns hs⟩
  | acquiring s | rechecking s => exact howns hc
  | discovering s | generating s _ => exact Or.imp howns hdead hc
  | building f | publishing f _ | waiting f =>
    exact Or.imp howns (fun hd => ⟨hdead hd.1, hnone hd.1 hd.2⟩) hc
  | exchanging f _ => exact howns hc
  | completing f _ | caching f _ | clearing f _ => exact ⟨howns hc.1, hissued hc.2⟩
  | releasing s outcome =>
    cases outcome with
    | error _ => trivial
    | ok token => exact ⟨howns hc.1, hissued hc.2⟩
  | returning outcome =>
    cases outcome with
    | error _ => trivial
    | ok token =>
      obtain ⟨s, hs, hi⟩ := hc
      exact ⟨s, howns hs, hissued hi⟩

theorem AcquireOk.evolves (hc : AcquireOk sh c) (h : Evolves sh sh') : AcquireOk sh' c :=
  hc.mono h.owns h.dead h.completion_none fun hi => h.issued _ hi

theorem CompleteOk.evolves {c : CompleteCall} (hc : CompleteOk sh c) (h : Evolves sh sh') :
    CompleteOk sh' c := by
  obtain ⟨sessionKey, userID, code, state, pc⟩ := c
  cases pc with
  | validating | gettingSession | returned _ => trivial
  | checking s | sending s => exact (h.live sessionKey).trans hc

theorem Evolves.refl (sh : Shared) : Evolves sh sh :=
  ⟨rfl, rfl, fun _ hi => hi, fun _ => .inr (.inl rfl)⟩

variable (ref : Nat)

theorem evolves_setVars (v : SessionVars)
    (h : ∀ ref', (sh.setVars ref v).completion ref' = sh.completion ref' ∨
      (sh.setVars ref v).completion ref' = none) : Evolves sh (sh.setVars ref v) :=
  ⟨rfl, rfl, fun _ hi => hi, fun ref' => .inr (h ref')⟩

theorem evolves_setTaken (taken : Bool) : Evolves sh (sh.setTaken ref taken) :=
  evolves_setVars ref _ fun ref' => .inl (Shared.completion_setVars ref _ ref' rfl)

theorem evolves_setEvent (event : Option Event) : Evolves sh (sh.setEvent ref event) :=
  evolves_setVars ref _ fun ref' => .inl (Shared.completion_setVars ref _ ref' rfl)

theorem evolves_updateTx (f : OAuthTransaction → OAuthTransaction)
    (h : ∀ tx, (f tx).completionChan = tx.completionChan ∨ (f tx).completionChan = none) :
    Evolves sh (sh.updateTx ref f) :=
  evolves_setVars ref _ fun ref' => Shared.completion_updateTx ref f ref' h

theorem evolves_setTx (tx : Option OAuthTransaction)
    (h : tx.bind OAuthTransaction.completionChan = none ∨
      tx.bind OAuthTransaction.completionChan = sh.completion ref) :
    Evolves sh (sh.setTx ref tx) := by
  refine evolves_setVars ref _ fun ref' => ?_
  have hset := sh.completion_setTx ref tx ref'
  rw [Shared.setTx] at hset
  rw [hset]
  split
  · subst ref'
    exact h.symm
  · exact .inl rfl

theorem SharedOk.setVars (h : SharedOk sh) (ref : Nat) (v : SessionVars) :
    SharedOk (sh.setVars ref v) :=
  ⟨h.key_eq, h.ref_lt, h.ref_inj, h.cached, h.distinct⟩

variable {resourceURL : String} {pc : AcquirePc} {sessionKey : String}

theorem owns_of_validateSession {userID : String}
    (h : sh.sessions.validateSession sessionKey userID = .ok ()) :
    ∃ s, Owns sh ⟨sessionKey, userID, resourceURL, pc⟩ s := by
  revert h
  fun_cases SessionManager.validateSession <;> rintro ⟨⟩
  next s hlive huser => exact ⟨s, hlive, not_not.mp huser⟩

theorem live_of_getSession (h : sh.sessions.getSession sessionKey = .ok s) :
    sh.live sessionKey = some s := by
  unfold SessionManager.getSession at h
  split at h
  next s' hlive =>
    cases h
    exact hlive
  · cases h

variable {token : String}

theorem SharedOk.issued_of_getToken (hsh : SharedOk sh) (hlive : sh.live c.sessionKey = some s)
    (h : sh.cache.getToken sh.now c.sessionKey resourceURL = some token) :
    IssuedUnder sh token s := by
  obtain ⟨e, hentry, hfresh, rfl⟩ := TokenCache.getToken_eq_some h
  exact hsh.cached hlive hentry hfresh

theorem SharedOk.issue (hsh : SharedOk sh) {ref : Nat} (hfresh : token ∉ sh.issued.map Issue.token)
    : SharedOk { sh with issued := ⟨token, ref⟩ :: sh.issued } :=
  ⟨hsh.key_eq, hsh.ref_lt, hsh.ref_inj,
    fun hlive hentry hvalid => List.mem_cons_of_mem _ (hsh.cached hlive hentry hvalid),
    List.nodup_cons.mpr ⟨hfresh, hsh.distinct⟩⟩

theorem SharedOk.setToken (hsh : SharedOk sh) {key : String} (hlive : sh.live key = some s)
    (hissued : IssuedUnder sh token s) : SharedOk { sh with
      cache := sh.cache.setToken sh.now s.sessionKey resourceURL token } := by
  refine ⟨hsh.key_eq, hsh.ref_lt, hsh.ref_inj, ?_, hsh.distinct⟩
  intro key' s' url e hlive' hentry hvalid
  rw [TokenCache.entry_setToken] at hentry
  split at hentry
  next hsame =>
    cases hentry
    rw [hsame.1, hsh.key_eq hlive] at hlive'
    have hs : s' = s := Option.some.inj (hlive'.symm.trans hlive)
    exact hs ▸ hissued
  · exact hsh.cached hlive' hentry hvalid

structure StepOk (sh : Shared) (c : AcquireCall) (sh' : Shared) (pc : AcquirePc) : Prop where
  shared : SharedOk sh'
  evolves : Evolves sh sh'
  call : AcquireOk sh' { c with pc := pc }

theorem StepOk.same (hsh : SharedOk sh) (h : AcquireOk sh { c with pc := pc }) :
    StepOk sh c sh pc :=
  ⟨hsh, .refl sh, h⟩

theorem StepOk.moved (hsh : SharedOk sh') (hev : Evolves sh sh')
    (h : AcquireOk sh { c with pc := pc }) : StepOk sh c sh' pc :=
  ⟨hsh, hev, h.evolves hev⟩

theorem StepOk.failTx (hsh : SharedOk sh) (ref : Nat) (s : Session) (message : String) :
    StepOk sh c (sh.failTx ref) (.releasing s (flowError message)) :=
  ⟨hsh.setVars _ _, evolves_updateTx ref _ fun _ => .inl rfl, trivial⟩

variable {move : AcquireMove}

theorem flowStep_ok (url : String) (hsh : SharedOk sh) (hc : AcquireOk sh c)
    (h : flowStep url sh c move = some (sh', pc)) : StepOk sh c sh' pc := by
  obtain ⟨sessionKey, userID, resourceURL, pc₀⟩ := c
  cases flowStep_sound h with
  | stopped message hs => exact .same hsh trivial
  | failed message hs => exact .failTx hsh _ _ _
  | discovered hpc =>
    cases hpc
    exact .same hsh hc
  | @generated s endpoints codeVerifier hpc =>
    cases hpc
    have hev : Evolves sh _ := evolves_setTx s.ref
      (some (newTransaction resourceURL codeVerifier endpoints)) (.inl rfl)
    refine ⟨hsh.setVars _ _, hev, ?_⟩
    refine Or.imp hev.owns (fun hd => ⟨hev.dead hd, ?_⟩) hc
    rw [Shared.completion_setTx, if_pos rfl]
    rfl
  | built hpc =>
    cases hpc
    exact .moved (hsh.setVars _ _) (evolves_updateTx _ _ fun _ => .inl rfl) hc
  | published hpc =>
    cases hpc
    exact .moved (hsh.setVars _ _) (evolves_setEvent _ _) hc
  | refused message hpc hcompletion =>
    exact ⟨hsh.setVars _ _, evolves_updateTx _ _ fun _ => .inr rfl, trivial⟩
  | received hpc hcompletion =>
    cases hpc
    -- a flow of a dead session has no code to receive
    rcases hc with hs | ⟨-, hnone⟩
    · exact .moved (hsh.setVars _ _) (evolves_updateTx _ _ fun _ => .inr rfl) hs
    · rw [hcompletion] at hnone
      cases hnone
  | exchanged hpc hfresh =>
    cases hpc
    exact ⟨hsh.issue hfresh, ⟨rfl, rfl, fun _ => List.mem_cons_of_mem _, fun _ => .inr (.inl rfl)⟩,
      hc, List.mem_cons_self⟩
  | completed hpc htx =>
    cases hpc
    refine .moved (hsh.setVars _ _) (evolves_setTx _ _ (.inr ?_)) hc
    simp [Shared.completion, htx]
  | cached hpc =>
    cases hpc
    exact .moved (hsh.setToken hc.1.1 hc.2)
      ⟨rfl, rfl, fun _ hi => hi, fun _ => .inr (.inl rfl)⟩ hc
  | cleared hpc =>
    cases hpc
    exact .moved (hsh.setVars _ _) (evolves_setTx _ _ (.inl rfl)) hc
  | @released s outcome hpc =>
    cases hpc
    refine .moved (hsh.setVars _ _) (evolves_setTaken _ _) ?_
    cases outcome with
    | error _ => trivial
    | ok token => exact ⟨s, hc⟩

theorem acquireStep_ok {url : String} (hsh : SharedOk sh) (hc : AcquireOk sh c)
    (h : acquireStep url sh c move = some (sh', pc)) : StepOk sh c sh' pc := by
  revert h
  fun_cases acquireStep
  case case13 => exact flowStep_ok url hsh hc
  all_goals rintro ⟨⟩ <;> simp only [AcquireOk, *] at hc
  case case1 hvalid => exact .same hsh (owns_of_validateSession hvalid)
  case case3 token hhit =>
    obtain ⟨s, hs⟩ := hc
    exact .same hsh ⟨s, hs, hsh.issued_of_getToken hs.1 hhit⟩
  case case5 s hget =>
    obtain ⟨s', hs⟩ := hc
    obtain rfl := Option.some.inj ((live_of_getSession hget).symm.trans hs.1)
    exact .same hsh hs
  case case8 => exact .moved (hsh.setVars _ _) (evolves_setTaken _ _) hc
  case case10 token hhit => exact .same hsh ⟨hc, hsh.issued_of_getToken hc.1 hhit⟩
  case case11 => exact .same hsh (.inl hc)
  all_goals first | exact .same hsh trivial | exact .same hsh hc

theorem completeStep_ok {c : CompleteCall} {pc : CompletePc} (hsh : SharedOk sh)
    (hc : CompleteOk sh c) (h : completeStep sh c = some (sh', pc)) :
    SharedOk sh' ∧ Evolves sh sh' ∧ CompleteOk sh' { c with pc := pc } := by
  revert h
  fun_cases completeStep <;> rintro ⟨⟩ <;> simp only [CompleteOk, *] at hc
  case case3 s hget => exact ⟨hsh, .refl sh, live_of_getSession hget⟩
  case case5 => exact ⟨hsh, .refl sh, hc⟩
  case case7 s _ tx htx _ =>
    refine ⟨hsh.setVars _ _, ⟨rfl, rfl, fun _ hi => hi, fun ref => ?_⟩, trivial⟩
    by_cases href : s.ref = ref
    · exact .inl ⟨_, s, hc, href⟩
    · rw [Shared.completion_setTx, if_neg (Ne.symm href)]
      exact .inr (.inl rfl)
  all_goals exact ⟨hsh, .refl sh, trivial⟩

end Isolation

end Kagenti.TokenBroker
