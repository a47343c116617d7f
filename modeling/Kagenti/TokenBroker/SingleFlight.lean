import Kagenti.TokenBroker.Effects
import Kagenti.TokenBroker.Isolation

/-!
Single flight (`AcquireToken` in `internal/core/broker.go`, with the semaphore of
`internal/session/semaphore.go`).
-/

namespace Kagenti.TokenBroker

open Lib.Transition Effects
open Isolation (exampleConfig)

namespace SingleFlight

structure Exclusive (b : Broker) : Prop where
  live : ∀ key s, b.shared.live key = some s →
    s.sessionKey = key ∧ s.ref < b.shared.sessions.nextRef
  known : ∀ (i : Nat) (c : AcquireCall) (s : Session),
    b.acquires[i]? = some c → c.pc.session = some s →
    s.sessionKey = c.sessionKey ∧ s.ref < b.shared.sessions.nextRef
  taken : ∀ (i : Nat) (c : AcquireCall) (s : Session),
    b.acquires[i]? = some c → c.pc.holds = some s →
    (b.shared.vars s.ref).semaphoreTaken = true
  alone : ∀ (i j : Nat) (c c' : AcquireCall) (s s' : Session),
    b.acquires[i]? = some c → b.acquires[j]? = some c' →
    c.pc.holds = some s → c'.pc.holds = some s' → s.ref = s'.ref → i = j

theorem exclusive_init : Exclusive Broker.init := by
  constructor <;> intros <;> simp_all [Broker.init, Shared.live, SessionManager.new]

variable {i : Nat} {j : Nat}

theorem getElem?_set_cases {α : Type*} {l : List α} {a d : α} (h : (l.set i a)[j]? = some d) :
    j = i ∧ d = a ∨ j ≠ i ∧ l[j]? = some d := by
  rw [List.getElem?_set] at h
  by_cases hij : i = j
  · grind
  · rw [if_neg hij] at h
    exact .inr ⟨Ne.symm hij, h⟩

variable {b : Broker} {sh : Shared}

theorem Exclusive.withShared (hb : Exclusive b) (completes : List CompleteCall)
    (hlive : ∀ key, sh.live key = b.shared.live key)
    (hnext : sh.sessions.nextRef = b.shared.sessions.nextRef)
    (htaken : ∀ ref, (sh.vars ref).semaphoreTaken = (b.shared.vars ref).semaphoreTaken) :
    Exclusive { shared := sh, acquires := b.acquires, completes := completes } where
  live key s hs := by
    rw [hnext]
    exact hb.live key s (hlive key ▸ hs)
  known i c s hget hs := by
    rw [hnext]
    exact hb.known i c s hget hs
  taken i c s hget hs := by
    rw [htaken]
    exact hb.taken i c s hget hs
  alone := hb.alone

theorem Exclusive.sessionOp (hb : Exclusive b) {sm : SessionManager}
    (heff : OpEffect b.shared.sessions sm) : Exclusive (b.withSessions sm) where
  live key s hs := by
    rcases heff.live key s hs with hold | ⟨hkey, -, hlt⟩
    · obtain ⟨hkey, hlt⟩ := hb.live key s hold
      exact ⟨hkey, Nat.lt_of_lt_of_le hlt heff.nextRef_le⟩
    · exact ⟨hkey, hlt⟩
  known i c s hget hs := by
    obtain ⟨hkey, hlt⟩ := hb.known i c s hget hs
    exact ⟨hkey, Nat.lt_of_lt_of_le hlt heff.nextRef_le⟩
  taken i c s hget hs := by
    obtain ⟨-, hlt⟩ := hb.known i c s hget (AcquirePc.session_of_holds hs)
    have htaken := hb.taken i c s hget hs
    exact (heff.semaphoreTaken s.ref hlt).trans htaken
  alone := hb.alone

theorem Exclusive.acquireToken (hb : Exclusive b) (sessionKey userID resourceURL : String) :
    Exclusive { b with acquires :=
      b.acquires ++ [⟨sessionKey, userID, resourceURL, .validating⟩] } := by
  have hold : ∀ (i : Nat) (c : AcquireCall) (s : Session),
      (b.acquires ++ [⟨sessionKey, userID, resourceURL, .validating⟩])[i]? = some c →
      c.pc.session = some s → b.acquires[i]? = some c := by
    intro i c s hget hs
    rw [List.getElem?_append] at hget
    split at hget
    · exact hget
    · have hmem := List.mem_of_getElem? hget
      rw [List.mem_singleton.mp hmem] at hs
      cases hs
  constructor
  · exact hb.live
  · exact fun i c s hget hs => hb.known i c s (hold i c s hget hs) hs
  · exact fun i c s hget hs =>
      hb.taken i c s (hold i c s hget (AcquirePc.session_of_holds hs)) hs
  · intro i j c c' s s' hget hget' hs hs'
    exact hb.alone i j c c' s s' (hold i c s hget (AcquirePc.session_of_holds hs))
      (hold j c' s' hget' (AcquirePc.session_of_holds hs')) hs hs'

theorem vars_setTaken (sh : Shared) (ref ref' : Nat) (taken : Bool) :
    ((sh.setTaken ref taken).vars ref').semaphoreTaken =
      if ref' = ref then taken else (sh.vars ref').semaphoreTaken := by
  simp only [Shared.setTaken, Shared.setVars, SessionManager.setVars, Shared.vars,
    Function.update_apply]
  split <;> rfl

variable {c : AcquireCall}

theorem Exclusive.acquire (hb : Exclusive b) {pc : AcquirePc} (hget : b.acquires[i]? = some c)
    (heff : CallEffect b.shared c sh pc) :
    Exclusive { b with shared := sh, acquires := b.acquires.set i { c with pc := pc } } := by
  have hlive : ∀ key s, sh.live key = some s →
      s.sessionKey = key ∧ s.ref < sh.sessions.nextRef := by
    intro key s hs
    rw [heff.nextRef]
    exact hb.live key s (heff.live key ▸ hs)
  have hknown : ∀ (j : Nat) (d : AcquireCall) (s : Session),
      (b.acquires.set i { c with pc := pc })[j]? = some d → d.pc.session = some s →
      s.sessionKey = d.sessionKey ∧ s.ref < sh.sessions.nextRef := by
    intro j d s hj hs
    rw [heff.nextRef]
    rcases getElem?_set_cases hj with ⟨-, rfl⟩ | ⟨-, hj⟩
    · rcases heff.known s hs with hs | hs
      · exact hb.known i c s hget hs
      · exact hb.live _ s hs
    · exact hb.known j d s hj hs
  refine ⟨hlive, hknown, ?_, ?_⟩
  · intro j d s hset hs
    rcases getElem?_set_cases hset with ⟨rfl, rfl⟩ | ⟨hne, hj⟩
    · rcases heff.semaphore with ⟨hholds, htaken⟩ | ⟨s₀, -, hpc, -, rfl⟩ | ⟨s₀, -, hs₀, -⟩
      · have hold := hb.taken j c s hget (hholds ▸ hs)
        exact (htaken s.ref).trans hold
      · have heq : s₀ = s := by simpa [hpc] using hs
        rw [vars_setTaken, heq, if_pos rfl]
      · rw [hs₀] at hs
        cases hs
    · have hold := hb.taken j d s hj hs
      rcases heff.semaphore with ⟨-, htaken⟩ | ⟨s₀, -, -, -, rfl⟩ | ⟨s₀, hs₀, -, rfl⟩
      · exact (htaken s.ref).trans hold
      · rw [vars_setTaken]
        split
        · rfl
        · exact hold
      · -- the semaphore that the step gives back is not the one of another holder
        have hother : s.ref ≠ s₀.ref := fun heq => hne (hb.alone j i d c s s₀ hj hget hs hs₀ heq)
        rw [vars_setTaken, if_neg hother]
        exact hold
  · -- a call that comes to hold a semaphore took it while nobody else held it
    have hfree : ∀ (j : Nat) (d : AcquireCall) (s s' : Session), j ≠ i →
        b.acquires[j]? = some d → d.pc.holds = some s → pc.holds = some s' →
        s.ref ≠ s'.ref := by
      intro j d s s' hne hj hs hs' heq
      rcases heff.semaphore with ⟨hholds, -⟩ | ⟨s₀, -, hpc, hfree, -⟩ | ⟨s₀, -, hs₀, -⟩
      · exact hne (hb.alone j i d c s s' hj hget hs (hholds ▸ hs') heq)
      · have htaken := hb.taken j d s hj hs
        have heq' : s₀ = s' := by simpa [hpc] using hs'
        rw [heq, ← heq', hfree] at htaken
        cases htaken
      · rw [hs₀] at hs'
        cases hs'
    intro j k d d' s s' hset hset' hs hs' heq
    rcases getElem?_set_cases hset with ⟨rfl, rfl⟩ | ⟨hji, hj⟩
    · grind
    · rcases getElem?_set_cases hset' with ⟨rfl, rfl⟩ | ⟨hki, hk⟩
      · exact absurd heq (hfree j d s s' hji hj hs hs')
      · exact hb.alone j k d d' s s' hj hk hs hs' heq

variable {cfg : BrokerConfig}

theorem exclusive_step {b' : Broker} (hb : Exclusive b) (action : BrokerAction)
    (hstep : Broker.step cfg b action = some b') : Exclusive b' := by
  cases step_effect hstep with
  | session heff => exact hb.sessionOp heff
  | acquireToken sessionKey userID resourceURL =>
    exact hb.acquireToken sessionKey userID resourceURL
  | acquire hget hcall => exact hb.acquire hget (acquireStep_effect hcall)
  | passive completes h =>
    refine hb.withShared completes (fun key => ?_) (by rw [h.sessions]) h.semaphoreTaken
    rw [Shared.live, h.sessions]
    rfl

theorem exclusive_reachable {G : Broker → BrokerAction → Prop}
    (h : (Broker.system cfg).Reachable G b) : Exclusive b :=
  h.invariant (I := Exclusive) exclusive_init fun _ action _ hb _ hstep =>
    exclusive_step hb action hstep

/-- At most one flow is in progress under a session object. -/
def OneFlowPerSession (b : Broker) : Prop :=
  ∀ (i j : Nat) (c c' : AcquireCall) (s s' : Session),
    b.acquires[i]? = some c → b.acquires[j]? = some c' →
    c.pc.inFlow = some s → c'.pc.inFlow = some s' → s.ref = s'.ref → i = j

theorem Exclusive.oneFlow (hb : Exclusive b) : OneFlowPerSession b := by
  intro i j c c' s s' hi hj hs hs' heq
  exact hb.alone i j c c' s s' hi hj (AcquirePc.holds_of_inFlow hs)
    (AcquirePc.holds_of_inFlow hs') heq

section Cached

variable {key url : String} {expiresAt : Time}

structure Served (key url : String) (expiresAt : Time) (b : Broker) : Prop where
  entry : ∃ e, b.shared.cache.entry key url = some e ∧ e.expiresAt = expiresAt
  quiet : ∀ c ∈ b.acquires, c.sessionKey = key → c.resourceURL = url → c.pc.obtains = none

theorem Served.getToken (h : Served key url expiresAt b)
    (hfresh : isTokenExpired b.shared.now expiresAt = false) :
    b.shared.cache.getToken b.shared.now key url ≠ none := by
  obtain ⟨e, hentry, rfl⟩ := h.entry
  rw [TokenCache.getToken_of_entry hentry hfresh]
  exact Option.some_ne_none _

theorem Served.acquire (hb : Exclusive b) (h : Served key url expiresAt b)
    (hfresh : isTokenExpired b.shared.now expiresAt = false) {c : AcquireCall} {sh : Shared}
    {pc : AcquirePc} (hget : b.acquires[i]? = some c) (heff : CallEffect b.shared c sh pc) :
    Served key url expiresAt
      { b with shared := sh, acquires := b.acquires.set i { c with pc := pc } } := by
  have hmem := List.mem_of_getElem? hget
  constructor
  · rcases heff.cache with hcache | ⟨f, token, hpc, hcache⟩
    · obtain ⟨e, he⟩ := h.entry
      exact ⟨e, hcache ▸ he⟩
    · -- the call stores a token, so it is a call for another key or resource
      have hkey := (hb.known i c f.session hget (by simp [hpc])).1
      have hother : ¬ (key = f.session.sessionKey ∧ url = c.resourceURL) := by
        rintro ⟨rfl, rfl⟩
        have hquiet := h.quiet c hmem hkey.symm rfl
        simp [hpc] at hquiet
      obtain ⟨e, he⟩ := h.entry
      refine ⟨e, ?_, he.2⟩
      rw [hcache, TokenCache.entry_setToken, if_neg hother]
      exact he.1
  · intro d hd hkey hurl
    rcases List.mem_or_eq_of_mem_set hd with hd | rfl
    · exact h.quiet d hd hkey hurl
    · rw [Option.eq_none_iff_forall_ne_some]
      intro s hs
      rcases heff.obtains s hs with hs | hmiss
      · rw [h.quiet c hmem hkey hurl] at hs
        cases hs
      · rw [hkey, hurl] at hmiss
        exact h.getToken hfresh hmiss

variable {b' : Broker} {cfg : BrokerConfig}

theorem served_step (hb : Exclusive b) (h : Served key url expiresAt b)
    (hfresh : isTokenExpired b.shared.now expiresAt = false) (action : BrokerAction)
    (hstep : Broker.step cfg b action = some b') : Served key url expiresAt b' := by
  cases step_effect hstep with
  | session heff => exact ⟨h.entry, h.quiet⟩
  | acquireToken sessionKey userID resourceURL =>
    exact ⟨h.entry, List.forall_mem_append.mpr
      ⟨h.quiet, List.forall_mem_singleton.mpr fun _ _ => rfl⟩⟩
  | acquire hget hcall => exact h.acquire hb hfresh hget (acquireStep_effect hcall)
  | passive completes hpassive =>
    obtain ⟨e, hentry, rfl⟩ := h.entry
    refine ⟨⟨e, ?_, rfl⟩, h.quiet⟩
    rcases hpassive.cache with hcache | hcache <;> rw [hcache]
    · exact hentry
    · exact TokenCache.entry_cleanupExpiredTokens_of_fresh hentry hfresh

theorem now_step (action : BrokerAction) (hstep : Broker.step cfg b action = some b') :
    b.shared.now ≤ b'.shared.now := by
  cases step_effect hstep with
  | session | acquireToken => exact Int.le_refl _
  | acquire hget hcall => exact Int.le_of_eq (acquireStep_effect hcall).now.symm
  | passive completes h => exact h.now

theorem served_run {G : Broker → BrokerAction → Prop}
    (hrun : Relation.ReflTransGen ((Broker.system cfg).Next G) b b') (hb : Exclusive b)
    (h : Served key url expiresAt b) (hfresh : isTokenExpired b'.shared.now expiresAt = false) :
    Exclusive b' ∧ Served key url expiresAt b' := by
  induction hrun with
  | refl => exact ⟨hb, h⟩
  | tail _ hnext ih =>
    obtain ⟨action, -, hstep⟩ := hnext
    have hfresh' := TokenCache.isTokenExpired_mono (now_step action hstep) hfresh
    obtain ⟨hb', h'⟩ := ih hfresh'
    exact ⟨exclusive_step hb' action hstep, served_step hb' h' hfresh' action hstep⟩

end Cached

/-- The step from `b` to `b₁` in which a call stores the token of its flow. -/
def Caches (cfg : BrokerConfig) (b : Broker) (i : Nat) (c : AcquireCall) (token : String)
    (b₁ : Broker) : Prop :=
  b.acquires[i]? = some c ∧ (∃ f, c.pc = .caching f token) ∧
    Broker.step cfg b (.acquire i .proceed) = some b₁

def StartsFlow (cfg : BrokerConfig) (b : Broker) (j : Nat) : Prop :=
  ∃ d move b', b.acquires[j]? = some d ∧ d.pc.inFlow = none ∧
    Broker.step cfg b (.acquire j move) = some b' ∧
    ∃ d', b'.acquires[j]? = some d' ∧ d'.pc.inFlow ≠ none

/-- The condition: no other call is obtaining a token for the same key and resource. By
`Exclusive.oneFlow` such a call runs under another session object of the key. -/
def NoRivalFlow (b : Broker) (i : Nat) (c : AcquireCall) : Prop :=
  ∀ (j : Nat) (d : AcquireCall), j ≠ i → b.acquires[j]? = some d →
    d.sessionKey = c.sessionKey → d.resourceURL = c.resourceURL → d.pc.obtains = none

theorem served_of_caches {token : String} {b₁ : Broker} (hb : Exclusive b)
    (hcaches : Caches cfg b i c token b₁) (hrival : NoRivalFlow b i c) :
    Served c.sessionKey c.resourceURL (parseJWTExpiry b.shared.now token) b₁ := by
  obtain ⟨hget, ⟨f, hpc⟩, hstep⟩ := hcaches
  obtain ⟨c', sh, pc, hget', hcall, rfl⟩ := acquire_step hstep
  obtain rfl : c = c' := Option.some.inj (hget.symm.trans hget')
  have hkey := (hb.known i c f.session hget (by simp [hpc])).1
  simp only [acquireStep, hpc, flowStep, Option.some.injEq, Prod.mk.injEq] at hcall
  obtain ⟨rfl, rfl⟩ := hcall
  constructor
  · refine ⟨⟨token, parseJWTExpiry b.shared.now token, b.shared.now⟩, ?_, rfl⟩
    rw [TokenCache.entry_setToken, hkey, if_pos ⟨rfl, rfl⟩]
  · intro d hd hdkey hdurl
    obtain ⟨j, hj⟩ := List.mem_iff_getElem?.mp hd
    rcases getElem?_set_cases hj with ⟨-, rfl⟩ | ⟨hne, hj⟩
    · rfl
    · exact hrival j d hne hj hdkey hdurl

theorem not_startsFlow_of_served {key url : String} {expiresAt : Time}
    (h : Served key url expiresAt b) (hfresh : isTokenExpired b.shared.now expiresAt = false)
    {d : AcquireCall} (hget : b.acquires[j]? = some d) (hkey : d.sessionKey = key)
    (hurl : d.resourceURL = url) : ¬ StartsFlow cfg b j := by
  rintro ⟨d₀, move, b', hget₀, hbefore, hstep, d', hget', hafter⟩
  obtain rfl : d = d₀ := Option.some.inj (hget.symm.trans hget₀)
  obtain ⟨c, sh, pc, hget₁, hcall, rfl⟩ := acquire_step hstep
  obtain rfl : d = c := Option.some.inj (hget.symm.trans hget₁)
  rcases getElem?_set_cases hget' with ⟨-, rfl⟩ | ⟨hne, -⟩
  · obtain ⟨s, hs⟩ := Option.ne_none_iff_exists'.mp hafter
    rcases (acquireStep_effect hcall).starts s hs with hold | hmiss
    · rw [hbefore] at hold
      cases hold
    · rw [hkey, hurl] at hmiss
      exact h.getToken hfresh hmiss
  · exact hne rfl

/-- Single flight. In every interleaving at most one flow is in progress under a session
object. Once a call has stored a token while no flow of another session object of its key
was obtaining one for the same resource, no call for that key and resource starts a flow
for as long as the token is good. -/
theorem single_flight (cfg : BrokerConfig) :
    (∀ b, (Broker.system cfg).Reachable System.anyAction b → OneFlowPerSession b) ∧
    ∀ (b b₁ b₂ : Broker) (i j : Nat) (c d : AcquireCall) (token : String),
      (Broker.system cfg).Reachable System.anyAction b →
      Caches cfg b i c token b₁ → NoRivalFlow b i c →
      Relation.ReflTransGen ((Broker.system cfg).Next System.anyAction) b₁ b₂ →
      isTokenExpired b₂.shared.now (parseJWTExpiry b.shared.now token) = false →
      b₂.acquires[j]? = some d → d.sessionKey = c.sessionKey →
      d.resourceURL = c.resourceURL → ¬ StartsFlow cfg b₂ j := by
  constructor
  · intro b h
    exact (exclusive_reachable h).oneFlow
  · intro b b₁ b₂ i j c d token h hcaches hrival hrun hfresh hget hkey hurl
    have hb := exclusive_reachable h
    have hserved := served_of_caches hb hcaches hrival
    have hb₁ := exclusive_step hb _ hcaches.2.2
    obtain ⟨-, hserved₂⟩ := served_run hrun hb₁ hserved hfresh
    exact not_startsFlow_of_served hserved₂ hfresh hget hkey hurl

instance (b : Broker) (i : Nat) (c : AcquireCall) : Decidable (NoRivalFlow b i c) :=
  decidable_of_iff (∀ j < b.acquires.length, j ≠ i → ∀ d ∈ b.acquires[j]?,
    d.sessionKey = c.sessionKey → d.resourceURL = c.resourceURL → d.pc.obtains = none) <| by
      constructor
      · intro h j d hne hget
        exact h j (List.getElem?_eq_some_iff.mp hget).1 hne d hget
      · exact fun h j _ hne d hget => h j d hne hget

/-- The actions that take call `i` from the recheck of the cache to the point where it
stores `token`; `k` is the `CompleteOAuth` call that brings the code. -/
def flowActions (i k : Nat) (userID token : String) : List BrokerAction :=
  [.acquire i .proceed,
    .acquire i (.discovered (some ⟨"https://as/auth", "https://as/token", []⟩)),
    .acquire i (.generated (some "verifier")),
    .acquire i (.built (some ("https://as/auth?state=s1.n", "n"))), .acquire i .proceed,
    .completeOAuth "s1" userID "code" "s1.n", .complete k, .complete k, .complete k,
    .complete k, .acquire i .completion, .acquire i (.exchanged (some token)),
    .acquire i .proceed]

def waitActions (i : Nat) (userID : String) : List BrokerAction :=
  [.acquireToken "s1" userID "https://tool", .acquire i .proceed, .acquire i .proceed,
    .acquire i .proceed]

def twoWaitersRun : List BrokerAction :=
  [.session (.createSession 0 "s1" "alice" "")] ++ waitActions 0 "alice" ++
    waitActions 1 "alice" ++ [.acquire 0 .proceed] ++ flowActions 0 0 "alice" "t1"

/-- The first call returns, and the second one gets the semaphore. -/
def handOver : List BrokerAction :=
  [.acquire 0 .proceed, .acquire 0 .proceed, .acquire 0 .proceed, .acquire 1 .proceed]

def exampleFlow (ref : Nat) (userID : String) : Flow :=
  ⟨⟨ref, "s1", userID, "", 0⟩, ⟨"https://as/auth", "https://as/token", []⟩, "verifier"⟩

/-- Two calls wait on one session: the second takes the token the first has cached. -/
theorem single_flight_twoWaiters :
    ∃ b b₁ b₂ c d, (Broker.system exampleConfig).run System.anyAction twoWaitersRun = some b ∧
      Caches exampleConfig b 0 c "t1" b₁ ∧ NoRivalFlow b 0 c ∧
      (Broker.system exampleConfig).runFrom System.anyAction b₁ handOver = some b₂ ∧
      OneFlowPerSession b₂ ∧
      b₂.acquires[1]? = some d ∧ ¬ StartsFlow exampleConfig b₂ 1 := by
  obtain ⟨b, hrun, c, hget, hpc, hrival, b₁, hstep, b₂, hrun', d, hget', hfresh, hkey, hurl⟩ :
      ∃ b ∈ (Broker.system exampleConfig).run System.anyAction twoWaitersRun,
      ∃ c ∈ b.acquires[0]?, c.pc = .caching (exampleFlow 0 "alice") "t1" ∧ NoRivalFlow b 0 c ∧
      ∃ b₁ ∈ Broker.step exampleConfig b (.acquire 0 .proceed),
      ∃ b₂ ∈ (Broker.system exampleConfig).runFrom System.anyAction b₁ handOver,
      ∃ d ∈ b₂.acquires[1]?,
        isTokenExpired b₂.shared.now (parseJWTExpiry b.shared.now "t1") = false ∧
        d.sessionKey = c.sessionKey ∧ d.resourceURL = c.resourceURL := by
    decide +kernel
  have hreach := System.reachable_of_run _ hrun
  have hcaches : Caches exampleConfig b 0 c "t1" b₁ := ⟨hget, ⟨_, hpc⟩, hstep⟩
  have hlater := System.reflTransGen_of_runFrom hrun'
  obtain ⟨hone, hserves⟩ := single_flight exampleConfig
  refine ⟨b, b₁, b₂, c, d, hrun, hcaches, hrival, hrun', hone b₂ ?_, hget', ?_⟩
  · have hnext : (Broker.system exampleConfig).Next System.anyAction b b₁ :=
      ⟨.acquire 0 .proceed, trivial, hstep⟩
    exact (hreach.tail hnext).trans hlater
  · exact hserves b b₁ b₂ 0 1 c d "t1" hreach hcaches hrival hlater hfresh hget' hkey hurl

def expiredToken : String := "a.eyJleHAiOjF9.c"

def replacedRun : List BrokerAction :=
  [.session (.createSession 0 "s1" "alice" "")] ++ waitActions 0 "alice" ++
    [.acquire 0 .proceed] ++ flowActions 0 0 "alice" expiredToken ++
    [.session (.endSession "s1"), .session (.createSession 0 "s1" "bob" "")] ++
    waitActions 1 "bob" ++ waitActions 2 "bob" ++ [.acquire 1 .proceed] ++
    flowActions 1 1 "bob" "t1"

def staleWrite : List BrokerAction :=
  [.acquire 0 .proceed, .acquire 1 .proceed, .acquire 1 .proceed, .acquire 2 .proceed]

/-- A flow of an ended session overwrites the entry of its key with an expired token, and the waiter
of the new session starts a flow of its own. -/
theorem waiter_starts_flow_after_caching :
    ¬ ∀ (b b₁ b₂ : Broker) (i j : Nat) (c d : AcquireCall) (s : Session) (token : String),
      (Broker.system exampleConfig).Reachable System.anyAction b →
      Caches exampleConfig b i c token b₁ → c.pc.inFlow = some s →
      b.acquires[j]? = some d → d.pc = .acquiring s → d.resourceURL = c.resourceURL →
      Relation.ReflTransGen ((Broker.system exampleConfig).Next System.anyAction) b₁ b₂ →
      isTokenExpired b₂.shared.now (parseJWTExpiry b.shared.now token) = false →
      ¬ StartsFlow exampleConfig b₂ j := by
  intro hserves
  obtain ⟨b, hrun, c, hget, hpc, d, hwait, hd, hurl, b₁, hstep, b₂, hrun', hfresh, d₂, hget₂,
      hbefore, b₃, hstep', d₃, hget₃, hafter⟩ :
      ∃ b ∈ (Broker.system exampleConfig).run System.anyAction replacedRun,
      ∃ c ∈ b.acquires[1]?, c.pc = .caching (exampleFlow 1 "bob") "t1" ∧
      ∃ d ∈ b.acquires[2]?, d.pc = .acquiring (exampleFlow 1 "bob").session ∧
        d.resourceURL = c.resourceURL ∧
      ∃ b₁ ∈ Broker.step exampleConfig b (.acquire 1 .proceed),
      ∃ b₂ ∈ (Broker.system exampleConfig).runFrom System.anyAction b₁ staleWrite,
        isTokenExpired b₂.shared.now (parseJWTExpiry b.shared.now "t1") = false ∧
      ∃ d₂ ∈ b₂.acquires[2]?, d₂.pc.inFlow = none ∧
      ∃ b₃ ∈ Broker.step exampleConfig b₂ (.acquire 2 .proceed),
      ∃ d₃ ∈ b₃.acquires[2]?, d₃.pc.inFlow ≠ none := by
    set_option synthInstance.maxSize 400 in decide +kernel
  refine hserves b b₁ b₂ 1 2 c d _ "t1" (System.reachable_of_run _ hrun)
    ⟨hget, ⟨_, hpc⟩, hstep⟩ (by simp [hpc]) hwait hd hurl
    (System.reflTransGen_of_runFrom hrun') hfresh ?_
  exact ⟨d₂, .proceed, b₃, hget₂, hbefore, hstep', d₃, hget₃, hafter⟩

end SingleFlight

end Kagenti.TokenBroker
