import Kagenti.TokenBroker.LongPoll
import Kagenti.TokenBroker.SingleFlight

/-!
The active OAuth transaction of a session object, the sign-in event in its event channel and the
code in its completion channel (`performOAuthFlow` and `CompleteOAuth` of
`internal/core/broker.go`).
-/

namespace Kagenti.TokenBroker

open Lib.Transition Effects SingleFlight
open Isolation (exampleConfig)

namespace SessionVars

def signIn (v : SessionVars) : Option (String × String) :=
  v.activeOAuthTx.map fun tx => (tx.authURL, tx.state)

def signInEvent (v : SessionVars) : Option String :=
  match v.eventWaiters with
  | some e => if e.type = "oauth_url_ready" then some e.authURL else none
  | none => none

end SessionVars

variable {c : AcquireCall}

namespace OAuthCoherence

def Agrees (v v' : SessionVars) : Prop :=
  v'.signIn = v.signIn ∧ (v'.signInEvent = v.signInEvent ∨ v'.signInEvent = none)

inductive FlowMove (c : AcquireCall) (v v' : SessionVars) :
    AcquireMove → AcquirePc → Prop
  | keeps {move : AcquireMove} {pc : AcquirePc} (h : Agrees v v')
      (hbuilding : ∀ f, pc ≠ .building f) (hpublishing : ∀ f url, pc ≠ .publishing f url) :
      FlowMove c v v' move pc
  | generated {s : Session} {endpoints : Endpoints} {codeVerifier : String}
      (hpc : c.pc = .generating s endpoints) (htx : v'.signIn = some ("", ""))
      (hevent : v'.signInEvent = v.signInEvent) :
      FlowMove c v v' (.generated (some codeVerifier))
        (.building ⟨s, endpoints, codeVerifier⟩)
  | built {f : Flow} {authURL nonce : String} (hpc : c.pc = .building f)
      (htx : v'.signIn = v.signIn.map fun _ => (authURL, f.session.sessionKey ++ "." ++ nonce))
      (hevent : v'.signInEvent = v.signInEvent) :
      FlowMove c v v' (.built (some (authURL, nonce))) (.publishing f authURL)
  | published {f : Flow} {authURL : String} (hpc : c.pc = .publishing f authURL)
      (htx : v'.signIn = v.signIn) (hevent : v'.signInEvent = some authURL) :
      FlowMove c v v' .proceed (.waiting f)
  | cleared {f : Flow} {token : String} (hpc : c.pc = .clearing f token)
      (htx : v'.signIn = none) (hevent : v'.signInEvent = v.signInEvent) :
      FlowMove c v v' .proceed (.releasing f.session (.ok token))

section Writes

variable {sh : Shared} {ref : Nat}

theorem vars_setVars (v : SessionVars) : (sh.setVars ref v).vars ref = v :=
  Function.update_self _ _ _

theorem agrees_updateTx (g : OAuthTransaction → OAuthTransaction)
    (h : ∀ tx, (g tx).authURL = tx.authURL ∧ (g tx).state = tx.state) :
    Agrees (sh.vars ref) ((sh.updateTx ref g).vars ref) := by
  rw [Shared.updateTx, vars_setVars]
  refine ⟨?_, .inl rfl⟩
  simp only [SessionVars.signIn, Option.map_map]
  congr 1
  funext tx
  simp [(h tx).1, (h tx).2]

theorem agrees_refl (v : SessionVars) : Agrees v v := ⟨rfl, .inl rfl⟩

end Writes

variable {s : Session} {callbackURL : String} {sh sh' : Shared} {pc : AcquirePc}
  {move : AcquireMove}

theorem flowStep_flowMove (hs : c.pc.holds = some s)
    (h : flowStep callbackURL sh c move = some (sh', pc)) :
    FlowMove c (sh.vars s.ref) (sh'.vars s.ref) move pc := by
  -- the object that a step of the flow writes is the one that the call holds
  have hsame : ∀ {pc₀ : AcquirePc} {s' : Session}, c.pc = pc₀ → pc₀.holds = some s' → s' = s :=
    fun hpc hs' => Option.some.inj (hs'.symm.trans (hpc ▸ hs))
  cases flowStep_sound h with
  | stopped | discovered | exchanged | cached => exact .keeps (agrees_refl _) (by simp) (by simp)
  | failed message hs' =>
    obtain rfl := hsame rfl hs'
    exact .keeps (agrees_updateTx _ fun _ => ⟨rfl, rfl⟩) (by simp) (by simp)
  | generated hpc =>
    obtain rfl := hsame hpc rfl
    refine .generated hpc ?_ ?_ <;> rw [Shared.setTx, vars_setVars] <;> rfl
  | built hpc =>
    obtain rfl := hsame hpc rfl
    refine .built hpc ?_ ?_ <;> rw [Shared.updateTx, vars_setVars]
    · simp only [SessionVars.signIn, Option.map_map]
      rfl
    · rfl
  | published hpc =>
    obtain rfl := hsame hpc rfl
    refine .published hpc ?_ ?_ <;> rw [Shared.setEvent, vars_setVars]
    · rfl
    · simp [SessionVars.signInEvent]
  | refused _ hpc | received hpc =>
    obtain rfl := hsame hpc rfl
    exact .keeps (agrees_updateTx _ fun _ => ⟨rfl, rfl⟩) (by simp) (by simp)
  | completed hpc htx =>
    obtain rfl := hsame hpc rfl
    refine .keeps ⟨?_, .inl ?_⟩ (by simp) (by simp) <;> rw [Shared.setTx, vars_setVars]
    · simp [SessionVars.signIn, htx]
    · rfl
  | cleared hpc =>
    obtain rfl := hsame hpc rfl
    refine .cleared hpc ?_ ?_ <;> rw [Shared.setTx, vars_setVars] <;> rfl
  | released hpc =>
    obtain rfl := hsame hpc rfl
    refine .keeps ⟨?_, .inl ?_⟩ (by simp) (by simp) <;>
      rw [Shared.setTaken, vars_setVars] <;> rfl

theorem acquireStep_flowMove (hs : c.pc.holds = some s)
    (h : acquireStep callbackURL sh c move = some (sh', pc)) :
    FlowMove c (sh.vars s.ref) (sh'.vars s.ref) move pc := by
  revert h
  fun_cases acquireStep with
  | case10 | case11 =>
    rintro ⟨⟩
    exact .keeps (agrees_refl _) (by simp) (by simp)
  | case13 => exact flowStep_flowMove hs
  | _ => simp_all

section Events

-- what the URL that `BuildAuthorizationURL` returns has to do with the state it returns
variable (Carries : String → String → Prop)

def EventOk (v : SessionVars) : Prop :=
  ∀ url, v.signInEvent = some url → ∃ state, v.signIn = some (url, state) ∧ Carries url state

def PcOk (sh : Shared) : AcquirePc → Prop
  | .building f => (sh.vars f.session.ref).signIn ≠ none ∧
      (sh.vars f.session.ref).signInEvent = none
  | .publishing f url =>
    ∃ state, (sh.vars f.session.ref).signIn = some (url, state) ∧ Carries url state
  | _ => True

structure EventsOk (b : Broker) : Prop where
  events : ∀ ref, EventOk Carries (b.shared.vars ref)
  calls : ∀ c ∈ b.acquires, PcOk Carries b.shared c.pc

/-- The session object whose transaction the call is about to clear. -/
def clears : AcquirePc → Option Session
  | .clearing f _ => some f.session
  | _ => none

/-- The condition on runs for events: the transaction of a session object is replaced or
cleared only while no sign-in event for it waits to be delivered. The clause for the
builder is what `BuildAuthorizationURL` does. -/
def EventsDelivered (b : Broker) : BrokerAction → Prop
  | .acquire i (.generated (some _)) =>
    ∀ c ∈ b.acquires[i]?, ∀ s ∈ c.pc.holds, (b.shared.vars s.ref).signInEvent = none
  | .acquire i (.built (some (authURL, nonce))) =>
    ∀ c ∈ b.acquires[i]?, ∀ s ∈ c.pc.holds, Carries authURL (s.sessionKey ++ "." ++ nonce)
  | .acquire i .proceed =>
    ∀ c ∈ b.acquires[i]?, ∀ s ∈ clears c.pc, (b.shared.vars s.ref).signInEvent = none
  | _ => True

variable {Carries} {b : Broker} {v v' : SessionVars}

theorem EventOk.agrees (h : EventOk Carries v) (hv : Agrees v v') : EventOk Carries v' := by
  intro url hurl
  rcases hv.2 with hevent | hnone
  · obtain ⟨state, hstate, hcarries⟩ := h url (hevent ▸ hurl)
    exact ⟨state, hv.1 ▸ hstate, hcarries⟩
  · cases hnone.symm.trans hurl

theorem eventOk_of_none (h : v.signInEvent = none) : EventOk Carries v := by
  intro url hurl
  rw [h] at hurl
  cases hurl

variable {sh sh' : Shared} {pc : AcquirePc}

theorem PcOk.agrees (h : PcOk Carries sh pc)
    (hv : ∀ s, pc.holds = some s → Agrees (sh.vars s.ref) (sh'.vars s.ref)) :
    PcOk Carries sh' pc := by
  cases pc with
  | building f =>
    obtain ⟨htx, hevent⟩ := hv f.session rfl
    refine ⟨htx ▸ h.1, ?_⟩
    rcases hevent with hevent | hevent
    · rw [hevent]
      exact h.2
    · exact hevent
  | publishing f url =>
    obtain ⟨state, hstate, hcarries⟩ := h
    exact ⟨state, (hv f.session rfl).1 ▸ hstate, hcarries⟩
  | _ => trivial

theorem agrees_of_fields (htx : v'.activeOAuthTx = v.activeOAuthTx)
    (hevent : v'.eventWaiters = v.eventWaiters) : Agrees v v' := by
  refine ⟨?_, .inl ?_⟩
  · rw [SessionVars.signIn, htx]
    rfl
  · rw [SessionVars.signInEvent, hevent]
    rfl

theorem agrees_of_passive (h : Passive sh sh') (ref : Nat) :
    Agrees (sh.vars ref) (sh'.vars ref) := by
  constructor
  · rcases h.activeOAuthTx ref with htx | ⟨tx, x, htx, -, htx'⟩
    · rw [SessionVars.signIn, htx]
      rfl
    · simp [SessionVars.signIn, htx, htx']
  · rcases h.eventWaiters ref with hevent | hevent <;> simp [SessionVars.signInEvent, hevent]

theorem EventsOk.withShared (h : EventsOk Carries b) (completes : List CompleteCall)
    (hv : ∀ ref, Agrees (b.shared.vars ref) (sh.vars ref)) :
    EventsOk Carries { shared := sh, acquires := b.acquires, completes := completes } :=
  ⟨fun ref => (h.events ref).agrees (hv ref), fun c hc => (h.calls c hc).agrees fun s _ => hv s.ref⟩

theorem signInEvent_eq_some {url : String} (h : v.signInEvent = some url) :
    ∃ e, v.eventWaiters = some e ∧ e.type = "oauth_url_ready" ∧ e.authURL = url := by
  revert h
  fun_cases SessionVars.signInEvent <;> rintro ⟨⟩
  next e he htype => exact ⟨e, he, htype, rfl⟩

theorem signInEvent_of_event {e : Event} (h : v.eventWaiters = some e)
    (htype : e.type = "oauth_url_ready") : v.signInEvent = some e.authURL := by
  simp [SessionVars.signInEvent, h, htype]

theorem EventsOk.sessionOp (hb : Exclusive b) (h : EventsOk Carries b) {sm : SessionManager}
    (heff : OpEffect b.shared.sessions sm) : EventsOk Carries (b.withSessions sm) := by
  have hevents : ∀ ref url, (sm.vars ref).signInEvent = some url →
      (b.shared.vars ref).signInEvent = some url ∧
        (sm.vars ref).activeOAuthTx = (b.shared.vars ref).activeOAuthTx := by
    intro ref url hurl
    obtain ⟨e, he, htype, rfl⟩ := signInEvent_eq_some hurl
    obtain ⟨he', htx⟩ := heff.eventWaiters ref e he htype
    exact ⟨signInEvent_of_event he' htype, htx⟩
  constructor
  · intro ref url hurl
    obtain ⟨hold, htx⟩ := hevents ref url hurl
    obtain ⟨state, hstate, hcarries⟩ := h.events ref url hold
    refine ⟨state, ?_, hcarries⟩
    change (sm.vars ref).activeOAuthTx.map _ = _
    rw [htx]
    exact hstate
  · intro c hc
    refine (h.calls c hc).agrees fun s hs => ?_
    obtain ⟨i, hget⟩ := List.mem_iff_getElem?.mp hc
    obtain ⟨-, hlt⟩ := hb.known i c s hget (AcquirePc.session_of_holds hs)
    refine ⟨?_, ?_⟩
    · have htx := heff.activeOAuthTx_of_lt hlt
      exact congrArg (Option.map _) htx
    · cases hurl : (sm.vars s.ref).signInEvent with
      | none => exact .inr hurl
      | some url =>
        obtain ⟨hold, -⟩ := hevents s.ref url hurl
        exact .inl (hurl.trans hold.symm)

variable {cfg : BrokerConfig} {i : Nat} {c : AcquireCall} {move : AcquireMove}

theorem own_eventOk (h : EventsOk Carries b) (hget : b.acquires[i]? = some c)
    (hs : c.pc.holds = some s) (hguard : EventsDelivered Carries b (.acquire i move))
    (hcall : acquireStep cfg.callbackURL b.shared c move = some (sh, pc)) :
    EventOk Carries (sh.vars s.ref) ∧ PcOk Carries sh pc := by
  have hold := h.events s.ref
  have hpcOk := h.calls c (List.mem_of_getElem? hget)
  cases acquireStep_flowMove hs hcall with
  | keeps hagrees hbuilding hpublishing =>
    refine ⟨hold.agrees hagrees, ?_⟩
    cases pc with
    | building f => exact absurd rfl (hbuilding f)
    | publishing f url => exact absurd rfl (hpublishing f url)
    | _ => trivial
  | @generated s' endpoints codeVerifier hpc htx hevent =>
    obtain rfl : s' = s := by simpa [hpc] using hs
    have hnone := hguard c hget s' hs
    rw [← hevent] at hnone
    exact ⟨eventOk_of_none hnone, by rw [htx]; simp, hnone⟩
  | @built f authURL nonce hpc htx hevent =>
    obtain rfl : f.session = s := by simpa [hpc] using hs
    have hcarries := hguard c hget f.session hs
    rw [hpc] at hpcOk
    obtain ⟨hsome, hnone⟩ := hpcOk
    rw [← hevent] at hnone
    obtain ⟨old, hsome⟩ := Option.ne_none_iff_exists'.mp hsome
    rw [hsome] at htx
    exact ⟨eventOk_of_none hnone, _, htx, hcarries⟩
  | @published f authURL hpc htx hevent =>
    obtain rfl : f.session = s := by simpa [hpc] using hs
    rw [hpc] at hpcOk
    obtain ⟨state, hstate, hcarries⟩ := hpcOk
    refine ⟨?_, trivial⟩
    intro url hurl
    rw [hevent] at hurl
    obtain rfl : authURL = url := Option.some.inj hurl
    exact ⟨state, htx.trans hstate, hcarries⟩
  | @cleared f token hpc htx hevent =>
    obtain rfl : f.session = s := by simpa [hpc] using hs
    have hnone := hguard c hget f.session (by rw [hpc]; rfl)
    exact ⟨eventOk_of_none (hevent.trans hnone), trivial⟩

theorem EventsOk.acquire (hb : Exclusive b) (h : EventsOk Carries b)
    (hget : b.acquires[i]? = some c) (hguard : EventsDelivered Carries b (.acquire i move))
    (hcall : acquireStep cfg.callbackURL b.shared c move = some (sh, pc)) : EventsOk Carries
      { b with shared := sh, acquires := b.acquires.set i { c with pc := pc } } := by
  have heff := acquireStep_effect hcall
  have hother : ∀ ref, (∀ s, c.pc.holds = some s → s.ref ≠ ref) →
      Agrees (b.shared.vars ref) (sh.vars ref) := by
    intro ref href
    exact agrees_of_fields (heff.frame ref href).1 (heff.frame ref href).2
  constructor
  · intro ref
    by_cases hown : ∀ s, c.pc.holds = some s → s.ref ≠ ref
    · exact (h.events ref).agrees (hother ref hown)
    · push Not at hown
      obtain ⟨s, hs, rfl⟩ := hown
      exact (own_eventOk h hget hs hguard hcall).1
  · intro d hd
    obtain ⟨j, hj⟩ := List.mem_iff_getElem?.mp hd
    rcases getElem?_set_cases hj with ⟨-, rfl⟩ | ⟨hne, hj⟩
    · cases hs : c.pc.holds with
      | some s => exact (own_eventOk h hget hs hguard hcall).2
      | none =>
        -- a call that holds nothing takes the semaphore at most
        rcases heff.semaphore with ⟨hholds, -⟩ | ⟨s, -, rfl, -⟩ | ⟨s, hs', -⟩
        · rw [hs] at hholds
          cases pc <;> trivial
        · trivial
        · rw [hs] at hs'
          cases hs'
    · refine (h.calls d (List.mem_of_getElem? hj)).agrees fun s' hs' => ?_
      exact hother s'.ref fun s hs heq => hne (hb.alone j i d c s' s hj hget hs' hs heq.symm)

theorem eventsOk_step {b' : Broker} (hb : Exclusive b) (h : EventsOk Carries b)
    (action : BrokerAction) (hguard : EventsDelivered Carries b action)
    (hstep : Broker.step cfg b action = some b') : EventsOk Carries b' := by
  cases step_effect hstep with
  | session heff => exact h.sessionOp hb heff
  | acquireToken sessionKey userID resourceURL =>
    exact ⟨h.events, List.forall_mem_append.mpr
      ⟨h.calls, List.forall_mem_singleton.mpr trivial⟩⟩
  | acquire hget hcall => exact h.acquire hb hget hguard hcall
  | passive completes hpassive =>
    exact h.withShared completes fun ref => agrees_of_passive hpassive ref

theorem eventsOk_init : EventsOk Carries Broker.init :=
  ⟨fun _ => eventOk_of_none rfl, fun _ hc => by cases hc⟩

end Events

section Codes

def waitsOn : AcquirePc → Option Session
  | .waiting f => some f.session
  | _ => none

def publishes : AcquirePc → Option Session
  | .publishing f _ => some f.session
  | _ => none

/-- The session object of a flow that has stored its transaction and does not wait for a code: its
URL is not out yet, or it has its code. -/
def busyOn : AcquirePc → Option Session
  | .building f | .publishing f _ | .exchanging f _ | .completing f _ | .caching f _
  | .clearing f _ => some f.session
  | _ => none

def stores : AcquirePc → Option Session
  | .waiting f => some f.session
  | pc => busyOn pc

def sendsTo : CompletePc → Option Session
  | .sending s => some s
  | _ => none

/-- A flow that has stored its transaction does not fail. -/
def Succeeds (sh : Shared) (c : AcquireCall) : AcquireMove → Prop
  | .built none | .timeout | .sessionDone | .exchanged none => False
  | .cancelled => c.pc.holds = none
  | .proceed => ∀ s ∈ publishes c.pc, (sh.vars s.ref).eventWaiters = none
  | .completion => ∀ s ∈ waitsOn c.pc, ∀ x ∈ sh.completion s.ref, x.error = none
  | _ => True

/-- The condition on runs for codes: no flow fails that has stored its transaction, and no code is
sent before the flow's URL is out or after the flow has a code. -/
def FlowsSucceed (b : Broker) : BrokerAction → Prop
  | .acquire i move => ∀ c ∈ b.acquires[i]?, Succeeds b.shared c move
  | .complete k => ∀ c ∈ b.completes[k]?, ∀ s ∈ sendsTo c.pc, ∀ d ∈ b.acquires,
      (busyOn d.pc).map Session.ref ≠ some s.ref
  | _ => True

/-- Each transaction belongs to a flow that has stored it. -/
def TxOwned (b : Broker) : Prop :=
  ∀ ref, (b.shared.vars ref).activeOAuthTx ≠ none →
    ∃ c ∈ b.acquires, (stores c.pc).map Session.ref = some ref

section Owner

variable {s : Session} {callbackURL : String} {sh sh' : Shared} {c : AcquireCall} {pc : AcquirePc}
  {move : AcquireMove}

theorem holds_of_stores (h : stores pc = some s) : pc.holds = some s := by
  cases pc <;> first | exact h | cases h

theorem stores_flowStep (hs : c.pc.holds = some s)
    (hown : (sh.vars s.ref).activeOAuthTx ≠ none → stores c.pc = some s)
    (hguard : Succeeds sh c move) (h : flowStep callbackURL sh c move = some (sh', pc))
    (htx : (sh'.vars s.ref).activeOAuthTx ≠ none) : stores pc = some s := by
  revert h
  fun_cases flowStep <;> intro h <;> try cases h
  case case10 hpc completion hcompletion shared error herror =>
    have hnone := hguard _ (by rw [hpc]; rfl) completion hcompletion
    rw [herror] at hnone
    cases hnone
  case case11 hpc completion hcompletion shared herror =>
    obtain ⟨rfl, rfl⟩ := Prod.mk.inj (Option.some.inj h)
    rw [hpc] at hs
    exact hs
  case case24 f authURL hpc e hfull =>
    have hfree := hguard f.session (by rw [hpc]; rfl)
    rw [hfull] at hfree
    cases hfree
  case case26 hpc hnone =>
    rw [hpc] at hs
    cases hs
    exact absurd hnone htx
  case case28 hpc =>
    rw [hpc] at hs
    cases hs
    rw [Shared.setTx, vars_setVars] at htx
    exact absurd rfl htx
  case case29 hpc =>
    rw [(setTaken_frame sh _ s.ref false).1] at htx
    have hstores := hown htx
    rw [hpc] at hstores
    cases hstores
  case case4 hpc | case7 hpc | case20 hpc _ | case23 hpc _ | case25 hpc _ _ | case27 hpc =>
    rw [hpc] at hs
    exact hs
  case case31 | case32 => cases hs.symm.trans hguard
  case case1 hpc | case2 hpc | case5 hpc =>
    have hstores := hown htx
    rw [hpc] at hstores
    cases hstores
  all_goals exact hguard.elim

theorem stores_acquireStep (hs : c.pc.holds = some s)
    (hown : (sh.vars s.ref).activeOAuthTx ≠ none → stores c.pc = some s)
    (hguard : Succeeds sh c move) (h : acquireStep callbackURL sh c move = some (sh', pc))
    (htx : (sh'.vars s.ref).activeOAuthTx ≠ none) : stores pc = some s := by
  revert h
  fun_cases acquireStep with
  | case10 s hpc | case11 s hpc =>
    rintro ⟨⟩
    have hstores := hown htx
    rw [hpc] at hstores
    cases hstores
  | case13 => exact fun h => stores_flowStep hs hown hguard h htx
  | _ => simp_all

variable {b : Broker} {cfg : BrokerConfig} {i : Nat}

theorem TxOwned.own (h : TxOwned b) (hb : Exclusive b) (hget : b.acquires[i]? = some c)
    (hs : c.pc.holds = some s) (htx : (b.shared.vars s.ref).activeOAuthTx ≠ none) :
    stores c.pc = some s := by
  obtain ⟨d, hd, hstores⟩ := h s.ref htx
  obtain ⟨s', hs', href⟩ := Option.map_eq_some_iff.mp hstores
  obtain ⟨j, hj⟩ := List.mem_iff_getElem?.mp hd
  have hholds := holds_of_stores hs'
  obtain rfl := hb.alone i j c d s s' hget hj hs hholds href.symm
  cases hget.symm.trans hj
  cases hs.symm.trans hholds
  exact hs'

theorem TxOwned.acquire (h : TxOwned b) (hb : Exclusive b) (hget : b.acquires[i]? = some c)
    (hguard : Succeeds b.shared c move)
    (hcall : acquireStep cfg.callbackURL b.shared c move = some (sh, pc)) :
    TxOwned { b with shared := sh, acquires := b.acquires.set i { c with pc := pc } } := by
  intro ref htx
  by_cases hown : ∃ s, c.pc.holds = some s ∧ s.ref = ref
  · obtain ⟨s, hs, rfl⟩ := hown
    have hlt : i < b.acquires.length := (List.getElem?_eq_some_iff.mp hget).1
    refine ⟨_, List.mem_set hlt _, ?_⟩
    rw [stores_acquireStep hs (h.own hb hget hs) hguard hcall htx]
    rfl
  · have frame := (acquireStep_effect hcall).frame ref fun s hs href => hown ⟨s, hs, href⟩
    obtain ⟨d, hd, hstores⟩ := h ref (frame.1 ▸ htx)
    obtain ⟨j, hj⟩ := List.mem_iff_getElem?.mp hd
    refine ⟨d, List.mem_iff_getElem?.mpr ⟨j, ?_⟩, hstores⟩
    rw [List.getElem?_set_ne, hj]
    rintro rfl
    cases hget.symm.trans hj
    obtain ⟨s, hs, href⟩ := Option.map_eq_some_iff.mp hstores
    exact hown ⟨s, holds_of_stores hs, href⟩

theorem txOwned_step {b' : Broker} (hb : Exclusive b) (h : TxOwned b) (action : BrokerAction)
    (hguard : FlowsSucceed b action) (hstep : Broker.step cfg b action = some b') : TxOwned b' := by
  cases step_effect hstep with
  | session heff =>
    intro ref htx
    rcases heff.activeOAuthTx ref with same | ⟨-, none⟩
    · exact h ref fun before => htx (same.trans before)
    · exact absurd none htx
  | acquireToken sessionKey userID resourceURL =>
    intro ref htx
    obtain ⟨c, hc, hstores⟩ := h ref htx
    exact ⟨c, List.mem_append_left _ hc, hstores⟩
  | acquire hget hcall => exact h.acquire hb hget (hguard _ hget) hcall
  | passive completes hpassive =>
    intro ref htx
    rcases hpassive.activeOAuthTx ref with same | ⟨tx, x, before, -⟩
    · exact h ref fun before => htx (same.trans before)
    · exact h ref (by simp [before])

end Owner

/-- The flow waits, and a code is there for it. -/
def WaitsWith (b : Broker) (i : Nat) (f : Flow) (x : OAuthCompletion) : Prop :=
  (∃ c, b.acquires[i]? = some c ∧ c.pc = .waiting f) ∧ b.shared.completion f.session.ref = some x

/-- The call has received the code and goes on with it. -/
def Received (b : Broker) (i : Nat) (f : Flow) (code : String) : Prop :=
  ∃ c, b.acquires[i]? = some c ∧ c.pc = .exchanging f code

variable {b : Broker} {i : Nat} {f : Flow} {x : OAuthCompletion} {sh : Shared}

theorem WaitsWith.withShared (h : WaitsWith b i f x) (completes : List CompleteCall)
    (htx : (sh.vars f.session.ref).activeOAuthTx = (b.shared.vars f.session.ref).activeOAuthTx) :
    WaitsWith { shared := sh, acquires := b.acquires, completes := completes } i f x := by
  refine ⟨h.1, ?_⟩
  rw [Shared.completion, htx]
  exact h.2

theorem WaitsWith.acquire {cfg : BrokerConfig} (hb : Exclusive b) (h : WaitsWith b i f x)
    (herror : x.error = none) {j : Nat} {move : AcquireMove} {pc : AcquirePc}
    (hget : b.acquires[j]? = some c) (hguard : FlowsSucceed b (.acquire j move))
    (hcall : acquireStep cfg.callbackURL b.shared c move = some (sh, pc)) :
    WaitsWith { b with shared := sh, acquires := b.acquires.set j { c with pc := pc } } i f x ∨
      j = i ∧ move = .completion ∧
      Received { b with shared := sh, acquires := b.acquires.set j { c with pc := pc } }
        i f x.code := by
  obtain ⟨⟨d, hd, hwait⟩, hcode⟩ := h
  by_cases hij : j = i
  · subst hij
    obtain rfl : d = c := Option.some.inj (hd.symm.trans hget)
    have hlt : j < b.acquires.length := (List.getElem?_eq_some_iff.mp hget).1
    cases move with
    | completion =>
      simp only [acquireStep, flowStep, hwait, hcode, herror, Option.some.injEq,
        Prod.mk.injEq] at hcall
      obtain ⟨rfl, rfl⟩ := hcall
      refine .inr ⟨rfl, rfl, { d with pc := .exchanging f x.code }, ?_, rfl⟩
      exact List.getElem?_set_self hlt
    | timeout | sessionDone => exact (hguard d hget).elim
    | cancelled =>
      have hnone : d.pc.holds = none := hguard d hget
      rw [hwait] at hnone
      cases hnone
    | _ => simp [acquireStep, flowStep, hwait] at hcall
  · left
    have heff := acquireStep_effect hcall
    have hapart : ∀ s, c.pc.holds = some s → s.ref ≠ f.session.ref := by
      intro s hs heq
      exact hij (hb.alone j i c d s f.session hget hd hs (by simp [hwait]) heq)
    refine ⟨⟨d, ?_, hwait⟩, ?_⟩
    · rw [List.getElem?_set_ne hij]
      exact hd
    · rw [Shared.completion, (heff.frame f.session.ref hapart).1]
      exact hcode

/-- A code that waits for its flow stays until the flow takes it. -/
theorem waitsWith_step {cfg : BrokerConfig} {b' : Broker} (hb : Exclusive b)
    (h : WaitsWith b i f x) (herror : x.error = none) (action : BrokerAction)
    (hguard : FlowsSucceed b action) (hstep : Broker.step cfg b action = some b') :
    WaitsWith b' i f x ∨ action = .acquire i .completion ∧ Received b' i f x.code := by
  obtain ⟨d, hd, hwait⟩ := h.1
  cases step_effect hstep with
  | session heff =>
    obtain ⟨-, hlt⟩ := hb.known i d f.session hd (by simp [hwait])
    exact .inl (h.withShared _ (heff.activeOAuthTx_of_lt hlt))
  | acquireToken sessionKey userID resourceURL =>
    have hlt : i < b.acquires.length := (List.getElem?_eq_some_iff.mp hd).1
    refine .inl ⟨⟨d, ?_, hwait⟩, h.2⟩
    rw [List.getElem?_append_left hlt]
    exact hd
  | acquire hget hcall =>
    rcases h.acquire hb herror hget hguard hcall with hkept | ⟨rfl, rfl, hreceived⟩
    · exact .inl hkept
    · exact .inr ⟨rfl, hreceived⟩
  | passive completes hpassive =>
    refine .inl (h.withShared completes ?_)
    rcases hpassive.activeOAuthTx f.session.ref with htx | ⟨tx, y, htx, hfree, -⟩
    · exact htx
    · -- the channel of the flow's transaction is full, so a code went elsewhere
      have hcode := h.2
      rw [Shared.completion, htx] at hcode
      simp [hfree] at hcode

end Codes

def Delivers (cfg : BrokerConfig) (a : Api) (s : Session) (e : Event) : Prop :=
  ∃ i c a' c', a.polls[i]? = some c ∧ c.pc = .waiting s ∧
    Api.step cfg a (.poll i .event) = some a' ∧ a'.polls[i]? = some c' ∧
    c'.pc = .starting s (.event e)

/-- The step from `a` to `a₁` in which `CompleteOAuth` sends its code to the session `s` and
returns without an error. -/
def ReturnsNil (cfg : BrokerConfig) (a : Api) (k : Nat) (c : CompleteCall) (s : Session)
    (a₁ : Api) : Prop :=
  a.broker.completes[k]? = some c ∧ c.pc = .sending s ∧
    Api.step cfg a (.broker (.complete k)) = some a₁ ∧
    ∃ c₁, a₁.broker.completes[k]? = some c₁ ∧ c₁.pc = .returned (.ok ())

variable {a : Api} {cfg : BrokerConfig} {e : Event}

theorem event_of_delivers (h : Delivers cfg a s e) :
    (a.broker.shared.vars s.ref).eventWaiters = some e := by
  obtain ⟨i, c, a', c', hget, hpc, hstep, hget', hpc'⟩ := h
  obtain ⟨d, sh, pc, hd, hcall, rfl⟩ := poll_step hstep
  obtain rfl : c = d := Option.some.inj (hget.symm.trans hd)
  rcases getElem?_set_cases hget' with ⟨-, rfl⟩ | ⟨hne, -⟩
  · simp only [pollStep, hpc] at hcall
    split at hcall
    next event hevent => grind
    · cases hcall
  · exact absurd rfl hne

variable {a₁ : Api} {k : Nat} {c : CompleteCall}

theorem waitsWith_of_returnsNil (howned : TxOwned a.broker) (h : ReturnsNil cfg a k c s a₁)
    (hguard : FlowsSucceed a.broker (.complete k)) : ∃ i f, f.session.ref = s.ref ∧
      (∃ d, a.broker.acquires[i]? = some d ∧ d.pc = .waiting f) ∧
      WaitsWith a₁.broker i f ⟨c.code, c.state, none⟩ := by
  obtain ⟨hget, hpc, hstep, c₁, hget₁, hpc₁⟩ := h
  simp only [Api.step, Api.ownAction, Bool.false_eq_true, if_false, Option.map_eq_some_iff] at hstep
  obtain ⟨b, hbroker, rfl⟩ := hstep
  obtain ⟨c', sh, pc, hget', hcall, rfl⟩ := complete_step hbroker
  obtain rfl : c = c' := Option.some.inj (hget.symm.trans hget')
  have hdone : pc = .returned (.ok ()) := by grind
  subst hdone
  revert hcall
  fun_cases completeStep <;> rintro ⟨⟩
  next s' hpc' tx htx hfree =>
    cases hpc'.symm.trans hpc
    obtain ⟨d, hd, hstores⟩ := howned s.ref (by simp [htx])
    have hidle := hguard c hget s (by rw [hpc]; rfl) d hd
    obtain ⟨i, hi⟩ := List.mem_iff_getElem?.mp hd
    cases hdpc : d.pc with
    | waiting f =>
      rw [hdpc] at hstores
      have href : f.session.ref = s.ref := Option.some.inj hstores
      refine ⟨i, f, href, ⟨d, hi, hdpc⟩, ⟨d, hi, hdpc⟩, ?_⟩
      rw [Shared.completion, href, Shared.setTx, vars_setVars]
      rfl
    | _ =>
      rw [hdpc] at hstores hidle
      exact absurd hstores hidle

theorem exclusive_api {G : Api → ApiAction → Prop} (h : (Api.system cfg).Reachable G a) :
    Exclusive a.broker := by
  refine h.invariant (I := fun a => Exclusive a.broker) exclusive_init ?_
  intro a action a' ha _ hstep
  rcases api_step_broker hstep with hsame | ⟨act, hbroker, -⟩
  · exact hsame ▸ ha
  · exact exclusive_step ha act hbroker

/-- In a run from `a₁` to `a₂`, the flow receives the code that waits for it. -/
def Consumed (cfg : BrokerConfig) (a₁ a₂ : Api) (i : Nat) (f : Flow) (x : OAuthCompletion) :
    Prop :=
  ∃ a' a'', Relation.ReflTransGen ((Api.system cfg).Next (Api.lift FlowsSucceed)) a₁ a' ∧
    WaitsWith a'.broker i f x ∧
    Api.step cfg a' (.broker (.acquire i .completion)) = some a'' ∧
    Received a''.broker i f x.code ∧
    Relation.ReflTransGen ((Api.system cfg).Next (Api.lift FlowsSucceed)) a'' a₂

variable {i : Nat}

theorem waitsWith_run {a₂ : Api} {f : Flow} {x : OAuthCompletion}
    (hb : (Api.system cfg).Reachable (Api.lift FlowsSucceed) a₁) (h : WaitsWith a₁.broker i f x)
    (herror : x.error = none)
    (hrun : Relation.ReflTransGen ((Api.system cfg).Next (Api.lift FlowsSucceed)) a₁ a₂) :
    WaitsWith a₂.broker i f x ∨ Consumed cfg a₁ a₂ i f x := by
  induction hrun with
  | refl => exact .inl h
  | @tail a a' hreached hnext ih =>
    rcases ih with hwaits | ⟨p, q, hp, hwp, hstep, hreceived, hq⟩
    · have hexcl := exclusive_api (hb.trans hreached)
      obtain ⟨action, hguard, hstep⟩ := hnext
      rcases api_step_broker hstep with hsame | ⟨act, hbroker, haction⟩
      · exact .inl (hsame ▸ hwaits)
      · have hact : FlowsSucceed a.broker act := by
          rcases haction with rfl | hown
          · exact hguard
          · unfold Api.ownAction at hown
            split at hown <;> trivial
        rcases waitsWith_step hexcl hwaits herror act hact hbroker with
          hkept | ⟨rfl, hreceived⟩
        · exact .inl hkept
        · rcases haction with rfl | hown
          · exact .inr ⟨a, a', hreached, hwaits, hstep, hreceived, .refl⟩
          · cases hown
    · exact .inr ⟨p, q, hp, hwp, hstep, hreceived, hq.tail hnext⟩

/-- Sign-in events and codes. In every run that replaces or clears a transaction only when
no sign-in event for it is undelivered, an `oauth_url_ready` event is delivered while the
session's active transaction has its URL and the state that this URL carries. In every run
in which no flow fails after it has stored its transaction, and no code is sent before the flow's
URL is out or after it has a code, a `CompleteOAuth` that returns nil found a flow waiting on that
transaction, and the code stays there for this flow until the flow receives it. -/
theorem oauth_coherence (cfg : BrokerConfig) (Carries : String → String → Prop) :
    (∀ (a : Api) (s : Session) (e : Event),
      (Api.system cfg).Reachable (Api.lift (EventsDelivered Carries)) a →
      Delivers cfg a s e → e.type = "oauth_url_ready" →
      ∃ tx, (a.broker.shared.vars s.ref).activeOAuthTx = some tx ∧
        e.authURL = tx.authURL ∧ Carries e.authURL tx.state) ∧
    (∀ (a a₁ : Api) (k : Nat) (c : CompleteCall) (s : Session),
      (Api.system cfg).Reachable (Api.lift FlowsSucceed) a →
      FlowsSucceed a.broker (.complete k) → ReturnsNil cfg a k c s a₁ →
      ∃ i f, f.session.ref = s.ref ∧
        (∃ d, a.broker.acquires[i]? = some d ∧ d.pc = .waiting f) ∧
        ∀ a₂, Relation.ReflTransGen ((Api.system cfg).Next (Api.lift FlowsSucceed)) a₁ a₂ →
          WaitsWith a₂.broker i f ⟨c.code, c.state, none⟩ ∨
            Consumed cfg a₁ a₂ i f ⟨c.code, c.state, none⟩) := by
  constructor
  · intro a s e h hdelivers htype
    have hok : Exclusive a.broker ∧ EventsOk Carries a.broker := by
      refine Api.invariant_broker (G := EventsDelivered Carries)
        (I := fun b => Exclusive b ∧ EventsOk Carries b) ⟨exclusive_init, eventsOk_init⟩ ?_ ?_ h
      · intro b act b' hb hguard hstep
        exact ⟨exclusive_step hb.1 act hstep, eventsOk_step hb.1 hb.2 act hguard hstep⟩
      · intro b act hown
        unfold Api.ownAction at hown
        split at hown <;> trivial
    have hevent := signInEvent_of_event (event_of_delivers hdelivers) htype
    obtain ⟨state, hsignIn, hcarries⟩ := hok.2.events s.ref e.authURL hevent
    rw [SessionVars.signIn, Option.map_eq_some_iff] at hsignIn
    obtain ⟨tx, htx, hpair⟩ := hsignIn
    simp only [Prod.mk.injEq] at hpair
    exact ⟨tx, htx, hpair.1.symm, hpair.2 ▸ hcarries⟩
  · intro a a₁ k c s h hguard hreturns
    have hok : Exclusive a.broker ∧ TxOwned a.broker := by
      refine Api.invariant_broker (G := FlowsSucceed) (I := fun b => Exclusive b ∧ TxOwned b)
        ⟨exclusive_init, fun _ htx => absurd rfl htx⟩ ?_ ?_ h
      · intro b act b' hb hguard hstep
        exact ⟨exclusive_step hb.1 act hstep, txOwned_step hb.1 hb.2 act hguard hstep⟩
      · intro b act hown
        unfold Api.ownAction at hown
        split at hown <;> trivial
    obtain ⟨i, f, href, hwaiting, hwaits⟩ := waitsWith_of_returnsNil hok.2 hreturns hguard
    have hnext : (Api.system cfg).Next (Api.lift FlowsSucceed) a a₁ :=
      ⟨.broker (.complete k), hguard, hreturns.2.2.1⟩
    exact ⟨i, f, href, hwaiting, fun a₂ hrun => waitsWith_run (h.tail hnext) hwaits rfl hrun⟩

instance (sh : Shared) (c : AcquireCall) : DecidablePred (Succeeds sh c) := by
  intro move
  unfold Succeeds
  split <;> infer_instance

instance (b : Broker) : DecidablePred (FlowsSucceed b) := by
  intro action
  unfold FlowsSucceed
  split <;> infer_instance

instance (Carries : String → String → Prop) [∀ url, DecidablePred (Carries url)] (b : Broker) :
    DecidablePred (EventsDelivered Carries b) := by
  intro action
  unfold EventsDelivered
  split <;> infer_instance

/-- The actions that take call `i` from its start to the point where it publishes its URL. -/
def signInActions (i : Nat) (nonce : String) : List BrokerAction :=
  waitActions i "alice" ++
    [.acquire i .proceed, .acquire i .proceed,
      .acquire i (.discovered (some ⟨"https://as/auth", "https://as/token", []⟩)),
      .acquire i (.generated (some "verifier")),
      .acquire i (.built (some ("https://as/auth?state=s1." ++ nonce, nonce)))]

def publishedRun : List ApiAction :=
  [.broker (.session (.createSession 0 "s1" "alice" ""))] ++
    (signInActions 0 "n").map .broker ++ [.broker (.acquire 0 .proceed)]

def pollActions : List ApiAction :=
  [.longPoll "s1" "alice", .poll 0 .proceed, .poll 0 .proceed, .poll 0 .proceed]

/-- A `CompleteOAuth` call up to the point where it sends its code. -/
def completeActions : List ApiAction :=
  [.broker (.completeOAuth "s1" "alice" "code" "s1.n"), .broker (.complete 0),
    .broker (.complete 0), .broker (.complete 0)]

def StateParam (url state : String) : Prop := url = "https://as/auth?state=" ++ state

instance (url : String) : DecidablePred (StateParam url) :=
  fun _ => inferInstanceAs (Decidable (_ = _))

def aliceSession : Session := ⟨0, "s1", "alice", "", 0⟩

def readyEvent : Event := ⟨"oauth_url_ready", "https://as/auth?state=s1.n", "", ""⟩

/-- A sign-in: the poll delivers the URL of the active transaction, and the callback that returns
nil reaches the flow of its session. -/
theorem oauth_coherence_signIn :
    (∃ a s e tx, (Api.system exampleConfig).run
        (Api.lift (EventsDelivered StateParam)) (publishedRun ++ pollActions) = some a ∧
      Delivers exampleConfig a s e ∧ e.type = "oauth_url_ready" ∧
      (a.broker.shared.vars s.ref).activeOAuthTx = some tx ∧ e.authURL = tx.authURL ∧
      StateParam e.authURL tx.state) ∧
    (∃ a a₁ c s i f, (Api.system exampleConfig).run
        (Api.lift FlowsSucceed) (publishedRun ++ completeActions) = some a ∧
      ReturnsNil exampleConfig a 0 c s a₁ ∧ f.session.ref = s.ref ∧
      (WaitsWith a₁.broker i f ⟨c.code, c.state, none⟩ ∨
        Consumed exampleConfig a₁ a₁ i f ⟨c.code, c.state, none⟩)) := by
  obtain ⟨hevents, hcodes⟩ := oauth_coherence exampleConfig StateParam
  constructor
  · obtain ⟨a, hrun, c, hget, hpc, a', hstep, c', hget', hpc'⟩ :
        ∃ a ∈ (Api.system exampleConfig).run (Api.lift (EventsDelivered StateParam))
          (publishedRun ++ pollActions),
        ∃ c ∈ a.polls[0]?, c.pc = .waiting aliceSession ∧
        ∃ a' ∈ Api.step exampleConfig a (.poll 0 .event),
        ∃ c' ∈ a'.polls[0]?, c'.pc = .starting aliceSession (.event readyEvent) := by
      decide +kernel
    have hdelivers : Delivers exampleConfig a aliceSession readyEvent :=
      ⟨0, c, a', c', hget, hpc, hstep, hget', hpc'⟩
    obtain ⟨tx, htx, hurl, hstate⟩ :=
      hevents a _ _ (System.reachable_of_run _ hrun) hdelivers rfl
    exact ⟨a, _, _, tx, hrun, hdelivers, rfl, htx, hurl, hstate⟩
  · obtain ⟨a, hrun, hguard, c, hget, hpc, a₁, hstep, hdone⟩ :
        ∃ a ∈ (Api.system exampleConfig).run (Api.lift FlowsSucceed)
          (publishedRun ++ completeActions), FlowsSucceed a.broker (.complete 0) ∧
        ∃ c ∈ a.broker.completes[0]?, c.pc = .sending aliceSession ∧
        ∃ a₁ ∈ Api.step exampleConfig a (.broker (.complete 0)),
        ∃ c₁ ∈ a₁.broker.completes[0]?, c₁.pc = .returned (.ok ()) := by
      decide +kernel
    obtain ⟨i, f, href, -, hlater⟩ :=
      hcodes a a₁ 0 c _ (System.reachable_of_run _ hrun) hguard ⟨hget, hpc, hstep, hdone⟩
    exact ⟨a, a₁, c, _, i, f, hrun, ⟨hget, hpc, hstep, hdone⟩, href, hlater a₁ .refl⟩

def abandonedEventRun : List ApiAction :=
  publishedRun ++ [.broker (.acquire 0 .timeout), .broker (.acquire 0 .proceed)] ++
    (signInActions 1 "m").map .broker ++ pollActions

def lateCodeRun : List ApiAction :=
  publishedRun ++ [.broker (.acquire 0 .timeout), .broker (.acquire 0 .proceed)] ++ completeActions

/-- An event is delivered whose URL is not the one of the active transaction, and
`CompleteOAuth` returns nil while no call waits for a code. -/
theorem stale_event_and_lost_code :
    (∃ a s e tx, (Api.system exampleConfig).Reachable System.anyAction a ∧
      Delivers exampleConfig a s e ∧ e.type = "oauth_url_ready" ∧
      (a.broker.shared.vars s.ref).activeOAuthTx = some tx ∧ e.authURL ≠ tx.authURL) ∧
    (∃ a a₁ c s, (Api.system exampleConfig).Reachable System.anyAction a ∧
      ReturnsNil exampleConfig a 0 c s a₁ ∧
      ∀ d ∈ a.broker.acquires, waitsOn d.pc = none) := by
  constructor
  · obtain ⟨a, hrun, tx, htx, hne, c, hget, hpc, a', hstep, c', hget', hpc'⟩ :
        ∃ a ∈ (Api.system exampleConfig).run System.anyAction abandonedEventRun,
        ∃ tx ∈ (a.broker.shared.vars aliceSession.ref).activeOAuthTx,
          readyEvent.authURL ≠ tx.authURL ∧
        ∃ c ∈ a.polls[0]?, c.pc = .waiting aliceSession ∧
        ∃ a' ∈ Api.step exampleConfig a (.poll 0 .event),
        ∃ c' ∈ a'.polls[0]?, c'.pc = .starting aliceSession (.event readyEvent) := by
      decide +kernel
    exact ⟨a, _, _, tx, System.reachable_of_run _ hrun,
      ⟨0, c, a', c', hget, hpc, hstep, hget', hpc'⟩, rfl, htx, hne⟩
  · obtain ⟨a, hrun, hnone, c, hget, hpc, a₁, hstep, hdone⟩ :
        ∃ a ∈ (Api.system exampleConfig).run System.anyAction lateCodeRun,
          (∀ d ∈ a.broker.acquires, waitsOn d.pc = none) ∧
        ∃ c ∈ a.broker.completes[0]?, c.pc = .sending aliceSession ∧
        ∃ a₁ ∈ Api.step exampleConfig a (.broker (.complete 0)),
        ∃ c₁ ∈ a₁.broker.completes[0]?, c₁.pc = .returned (.ok ()) := by
      decide +kernel
    exact ⟨a, a₁, c, _, System.reachable_of_run _ hrun, ⟨hget, hpc, hstep, hdone⟩, hnone⟩

end OAuthCoherence

end Kagenti.TokenBroker
