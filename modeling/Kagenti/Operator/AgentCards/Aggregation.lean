import Kagenti.Lib.Transition
import Kagenti.Operator.AgentCards.LabelEffects

/-!
The label `signature-verified` over the AgentCards of a cluster, several of which can target one
workload. A reconcile is one step: the controller runs one at a time.
-/

namespace Kagenti.Operator.AgentCards

open Lib Lib.Transition

structure Cluster where
  cards : Cards
  workloads : Workloads
  -- the cards whose last reconcile completed, with no change since, and whether it evaluated them
  settled : List (CardKey × Bool)

/-- A workload that no card has written to. -/
def PodWorkload.isFresh (o : PodWorkload) : Bool :=
  (o.annotations.entries.all fun e => !hasPrefix e.1 annotationVerifiedStatePre) &&
    decide (o.templateLabels.lookup labelSignatureVerified ≠ some "true")

/-- The reconcile gets the card and has a mechanism of trust for it. -/
def Round.evaluates (a : Round) : Bool :=
  a.fetched.any fun found =>
    found.2.agentSpiffeID ≠ "" || a.reconciler.requireSignature || a.reconciler.verifiedFetch

namespace Cluster

variable (c : Cluster) {s : AgentCardStatus}

inductive Action where
  | createCard (card : AgentCard)
  | deploy (key : WorkloadKey) (workload : PodWorkload)
  | undeploy (key : WorkloadKey)
  | setSpec (k : CardKey) (spec : AgentCardSpec)
  | requestDeletion (k : CardKey)
  -- by other controllers
  | setFinalizers (k : CardKey) (finalizers : List String)
  | reconcile (k : CardKey) (r : AgentCardReconciler) (env : Env)

def edit (k : CardKey) (f : AgentCard → Option AgentCard) : Option Cluster :=
  ((c.cards.lookup k).bind f).map fun card => { c with cards := c.cards.store k card, settled := [] }

def reconciled (k : CardKey) (a : Round) (s : AgentCardStatus) : Cluster where
  cards := c.cards.store k (a.run s).2.card
  workloads := (a.run s).2.workloads
  settled :=
    let others := c.settled.filter (·.1 ≠ k)
    if a.completed s then (k, a.evaluates) :: others else others

def round (r : AgentCardReconciler) (env : Env) (card : AgentCard) : Round :=
  ⟨r, env, card, c.workloads⟩

def step : Action → Option Cluster
  | .createCard card =>
    if c.cards.lookup card.key = none ∧ card.deleting = false then
      some { c with cards := c.cards.store card.key card, settled := [] }
    else none
  | .deploy key o =>
    if c.workloads.lookup key = none ∧ o.isFresh = true then
      some { c with workloads := c.workloads.insert key o, settled := [] }
    else none
  | .undeploy key => some { c with workloads := c.workloads.erase key, settled := [] }
  | .setSpec k spec => c.edit k fun card => some { card with spec := spec }
  | .requestDeletion k => c.edit k fun card => some { card with deleting := true }
  | .setFinalizers k finalizers =>
    c.edit k fun card =>
      if finalizers.contains agentCardFinalizer = card.finalizers.contains agentCardFinalizer then
        some { card with finalizers := finalizers }
      else none
  | .reconcile k r env =>
    (c.cards.lookup k).map fun card => c.reconciled k (c.round r env card) card.status

def system : System Cluster Action := ⟨⟨∅, ∅, []⟩, step⟩

/-! The label and the cards -/

def Targets (card : AgentCard) (key : WorkloadKey) : Prop :=
  (∃ k, c.cards.lookup k = some card) ∧ card.deleting = false ∧ targetKey card = some key

def LabelsAgree : Prop :=
  ∀ key o, c.workloads.lookup key = some o →
    (o.HasLabel ↔ (∃ card, c.Targets card key) ∧
      ∀ card, c.Targets card key → card.status.isVerified = true)

/-- The reconciles of all cards have completed after the last change. -/
def Quiescent : Prop := ∀ k card, c.cards.lookup k = some card → ∃ e ∈ c.settled, e.1 = k

/-- The last reconcile of each card that is not being deleted evaluated it. -/
def Evaluated : Prop :=
  ∀ k card, c.cards.lookup k = some card → card.deleting = false → (k, true) ∈ c.settled

def stateOn (card : AgentCard) : Option String :=
  (targetKey card).bind fun key => (c.workloads.lookup key).bind fun o => o.stateOf card.name

def Allowed : Action → Prop
  | .setSpec k spec =>
    ∀ card, c.cards.lookup k = some card →
      targetKey { card with spec := spec } ≠ targetKey card → c.stateOn card = none
  | .reconcile k _ env =>
    ∀ card, c.cards.lookup k = some card → card.deleting = true →
      env.answer .removeFinalizer = none → env.answer .perCardAnno = none ∨ c.stateOn card = none
  | _ => True

instance : DecidablePred c.Allowed := by
  intro action
  unfold Allowed
  split <;> infer_instance

/-! The invariant -/

def Settled (workloads : Workloads) (card : AgentCard) : Prop :=
  if card.deleting then card.finalizers.contains agentCardFinalizer = false
  else ∀ key o, targetKey card = some key → workloads.lookup key = some o →
    o.stateOf card.name = some (desiredState card.status.isVerified)

structure Inv : Prop where
  named : Entries.Forall (fun k card => card.key = k) c.cards
  consistent : Entries.Forall (fun _ o => o.Consistent) c.workloads
  /-- A state belongs to a card that targets the workload and that has to remove it. -/
  owned : ∀ key o name state, c.workloads.lookup key = some o → o.stateOf name = some state →
    ∃ card, c.cards.lookup (key.ns, name) = some card ∧ targetKey card = some key ∧
      card.finalizers.contains agentCardFinalizer = true
  settled : ∀ k card evaluated, c.cards.lookup k = some card → (k, evaluated) ∈ c.settled →
    card.deleting = true ∨ evaluated = true → Settled c.workloads card

/-- The workloads may differ in the state of the card. -/
def Frame (k : CardKey) (workloads workloads' : Workloads) : Prop :=
  ∀ key o', workloads'.lookup key = some o' →
    ∃ o, workloads.lookup key = some o ∧ (o.Consistent → o'.Consistent) ∧
      ∀ name, (key.ns, name) ≠ k → o'.stateOf name = o.stateOf name

section Inv

variable {c} {k : CardKey} {card card' : AgentCard} {workloads' : Workloads}
  {settled' : List (CardKey × Bool)} {key : WorkloadKey} {o : PodWorkload}

theorem targetKey_ns (h : targetKey card = some key) : key.ns = card.ns := by
  simp only [targetKey, Option.bind_eq_some_iff, Option.map_eq_some_iff] at h
  obtain ⟨ref, -, kind, -, rfl⟩ := h
  rfl

theorem Frame.refl (k : CardKey) (workloads : Workloads) : Frame k workloads workloads :=
  fun _ o h => ⟨o, h, id, fun _ _ => rfl⟩

theorem Frame.of_writesTo {workloads : Workloads} {o' : PodWorkload}
    (hlookup : workloads.lookup key = some o) (hwrites : WritesTo key o' workloads workloads')
    (hconsistent : o.Consistent → o'.Consistent)
    (hstate : ∀ name, (key.ns, name) ≠ k → o'.stateOf name = o.stateOf name) :
    Frame k workloads workloads' := by
  intro key' found hfound
  rw [hwrites key'] at hfound
  split at hfound
  next heq =>
    cases hfound
    subst heq
    exact ⟨o, hlookup, hconsistent, hstate⟩
  · exact ⟨found, hfound, id, fun _ _ => rfl⟩

theorem Settled.frame {workloads : Workloads} (h : Settled workloads card) (hkey : card.key ≠ k)
    (hframe : Frame k workloads workloads') : Settled workloads' card := by
  unfold Settled at h ⊢
  split_ifs at h ⊢ with hdeleting
  · exact h
  · intro key o' htarget hlookup
    obtain ⟨o, hlookup, -, hstate⟩ := hframe key o' hlookup
    rw [hstate card.name (by rw [targetKey_ns htarget]; exact hkey)]
    exact h key o htarget hlookup

theorem stateOf_fresh (h : o.isFresh = true) (name : String) : o.stateOf name = none := by
  by_contra hsome
  obtain ⟨state, hstate⟩ := Option.ne_none_iff_exists'.mp hsome
  have hmem := AList.mem_lookup_iff.mp (Option.mem_def.mpr hstate)
  simp only [PodWorkload.isFresh, Bool.and_eq_true, List.all_eq_true] at h
  have hpre : hasPrefix (perCardAnno name) annotationVerifiedStatePre = true :=
    hasPrefix_iff.mpr ⟨name, rfl⟩
  simpa [hpre] using h.1 _ hmem

theorem consistent_fresh (h : o.isFresh = true) : o.Consistent := by
  refine iff_of_false ?_ ?_
  · simp only [PodWorkload.isFresh, Bool.and_eq_true, decide_eq_true_eq] at h
    exact h.2
  · intro haggregated
    obtain ⟨⟨name, state, hstate⟩, -⟩ := aggregateVerifiedState_iff.mp haggregated
    rw [show o.annotations.lookup (perCardAnno name) = none from stateOf_fresh h name] at hstate
    cases hstate

section Reconcile

variable {a : Round}

theorem evaluates_iff : a.evaluates = true ↔ a.Decides := by
  simp [Round.evaluates, Round.Decides, Option.any_eq_true, or_assoc]

theorem settled_self {evaluated : Bool} (h : (k, evaluated) ∈ (c.reconciled k a s).settled) :
    a.completed s = true ∧ evaluated = a.evaluates := by
  simp only [reconciled] at h
  split at h
  next completed =>
    refine ⟨completed, ?_⟩
    simpa using h
  · simp at h

theorem settled_subset : ∀ e ∈ (c.reconciled k a s).settled, e.1 ≠ k → e ∈ c.settled := by
  intro e mem other
  simp only [reconciled] at mem
  split at mem
  · grind
  · exact List.mem_of_mem_filter mem

end Reconcile

theorem edit_eq_some {f : AgentCard → Option AgentCard} {c' : Cluster} (h : c.edit k f = some c') :
    ∃ card card', c.cards.lookup k = some card ∧ f card = some card' ∧
      c' = { c with cards := c.cards.store k card', settled := [] } := by
  simp only [Cluster.edit, Option.map_eq_some_iff, Option.bind_eq_some_iff] at h
  obtain ⟨card', ⟨card, hcard, hf⟩, rfl⟩ := h
  exact ⟨card, card', hcard, hf, rfl⟩

theorem desiredState_eq_true {verified : Bool} : desiredState verified = "true" ↔ verified = true := by
  cases verified <;> simp [desiredState]

theorem Inv.of_run {a : Round} (hafter : (a.run s).2.card = card')
    (hworkloads : (a.run s).2.workloads = workloads')
    (h : Inv ⟨c.cards.store k card', workloads', (c.reconciled k a s).settled⟩) :
    (c.reconciled k a s).Inv := by
  subst hafter hworkloads
  exact h

variable (hinv : c.Inv)

include hinv

theorem Inv.replace (hkey : card'.key = k) (hframe : Frame k c.workloads workloads')
    (hown : ∀ key o' state, workloads'.lookup key = some o' → key.ns = k.1 →
      o'.stateOf k.2 = some state →
        targetKey card' = some key ∧ card'.finalizers.contains agentCardFinalizer = true)
    (hothers : ∀ e ∈ settled', e.1 ≠ k → e ∈ c.settled)
    (hself : ∀ evaluated, (k, evaluated) ∈ settled' → card'.deleting = true ∨ evaluated = true →
      Settled workloads' card') :
    Inv ⟨c.cards.store k card', workloads', settled'⟩ where
  named k' found hfound := by
    rw [Cards.lookup_store] at hfound
    split_ifs at hfound with heq
    · cases hfound
      exact hkey.trans heq.symm
    · exact hinv.named k' found hfound
  consistent key o' hfound := by
    obtain ⟨o, hlookup, hconsistent, -⟩ := hframe key o' hfound
    exact hconsistent (hinv.consistent key o hlookup)
  owned key o' name state hfound hstate := by
    by_cases heq : (key.ns, name) = k
    · subst heq
      obtain ⟨htarget, hfinalizer⟩ := hown key o' state hfound rfl hstate
      refine ⟨card', ?_, htarget, hfinalizer⟩
      rw [Cards.lookup_store, if_pos rfl, if_neg]
      -- a card with the finalizer stays
      intro hgone
      simp only [Bool.and_eq_true, List.isEmpty_iff] at hgone
      rw [hgone.2] at hfinalizer
      cases hfinalizer
    · obtain ⟨o, hlookup, -, hsame⟩ := hframe key o' hfound
      rw [hsame name heq] at hstate
      obtain ⟨owner, howner, hrest⟩ := hinv.owned key o name state hlookup hstate
      refine ⟨owner, ?_, hrest⟩
      rw [Cards.lookup_store, if_neg heq]
      exact howner
  settled k' found evaluated hfound hmem hbound := by
    rw [Cards.lookup_store] at hfound
    split_ifs at hfound with heq hgone
    · cases hfound
      exact hself evaluated (heq ▸ hmem) hbound
    · refine (hinv.settled k' found evaluated hfound (hothers _ hmem heq) hbound).frame ?_ hframe
      rw [hinv.named k' found hfound]
      exact heq

theorem Inv.createCard (hnew : c.cards.lookup card.key = none) :
    Inv { c with cards := c.cards.store card.key card, settled := [] } := by
  refine hinv.replace rfl (Frame.refl _ _) ?_ (by simp) (by simp)
  intro key o state hlookup hns hstate
  -- the card that the state would belong to is not there yet
  obtain ⟨owner, howner, -⟩ := hinv.owned key o card.name state hlookup hstate
  rw [show (key.ns, card.name) = card.key from by rw [hns]; rfl, hnew] at howner
  cases howner

theorem Inv.deploy (hfresh : o.isFresh = true) :
    Inv { c with workloads := c.workloads.insert key o, settled := [] } where
  named := hinv.named
  consistent := hinv.consistent.insert (consistent_fresh hfresh)
  owned key' o' name state hlookup hstate := by
    rw [Entries.lookup_insert] at hlookup
    split_ifs at hlookup with heq
    · cases hlookup
      rw [stateOf_fresh hfresh] at hstate
      cases hstate
    · exact hinv.owned key' o' name state hlookup hstate
  settled _ _ _ _ hmem := absurd hmem List.not_mem_nil

theorem Inv.undeploy (key : WorkloadKey) :
    Inv { c with workloads := c.workloads.erase key, settled := [] } where
  named := hinv.named
  consistent := hinv.consistent.erase key
  owned key' o' name state hlookup hstate :=
    hinv.owned key' o' name state (Entries.lookup_of_erase hlookup) hstate
  settled _ _ _ _ hmem := absurd hmem List.not_mem_nil

theorem Inv.recorded (hevaluated : c.Evaluated) (hlookup : c.workloads.lookup key = some o)
    (htargets : c.Targets card key) :
    o.stateOf card.name = some (desiredState card.status.isVerified) := by
  obtain ⟨⟨k, hcard⟩, hlive, htarget⟩ := htargets
  have hsettled := hinv.settled k card true hcard (hevaluated k card hcard hlive) (.inr rfl)
  rw [Settled, if_neg (by simp [hlive])] at hsettled
  exact hsettled key o htarget hlookup

theorem Inv.targets_of_state (hquiescent : c.Quiescent) {name state : String}
    (hlookup : c.workloads.lookup key = some o) (hstate : o.stateOf name = some state) :
    ∃ card, card.name = name ∧ c.Targets card key := by
  obtain ⟨card, hcard, htarget, hfinalizer⟩ := hinv.owned key o name state hlookup hstate
  refine ⟨card, congrArg Prod.snd (hinv.named _ card hcard), ⟨_, hcard⟩, ?_, htarget⟩
  by_contra hlive
  have hdeleting : card.deleting = true := by simpa using hlive
  obtain ⟨⟨_, evaluated⟩, hmem, rfl⟩ := hquiescent _ card hcard
  have hsettled := hinv.settled _ card evaluated hcard hmem (.inl hdeleting)
  rw [Settled, if_pos hdeleting, hfinalizer] at hsettled
  cases hsettled

variable (hcard : c.cards.lookup k = some card)

include hcard

theorem Inv.own {state : String} (hlookup : c.workloads.lookup key = some o) (hns : key.ns = k.1)
    (hstate : o.stateOf k.2 = some state) :
    targetKey card = some key ∧ card.finalizers.contains agentCardFinalizer = true := by
  obtain ⟨owner, howner, htarget, hfinalizer⟩ := hinv.owned key o k.2 state hlookup hstate
  rw [hns, hcard] at howner
  cases howner
  exact ⟨htarget, hfinalizer⟩

theorem Inv.stateless (hnone : c.stateOn card = none) (hlookup : c.workloads.lookup key = some o)
    (hns : key.ns = k.1) : o.stateOf k.2 = none := by
  by_contra hsome
  obtain ⟨state, hstate⟩ := Option.ne_none_iff_exists'.mp hsome
  obtain ⟨htarget, -⟩ := hinv.own hcard hlookup hns hstate
  have hname : card.name = k.2 := congrArg Prod.snd (hinv.named k card hcard)
  simp [stateOn, htarget, hlookup, hname, hstate] at hnone

theorem Inv.unlabelled (hkey : card'.key = card.key)
    (htarget : targetKey card' ≠ targetKey card → c.stateOn card = none)
    (hfinalizer : card.finalizers.contains agentCardFinalizer = true →
      card'.finalizers.contains agentCardFinalizer = true)
    (hothers : ∀ e ∈ settled', e.1 ≠ k → e ∈ c.settled)
    (hself : ∀ evaluated, (k, evaluated) ∈ settled' → card'.deleting = true ∨ evaluated = true →
      Settled c.workloads card') :
    Inv ⟨c.cards.store k card', c.workloads, settled'⟩ := by
  refine hinv.replace (hkey.trans (hinv.named k card hcard)) (Frame.refl _ _) ?_ hothers hself
  intro key o state hlookup hns hstate
  obtain ⟨hold, hprotected⟩ := hinv.own hcard hlookup hns hstate
  refine ⟨?_, hfinalizer hprotected⟩
  by_contra hmoved
  rw [hinv.stateless hcard (htarget (hold ▸ hmoved)) hlookup hns] at hstate
  cases hstate

theorem Inv.edit (hkey : card'.key = card.key)
    (hfinalizer : card'.finalizers.contains agentCardFinalizer =
      card.finalizers.contains agentCardFinalizer)
    (htarget : targetKey card' ≠ targetKey card → c.stateOn card = none) :
    Inv { c with cards := c.cards.store k card', settled := [] } :=
  hinv.unlabelled hcard hkey htarget hfinalizer.trans (by simp) (by simp)

/-! Reconciles -/

variable {r : AgentCardReconciler} {env : Env}

theorem Inv.labelled (hlive : Live card) {status : AgentCardStatus}
    (htarget : targetKey card = some key) (hlookup : c.workloads.lookup key = some o)
    (hwrites : WritesTo key (propagatedTo card.name status.isVerified o) c.workloads workloads')
    (hothers : ∀ e ∈ settled', e.1 ≠ k → e ∈ c.settled) :
    Inv ⟨c.cards.store k { card with status := status }, workloads', settled'⟩ := by
  have hnamed := hinv.named k card hcard
  have hname : card.name = k.2 := congrArg Prod.snd hnamed
  have hns : key.ns = k.1 := (targetKey_ns htarget).trans (congrArg Prod.fst hnamed)
  have hframe : Frame k c.workloads workloads' := by
    refine Frame.of_writesTo hlookup hwrites (fun _ => consistent_propagatedTo _ _ _) ?_
    intro name hne
    rw [stateOf_propagatedTo, if_neg]
    rintro rfl
    exact hne (Prod.ext hns hname)
  refine hinv.replace hnamed hframe ?_ hothers fun _ _ _ => ?_
  · intro key' o' state hlookup' hns' hstate
    rw [hwrites key'] at hlookup'
    split_ifs at hlookup' with heq
    · exact ⟨heq ▸ htarget, hlive.2⟩
    · exact (hinv.own hcard hlookup' hns' hstate :)
  · rw [Settled, if_neg (by simp [hlive.1])]
    intro key' o' htarget' hlookup'
    obtain rfl : key = key' := Option.some.inj (htarget.symm.trans htarget')
    rw [hwrites key, if_pos rfl] at hlookup'
    cases hlookup'
    rw [stateOf_propagatedTo, if_pos rfl]

theorem Inv.reconcile_live (hlive : Live card) :
    (c.reconciled k (c.round r env card) card.status).Inv := by
  have hothers := @settled_subset c card.status k (c.round r env card)
  obtain ⟨⟨status, hafter⟩, heffect⟩ := @Round.effect_of_live (c.round r env card) card.status hlive
  have hstatus : (c.round r env card).after card.status = status := congrArg AgentCard.status hafter
  -- the cases in which the workloads stay as they are
  have hsame (hworkloads : ((c.round r env card).run card.status).2.workloads = c.workloads)
      (hself : ∀ evaluated, (k, evaluated) ∈ (c.reconciled k (c.round r env card) card.status).settled →
        card.deleting = true ∨ evaluated = true → Settled c.workloads { card with status := status }) :
      (c.reconciled k (c.round r env card) card.status).Inv :=
    .of_run hafter hworkloads (hinv.unlabelled hcard rfl (absurd rfl) id hothers hself)
  rcases heffect with hlabels | ⟨hworkloads, hundecided⟩
  · unfold Round.Labels at hlabels
    rw [hstatus, show (c.round r env card).card = card from rfl] at hlabels
    cases htarget : targetKey card with
    | none =>
      rw [htarget] at hlabels
      refine hsame hlabels fun _ _ _ => ?_
      rw [Settled, if_neg (by simp [hlive.1])]
      intro key o hkey
      rw [show targetKey { card with status := status } = none from htarget] at hkey
      cases hkey
    | some key =>
      rw [htarget] at hlabels
      obtain ⟨o, hlookup, hwrites⟩ := hlabels
      exact .of_run hafter rfl (hinv.labelled hcard hlive htarget hlookup hwrites hothers)
  · refine hsame hworkloads fun evaluated hmem hbound => ?_
    obtain ⟨hcompleted, rfl⟩ := settled_self hmem
    have hevaluates := hbound.resolve_left (by simp [hlive.1])
    exact absurd ⟨evaluates_iff.mp hevaluates, hcompleted⟩ hundecided

theorem Inv.reconcile_unprotected (hdeleting : card.deleting = false)
    (hfinalizer : card.finalizers.contains agentCardFinalizer = false) :
    (c.reconciled k (c.round r env card) card.status).Inv := by
  obtain ⟨hworkloads, hafter⟩ :=
    @Round.run_of_unprotected (c.round r env card) card.status hdeleting hfinalizer
  have hfetched : (c.round r env card).fetched = none :=
    if_neg fun hlive : Live card => absurd (hfinalizer.symm.trans hlive.2) (by simp)
  refine .of_run hafter hworkloads
    (hinv.unlabelled hcard rfl (absurd rfl) ?_ settled_subset fun evaluated hmem hbound => ?_)
  · intro hprotected
    rw [hfinalizer] at hprotected
    cases hprotected
  · obtain ⟨-, rfl⟩ := settled_self hmem
    rw [Round.evaluates, hfetched] at hbound
    simp [Round.withFinalizers, round, hdeleting] at hbound

theorem Inv.reconcile_released (hdeleting : card.deleting = true)
    (hfinalizer : card.finalizers.contains agentCardFinalizer = false) :
    (c.reconciled k (c.round r env card) card.status).Inv := by
  have hafter := @Round.run_of_released (c.round r env card) card.status hdeleting hfinalizer
  refine .of_run (congrArg World.card hafter) (congrArg World.workloads hafter)
    (hinv.unlabelled hcard rfl (absurd rfl) id settled_subset fun _ _ _ => ?_)
  exact (if_pos hdeleting).mpr hfinalizer

theorem Inv.cleansTo (hcleans : CleansTo env card c.workloads workloads') :
    Frame k c.workloads workloads' ∧
      ∀ key o' state, workloads'.lookup key = some o' → key.ns = k.1 →
        o'.stateOf k.2 = some state →
          (∃ o, c.workloads.lookup key = some o ∧ o.stateOf k.2 = some state) ∧
            env.answer .perCardAnno ≠ none := by
  have hnamed := hinv.named k card hcard
  have hname : card.name = k.2 := congrArg Prod.snd hnamed
  have hown {key : WorkloadKey} {o : PodWorkload} {state : String}
      (hlookup : c.workloads.lookup key = some o) (hns : key.ns = k.1)
      (hstate : o.stateOf k.2 = some state) : targetKey card = some key :=
    (hinv.own hcard hlookup hns hstate).1
  unfold CleansTo at hcleans
  cases htarget : targetKey card with
  | none =>
    rw [htarget] at hcleans
    rw [hcleans]
    refine ⟨Frame.refl _ _, fun key o state hlookup hns hstate => ?_⟩
    rw [hown hlookup hns hstate] at htarget
    cases htarget
  | some key =>
    simp only [htarget] at hcleans
    split_ifs at hcleans with haccepted
    · cases hlookup : c.workloads.lookup key with
      | none =>
        rw [hlookup] at hcleans
        rw [hcleans]
        refine ⟨Frame.refl _ _, fun key' o state hlookup' hns hstate => ?_⟩
        have hsame := htarget.symm.trans (hown hlookup' hns hstate)
        rw [← Option.some.inj hsame, hlookup] at hlookup'
        cases hlookup'
      | some o =>
        rw [hlookup] at hcleans
        have hns : key.ns = k.1 := (targetKey_ns htarget).trans (congrArg Prod.fst hnamed)
        refine ⟨Frame.of_writesTo hlookup hcleans (consistent_cleanedOf card.name) ?_, ?_⟩
        · grind [stateOf_cleanedOf]
        · intro key' o' state hlookup' hns' hstate
          rw [hcleans key'] at hlookup'
          split_ifs at hlookup' with heq
          · grind [stateOf_cleanedOf]
          · have hsame := htarget.symm.trans (hown hlookup' hns' hstate)
            exact absurd (Option.some.inj hsame).symm heq
    · rw [hcleans]
      exact ⟨Frame.refl _ _, fun key' o state hlookup' _ hstate => ⟨⟨o, hlookup', hstate⟩, haccepted⟩⟩

theorem Inv.reconcile_deleting (hdeleting : card.deleting = true)
    (hfinalizer : card.finalizers.contains agentCardFinalizer = true)
    (hallowed : env.answer .removeFinalizer = none →
      env.answer .perCardAnno = none ∨ c.stateOn card = none) :
    (c.reconciled k (c.round r env card) card.status).Inv := by
  obtain ⟨hcleans, hafter, hcompleted⟩ :=
    @Round.run_of_deleting (c.round r env card) card.status hdeleting hfinalizer
  obtain ⟨hframe, hstates⟩ := hinv.cleansTo hcard hcleans
  refine .of_run hafter rfl
    (hinv.replace (hinv.named k card hcard) hframe ?_ settled_subset fun _ hmem _ => ?_)
  · intro key o' state hlookup hns hstate
    obtain ⟨⟨o, hbefore, hstate⟩, hrefused⟩ := hstates key o' state hlookup hns hstate
    obtain ⟨htarget, hprotected⟩ := hinv.own hcard hbefore hns hstate
    refine ⟨htarget, ?_⟩
    -- the finalizer would be gone only with the state
    have hkept : env.answer .removeFinalizer ≠ none := by
      intro haccepted
      have hnone := (hallowed haccepted).resolve_left hrefused
      rw [hinv.stateless hcard hnone hbefore hns] at hstate
      cases hstate
    simpa [Round.withFinalizers, round, hkept] using hprotected
  · rw [Settled, if_pos (by simp [Round.withFinalizers, round, hdeleting])]
    simp [Round.withFinalizers, hcompleted.mp (settled_self hmem).1]

theorem Inv.reconcile (hallowed : c.Allowed (.reconcile k r env)) :
    (c.reconciled k (c.round r env card) card.status).Inv := by
  cases hdeleting : card.deleting with
  | true =>
    cases hfinalizer : card.finalizers.contains agentCardFinalizer with
    | true =>
      exact hinv.reconcile_deleting hcard hdeleting hfinalizer (hallowed card hcard hdeleting)
    | false => exact hinv.reconcile_released hcard hdeleting hfinalizer
  | false =>
    cases hfinalizer : card.finalizers.contains agentCardFinalizer with
    | true => exact hinv.reconcile_live hcard ⟨hdeleting, hfinalizer⟩
    | false => exact hinv.reconcile_unprotected hcard hdeleting hfinalizer

end Inv

section Runs

variable {c}

theorem Inv.step {c' : Cluster} {action : Action} (hinv : c.Inv) (hallowed : c.Allowed action)
    (hstep : c.step action = some c') : c'.Inv := by
  cases action with
  | createCard card =>
    simp only [Cluster.step, Option.ite_none_right_eq_some, Option.some.injEq] at hstep
    obtain ⟨⟨hnew, -⟩, rfl⟩ := hstep
    exact hinv.createCard hnew
  | deploy key o =>
    simp only [Cluster.step, Option.ite_none_right_eq_some, Option.some.injEq] at hstep
    obtain ⟨⟨-, hfresh⟩, rfl⟩ := hstep
    exact hinv.deploy hfresh
  | undeploy key =>
    cases hstep
    exact hinv.undeploy key
  | setSpec k spec =>
    obtain ⟨card, card', hcard, hf, rfl⟩ := edit_eq_some hstep
    cases hf
    exact hinv.edit hcard rfl rfl (hallowed card hcard)
  | requestDeletion k =>
    obtain ⟨card, card', hcard, hf, rfl⟩ := edit_eq_some hstep
    cases hf
    exact hinv.edit hcard rfl rfl fun hmoved => absurd rfl hmoved
  | setFinalizers k finalizers =>
    obtain ⟨card, card', hcard, hf, rfl⟩ := edit_eq_some hstep
    simp only [Option.ite_none_right_eq_some, Option.some.injEq] at hf
    obtain ⟨hkept, rfl⟩ := hf
    exact hinv.edit hcard rfl hkept fun hmoved => absurd rfl hmoved
  | reconcile k r env =>
    simp only [Cluster.step, Option.map_eq_some_iff] at hstep
    obtain ⟨card, hcard, rfl⟩ := hstep
    exact hinv.reconcile hcard hallowed

theorem inv_init : system.init.Inv where
  named := Entries.Forall.empty
  consistent := Entries.Forall.empty
  owned key o _ _ hlookup _ := by simp [system] at hlookup
  settled _ _ _ _ hmem := absurd hmem List.not_mem_nil

theorem inv_of_reachable (h : system.Reachable Allowed c) : c.Inv :=
  h.invariant inv_init fun _ _ _ hinv hallowed hstep => hinv.step hallowed hstep

end Runs

/-- In every run in which no card moves away from a workload that has its state, and no deletion
drops a state that could not be removed, the labels agree with the cards once all reconciles have
completed and those of the cards that stay have evaluated them. -/
theorem labels_agree_when_evaluated {c : Cluster} (h : system.Reachable Allowed c)
    (hquiescent : c.Quiescent) (hevaluated : c.Evaluated) : c.LabelsAgree := by
  have hinv := inv_of_reachable h
  intro key o hlookup
  refine (hinv.consistent key o hlookup).trans (aggregateVerifiedState_iff.trans ?_)
  constructor
  · rintro ⟨⟨name, state, hstate⟩, hall⟩
    obtain ⟨card, -, htargets⟩ := hinv.targets_of_state hquiescent hlookup hstate
    refine ⟨⟨card, htargets⟩, fun card htargets => ?_⟩
    exact desiredState_eq_true.mp (hall card.name _ (hinv.recorded hevaluated hlookup htargets))
  · rintro ⟨⟨card, htargets⟩, hall⟩
    refine ⟨⟨card.name, _, hinv.recorded hevaluated hlookup htargets⟩, fun name state hstate => ?_⟩
    obtain ⟨owner, rfl, howner⟩ := hinv.targets_of_state hquiescent hlookup hstate
    have hrecorded := hinv.recorded hevaluated hlookup howner
    rw [← Option.some.inj (hrecorded.symm.trans hstate)]
    exact desiredState_eq_true.mpr (hall owner howner)

/-! Runs with cards of one workload -/

def weatherKey : WorkloadKey := ⟨.deployment, "default", "weather"⟩

def verifiedReconcile (name : String) : Action :=
  .reconcile ("default", name)
    (verifiedFetchReconciler
      (.ok ⟨weatherCardData, "spiffe://cluster.local/ns/default/sa/weather", []⟩)) readyEnv

def verifiedCard : List Action :=
  [.deploy weatherKey ⟨∅, ∅⟩, .createCard (weatherCard weatherSpec), verifiedReconcile "weather-card"]

def secondCard : List Action :=
  verifiedCard ++
    [.createCard { weatherCard weatherSpec with name := "second-card" },
      verifiedReconcile "second-card", verifiedReconcile "weather-card"]

def movedCard : List Action :=
  verifiedCard ++
    [.deploy ⟨.deployment, "default", "weather-v2"⟩ ⟨∅, ∅⟩,
      .setSpec ("default", "weather-card")
        { weatherSpec with targetRef := some ⟨"apps/v1", "Deployment", "weather-v2"⟩ },
      verifiedReconcile "weather-card"]

theorem settled_of_entries {c : Cluster} (h : ∀ e ∈ c.cards.entries, (e.1, true) ∈ c.settled) :
    c.Quiescent ∧ c.Evaluated := by
  have all (k : CardKey) (card : AgentCard) (hcard : c.cards.lookup k = some card) :
      (k, true) ∈ c.settled := h ⟨k, card⟩ (AList.mem_lookup_iff.mp hcard)
  exact ⟨fun k card hcard => ⟨_, all k card hcard, rfl⟩, fun k card hcard _ => all k card hcard⟩

/-- Two verified cards at rest, whose workload has the label. -/
theorem labels_agree_for_two_cards :
    ∃ c, system.Reachable Allowed c ∧ c.cards.entries.length = 2 ∧ c.Quiescent ∧ c.Evaluated ∧
      c.LabelsAgree ∧ ∃ o, c.workloads.lookup weatherKey = some o ∧ o.HasLabel := by
  obtain ⟨c, hrun, htwo, hsettled, o, hlookup, hlabel⟩ : ∃ c ∈ system.run Allowed secondCard,
      c.cards.entries.length = 2 ∧ (∀ e ∈ c.cards.entries, (e.1, true) ∈ c.settled) ∧
      ∃ o ∈ c.workloads.lookup weatherKey,
        o.templateLabels.lookup labelSignatureVerified = some "true" := by
    decide +kernel
  have hreachable := System.reachable_of_run _ hrun
  obtain ⟨hquiescent, hevaluated⟩ := settled_of_entries hsettled
  exact ⟨c, hreachable, htwo, hquiescent, hevaluated,
    labels_agree_when_evaluated hreachable hquiescent hevaluated, o, hlookup, hlabel⟩

/-- The workload that a card has left keeps the label. -/
theorem label_outlives_retarget :
    ∃ c, system.Reachable System.anyAction c ∧ c.Quiescent ∧ c.Evaluated ∧ ¬ c.LabelsAgree := by
  obtain ⟨c, hrun, hsettled, hmoved, o, hlookup, hlabel⟩ :
      ∃ c ∈ system.run System.anyAction movedCard,
      (∀ e ∈ c.cards.entries, (e.1, true) ∈ c.settled) ∧
      (∀ e ∈ c.cards.entries, targetKey e.2 ≠ some weatherKey) ∧
      ∃ o ∈ c.workloads.lookup weatherKey,
        o.templateLabels.lookup labelSignatureVerified = some "true" := by
    decide +kernel
  obtain ⟨hquiescent, hevaluated⟩ := settled_of_entries hsettled
  refine ⟨c, System.reachable_of_run _ hrun, hquiescent, hevaluated, fun hagree => ?_⟩
  obtain ⟨⟨card, ⟨k, hcard⟩, -, htarget⟩, -⟩ := (hagree weatherKey o hlookup).mp hlabel
  exact hmoved ⟨k, card⟩ (AList.mem_lookup_iff.mp hcard) htarget

/-- No state outlives the card that has to remove it, settled or not. -/
theorem state_owned {c : Cluster} (h : system.Reachable Allowed c) {key : WorkloadKey}
    {o : PodWorkload} {name state : String} (found : c.workloads.lookup key = some o)
    (recorded : o.stateOf name = some state) :
    ∃ card, c.cards.lookup (key.ns, name) = some card ∧ targetKey card = some key ∧
      card.finalizers.contains agentCardFinalizer = true :=
  (inv_of_reachable h).owned key o name state found recorded

/-- The state of a verified card. -/
theorem state_owned_for_verified_card : ∃ c, system.Reachable Allowed c ∧
    ∃ card, c.cards.lookup ("default", "weather-card") = some card := by
  obtain ⟨c, hrun, o, found, recorded⟩ : ∃ c ∈ system.run Allowed verifiedCard,
      ∃ o ∈ c.workloads.lookup weatherKey, o.stateOf "weather-card" = some "true" := by
    decide +kernel
  have reach := System.reachable_of_run _ hrun
  obtain ⟨card, held, -⟩ := state_owned reach found recorded
  exact ⟨c, reach, card, held⟩

end Cluster

end Kagenti.Operator.AgentCards
