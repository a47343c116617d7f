import Kagenti.Operator.AgentCards.Rounds

/-!
What one reconcile of an AgentCard does to the workload and to the finalizers of the card.
-/

namespace Kagenti.Operator.AgentCards

open Lib Lib.Fallible

def targetKey (card : AgentCard) : Option WorkloadKey :=
  card.spec.targetRef.bind fun ref =>
    (podKind ref.kind).map fun kind => ⟨kind, card.ns, ref.name⟩

def WritesTo (key : WorkloadKey) (workload : PodWorkload) (workloads workloads' : Workloads) : Prop :=
  ∀ key', workloads'.lookup key' = if key' = key then some workload else workloads.lookup key'

/-- Everything but the status and the record of its writes is as in `w₀`. -/
def Untouched (w₀ w : World) : Prop :=
  w.workloads = w₀.workloads ∧ ∃ status, w.card = { w₀.card with status := status }

section Keeps

variable {r : AgentCardReconciler} {env : Env} {card : AgentCard} {w₀ : World}

theorem Untouched.refl (w : World) : Untouched w w := ⟨rfl, w.card.status, rfl⟩

theorem untouched_writeStatus (write : Write) (f : AgentCardStatus → AgentCardStatus) :
    Keeps (Untouched w₀) (writeStatus env write f) := by
  refine .access fun w hw => ?_
  cases env.answer write with
  | none =>
    obtain ⟨hworkloads, status, hcard⟩ := hw
    refine ⟨hworkloads, f w.card.status, ?_⟩
    rw [World.persist, hcard]
  | some err => exact hw

theorem untouched_updateCondition (write : Write) (new : NewCondition) :
    Keeps (Untouched w₀) (updateCondition env write new) := untouched_writeStatus _ _

theorem untouched_reconcile {w : World} (hlive : Live w.card)
    (hnone : ∀ x fetched, reached env w.card = some x → fetchAnswer r w.card x ≠ .ok fetched) :
    Untouched w ((reconcile r env).runFrom w).2 := by
  rw [reconcile_live hlive]
  have hkeeps : Keeps (Untouched w) (reconcileCard r env w.card) :=
    satisfies_unfetched hnone (fun _ _ => untouched_updateCondition _ _)
      (fun _ => untouched_writeStatus _ _) (fun _ _ _ => untouched_updateCondition _ _)
      fun _ _ => untouched_updateCondition _ _
  exact hkeeps.runFrom (Untouched.refl w)

end Keeps

/-! The label -/

section Label

variable {r : AgentCardReconciler} {env : Env} {card : AgentCard} {x : Reached}
  {fetched : FetchResult}

section Write

variable {write : Write} {key : WorkloadKey} {f : PodWorkload → Option PodWorkload}
  {missing : Except String Unit} {w : World}

theorem writeWorkload_refused {err : String} (hrefused : env.answer write = some err) :
    (writeWorkload env write key f missing).runFrom w = (.error err, w) := by
  rw [writeWorkload, runFrom_access]
  simp only [hrefused]

theorem writeWorkload_missing (haccepted : env.answer write = none)
    (hmissing : w.workloads.lookup key = none) :
    (writeWorkload env write key f missing).runFrom w = (missing, w) := by
  rw [writeWorkload, runFrom_access]
  simp only [haccepted, hmissing]

theorem writeWorkload_found {o : PodWorkload} (haccepted : env.answer write = none)
    (hfound : w.workloads.lookup key = some o) :
    WritesTo key ((f o).getD o) w.workloads
      ((writeWorkload env write key f missing).runFrom w).2.workloads := by
  rw [writeWorkload, runFrom_access]
  simp only [haccepted, hfound]
  intro key'
  cases f o with
  | none => grind
  | some o' => exact Lib.Entries.lookup_insert _ _ _ _

theorem card_writeWorkload :
    ((writeWorkload env write key f missing).runFrom w).2.card = w.card := by
  rw [writeWorkload, runFrom_access]
  split
  · rfl
  · rfl
  · split <;> rfl

end Write

theorem labelWorkload_of_reason (hreason : (ownTrust r card fetched).verifiedReason ≠ "")
    (w : World) :
    ((labelWorkload r env card x.workload (ownTrust r card fetched)).runFrom w).2 =
        ((propagateSignatureLabel env card.name x.workload
          (ownTrust r card fetched).isVerified).runFrom w).2 ∧
      ((labelWorkload r env card x.workload (ownTrust r card fetched)).runFrom w).1.isOk =
        ((propagateSignatureLabel env card.name x.workload
          (ownTrust r card fetched).isVerified).runFrom w).1.isOk := by
  have hmTLS : (ownTrust r card fetched).isMTLSVerified = decide (fetched.agentSpiffeID ≠ "") := rfl
  unfold labelWorkload
  by_cases hid : fetched.agentSpiffeID = ""
  · rw [if_neg (by simp [hmTLS, hid])]
    by_cases hrequired : r.requireSignature = true
    · rw [if_pos hrequired]
      refine runFrom_bind_pure (fun _ => ?_) w
      split
      · exact ⟨_, rfl⟩
      · exact ⟨_, rfl⟩
    · rw [if_neg hrequired]
      have hactive := AgentCardReconciler.decideVerified_reason.mp hreason
      have hfetch : r.verifiedFetch = true := by simpa [hid, hrequired] using hactive
      have hunverified : (ownTrust r card fetched).isVerified = false := by
        simp [ownTrust, AgentCardReconciler.evaluateTrust, AgentCardReconciler.decideVerified, hid,
          hrequired, hfetch]
      rw [if_pos hfetch, hunverified]
      exact runFrom_bind_pure (fun _ => ⟨_, rfl⟩) w
  · have hverified : (ownTrust r card fetched).isVerified = true :=
      congrArg Decision.isVerified (AgentCardReconciler.decideVerified_of_identity hid)
    rw [if_pos (by simp [hmTLS, hid]), hverified]
    exact runFrom_bind_pure (fun _ => ⟨_, rfl⟩) w

theorem labelWorkload_of_no_reason (hreason : (ownTrust r card fetched).verifiedReason = "")
    (w : World) :
    ((labelWorkload r env card x.workload (ownTrust r card fetched)).runFrom w).2 = w := by
  have hinactive := mt AgentCardReconciler.decideVerified_reason.mpr (not_not.mpr hreason)
  simp only [not_or, not_not, Bool.not_eq_true] at hinactive
  obtain ⟨hid, hresult, hfetch⟩ := hinactive
  have hrequired : r.requireSignature = false := by simpa using hresult
  have hmTLS : (ownTrust r card fetched).isMTLSVerified = false := by
    simp [ownTrust, AgentCardReconciler.evaluateTrust, hid]
  unfold labelWorkload
  simp only [hmTLS, hrequired, hfetch]
  rfl

theorem propagate_cases (cardName : String) (workload : WorkloadInfo) (verified : Bool) (w : World) :
    ∃ result w', (propagateSignatureLabel env cardName workload verified).runFrom w = (result, w') ∧
      w'.card = w.card ∧ (result.isOk = false ∧ w' = w ∨
        match (podKind workload.kind).map fun kind =>
          (⟨kind, workload.ns, workload.name⟩ : WorkloadKey) with
        | none => w'.workloads = w.workloads
        | some key => ∃ o, w.workloads.lookup key = some o ∧
            WritesTo key (propagatedTo cardName verified o) w.workloads w'.workloads) := by
  unfold propagateSignatureLabel
  cases podKind workload.kind with
  | none => exact ⟨_, w, rfl, rfl, .inr rfl⟩
  | some kind =>
    cases hanswer : env.answer .label with
    | some err => exact ⟨_, w, writeWorkload_refused hanswer, rfl, .inl ⟨rfl, rfl⟩⟩
    | none =>
      cases hlookup : w.workloads.lookup ⟨kind, workload.ns, workload.name⟩ with
      | none => exact ⟨_, w, writeWorkload_missing hanswer hlookup, rfl, .inl ⟨rfl, rfl⟩⟩
      | some o =>
        refine ⟨_, _, rfl, card_writeWorkload, .inr ⟨o, hlookup, ?_⟩⟩
        exact writeWorkload_found hanswer hlookup

theorem targetKey_of_reached (hx : reached env card = some x) :
    targetKey card =
      (podKind x.workload.kind).map fun kind => ⟨kind, x.workload.ns, x.workload.name⟩ := by
  have hworkload := (of_reached hx).1
  generalize x.workload = workload at hworkload ⊢
  revert hworkload
  unfold targetKey
  fun_cases getWorkload with
  | case5 ref href =>
    rw [href]
    rintro ⟨⟩
    rfl
  | _ => rintro ⟨⟩

end Label

/-! The annotation of a card that is deleted -/

def CleansTo (env : Env) (card : AgentCard) (workloads workloads' : Workloads) : Prop :=
  match targetKey card with
  | none => workloads' = workloads
  | some key =>
    if env.answer .perCardAnno = none then
      match workloads.lookup key with
      | none => workloads' = workloads
      | some o => WritesTo key (cleanedOf card.name o) workloads workloads'
    else workloads' = workloads

theorem runFrom_cleanupPerCardAnno (env : Env) (card : AgentCard) (w : World) :
    ∃ w', (cleanupPerCardAnno env card).runFrom w = (.ok (), w') ∧ w'.card = w.card ∧
      CleansTo env card w.workloads w'.workloads := by
  have hskip (hkey : targetKey card = none) : CleansTo env card w.workloads w.workloads := by
    simp [CleansTo, hkey]
  unfold cleanupPerCardAnno
  cases href : card.spec.targetRef with
  | none => exact ⟨w, rfl, rfl, hskip (by simp [targetKey, href])⟩
  | some ref =>
    dsimp only
    cases hkind : podKind ref.kind with
    | none => exact ⟨w, rfl, rfl, hskip (by simp [targetKey, href, hkind])⟩
    | some kind =>
      refine ⟨_, rfl, card_writeWorkload, ?_⟩
      have hkey : targetKey card = some ⟨kind, card.ns, ref.name⟩ := by
        simp [targetKey, href, hkind]
      simp only [CleansTo, hkey]
      cases hanswer : env.answer .perCardAnno with
      | some err =>
        rw [if_neg (by simp)]
        exact congrArg (fun run => run.2.workloads) (writeWorkload_refused hanswer)
      | none =>
        rw [if_pos rfl]
        cases hlookup : w.workloads.lookup ⟨kind, card.ns, ref.name⟩ with
        | none =>
          exact congrArg (fun run => run.2.workloads) (writeWorkload_missing hanswer hlookup)
        | some o => exact writeWorkload_found hanswer hlookup

/-! The effect of a round -/

namespace Round

variable {a : Round} {s : AgentCardStatus}

def Labels (a : Round) (s : AgentCardStatus) : Prop :=
  match targetKey a.card with
  | none => (a.run s).2.workloads = a.workloads
  | some key =>
    ∃ o, a.workloads.lookup key = some o ∧
      WritesTo key (propagatedTo a.card.name (a.after s).isVerified o) a.workloads
        (a.run s).2.workloads

theorem untouched_persist {w₀ w : World} (hw : Untouched w₀ w) (status : AgentCardStatus) :
    Untouched w₀ (w.persist status) := by
  obtain ⟨hworkloads, status', hcard⟩ := hw
  refine ⟨hworkloads, status, ?_⟩
  rw [World.persist, hcard]

theorem untouched_afterFetch (r : AgentCardReconciler) (env : Env) (x : Reached) (w : World) :
    Untouched w (afterFetch r env x w) := by
  unfold afterFetch
  split
  · exact untouched_persist (Untouched.refl w) _
  · exact Untouched.refl w

section Fetched

variable {x : Reached} {fetched : FetchResult}

theorem run_of_accepted (h : a.fetched = some (x, fetched)) (hstatus : a.env.answer .status = none) :
    ∃ w, Untouched (a.start s) w ∧
      a.run s = (labelWorkload a.reconciler a.env { a.card with status := s } x.workload
        (a.trust fetched)).runFrom w := by
  refine ⟨afterSync a.reconciler a.env { a.card with status := s } x fetched
    (afterFetch a.reconciler a.env x (a.start s)), ?_, ?_⟩
  · exact untouched_persist (untouched_afterFetch _ _ _ _) _
  · rw [run_of_fetched h]
    exact syncCard_eq hstatus fetched _

end Fetched

theorem effect_of_live (hlive : Live a.card) :
    (∃ status, (a.run s).2.card = { a.card with status := status }) ∧
      (a.Labels s ∨ (a.run s).2.workloads = a.workloads ∧ ¬ (a.Decides ∧ a.completed s = true)) := by
  cases hfetched : a.fetched with
  | none =>
    have hsame : Untouched (a.start s) (a.run s).2 := by
      refine @untouched_reconcile a.reconciler a.env (a.start s) hlive fun x fetched hx hanswer => ?_
      have hsome := fetched_eq_some.mpr ⟨hlive, hx, hanswer⟩
      rw [hfetched] at hsome
      cases hsome
    refine ⟨hsame.2, .inr ⟨hsame.1, ?_⟩⟩
    rintro ⟨⟨x, fetched, hsome, -⟩, -⟩
    rw [hfetched] at hsome
    cases hsome
  | some found =>
    obtain ⟨x, fetched⟩ := found
    cases hstatus : a.env.answer .status with
    | some err =>
      have hsame := untouched_afterFetch a.reconciler a.env x (a.start s)
      refine ⟨?_, .inr ⟨?_, fun h => ?_⟩⟩
      · rw [run_of_refused hfetched hstatus]
        exact hsame.2
      · rw [run_of_refused hfetched hstatus]
        exact hsame.1
      · rw [status_accepted hfetched h.2] at hstatus
        cases hstatus
    | none =>
      obtain ⟨w, hw, hrun⟩ := @run_of_accepted a s x fetched hfetched hstatus
      have hworkloads : w.workloads = a.workloads := hw.1
      by_cases hreason : (a.trust fetched).verifiedReason = ""
      · have hend : (a.run s).2 = w :=
          (congrArg Prod.snd hrun).trans (labelWorkload_of_no_reason hreason w)
        rw [hend]
        exact ⟨hw.2, .inr ⟨hworkloads, fun h => (decides_iff hfetched).mp h.1 hreason⟩⟩
      · obtain ⟨hstate, hok⟩ := @labelWorkload_of_reason a.reconciler a.env
          { a.card with status := s } x fetched hreason w
        obtain ⟨result, w', hpropagate, hcard, hcases⟩ := @propagate_cases a.env a.card.name
          x.workload (a.trust fetched).isVerified w
        have hend : (a.run s).2 = w' :=
          (congrArg Prod.snd hrun).trans (hstate.trans (congrArg Prod.snd hpropagate))
        refine ⟨?_, hcases.symm.imp ?_ ?_⟩
        · rw [hend, hcard]
          exact hw.2
        · intro hlabels
          unfold Labels
          rw [isVerified_after hfetched hstatus, if_pos hreason, hend,
            targetKey_of_reached (fetched_eq_some.mp hfetched).2.1, ← hworkloads]
          exact hlabels
        · rintro ⟨herror, rfl⟩
          refine ⟨hend ▸ hworkloads, fun h => ?_⟩
          have hrefused : a.completed s = result.isOk := (congrArg (·.1.isOk) hrun).trans
            (hok.trans (congrArg (·.1.isOk) hpropagate))
          rw [hrefused, herror] at h
          cases h.2

/-! Rounds that only change finalizers, and the annotation of a card that is deleted -/

def withFinalizers (a : Round) (s : AgentCardStatus) (write : Write) (finalizers : List String) :
    AgentCard :=
  { a.card with
    status := s, finalizers := if a.env.answer write = none then finalizers else a.card.finalizers }

theorem runFrom_setFinalizers (env : Env) (write : Write) (f : List String → List String) (w : World) :
    (setFinalizers env write f).runFrom w =
      match env.answer write with
      | some err => (.error err, w)
      | none => (.ok (), { w with card := { w.card with finalizers := f w.card.finalizers } }) :=
  rfl

theorem run_of_unprotected (hdeleting : a.card.deleting = false)
    (hfinalizer : a.card.finalizers.contains agentCardFinalizer = false) :
    (a.run s).2.workloads = a.workloads ∧
      (a.run s).2.card =
        a.withFinalizers s .addFinalizer (a.card.finalizers ++ [agentCardFinalizer]) := by
  have hrun : a.run s = (do
      setFinalizers a.env .addFinalizer (· ++ [agentCardFinalizer])
      return ⟨0⟩ : Op Result).runFrom (a.start s) := by
    rw [Round.run, reconcile, runFrom_getCard, if_neg (by simp [hdeleting]),
      if_pos (by rw [hfinalizer]; rfl)]
    rfl
  rw [hrun, runFrom_bind, runFrom_setFinalizers, withFinalizers]
  cases a.env.answer .addFinalizer with
  | none => exact ⟨rfl, rfl⟩
  | some err => exact ⟨rfl, rfl⟩

variable (hdeleting : a.card.deleting = true)

include hdeleting

theorem run_of_deletionTimestamp :
    a.run s = (handleDeletion a.env { a.card with status := s }).runFrom (a.start s) := by
  rw [Round.run, reconcile, runFrom_getCard, if_pos hdeleting]
  rfl

theorem run_of_released (hfinalizer : a.card.finalizers.contains agentCardFinalizer = false) :
    (a.run s).2 = a.start s := by
  rw [run_of_deletionTimestamp hdeleting, handleDeletion]
  rw [if_neg (by simpa using hfinalizer)]
  rfl

theorem run_of_deleting (hfinalizer : a.card.finalizers.contains agentCardFinalizer = true) :
    CleansTo a.env a.card a.workloads (a.run s).2.workloads ∧
      (a.run s).2.card = a.withFinalizers s .removeFinalizer
        (a.card.finalizers.filter (· ≠ agentCardFinalizer)) ∧
      (a.completed s = true ↔ a.env.answer .removeFinalizer = none) := by
  obtain ⟨w, hclean, hcard, hcleans⟩ :=
    runFrom_cleanupPerCardAnno a.env { a.card with status := s } (a.start s)
  have hrun : a.run s = (do
      setFinalizers a.env .removeFinalizer (·.filter (· ≠ agentCardFinalizer))
      return ⟨0⟩ : Op Result).runFrom w := by
    rw [run_of_deletionTimestamp hdeleting, handleDeletion, if_pos hfinalizer, runFrom_bind, hclean]
  rw [completed, hrun, runFrom_bind, runFrom_setFinalizers, withFinalizers]
  cases a.env.answer .removeFinalizer with
  | none => exact ⟨hcleans, by rw [hcard]; rfl, by simp [Except.isOk, Except.toBool, runFrom_pure]⟩
  | some err => exact ⟨hcleans, hcard, by simp [Except.isOk, Except.toBool]⟩

end Round

end Kagenti.Operator.AgentCards
