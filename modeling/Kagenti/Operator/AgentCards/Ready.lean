import Kagenti.Operator.AgentCards.Freshness

/-!
The condition Ready over all statuses that the reconciles of an AgentCard persist. The comment on
it reads "Ready = Synced AND (Verified is True OR Verified was never evaluated)".
`updateAgentCardStatus` computes it that way, with a condition Verified that is absent for one that
was never evaluated, but `updateCondition`, with which a reconcile that does not get as far as the
card reports a failed sync, writes Synced alone.
-/

namespace Kagenti.Operator.AgentCards

open Lib Lib.Fallible

namespace AgentCardStatus

variable (s : AgentCardStatus)

def isTrue (type : String) : Bool :=
  (s.findCondition type).any fun c => c.status = .conditionTrue

def ReadyOk : Prop :=
  s.isTrue "Ready" = true → s.isTrue "Synced" = true ∧
    ((s.findCondition conditionVerified).all fun c => c.status = .conditionTrue) = true

instance : Decidable s.ReadyOk := inferInstanceAs (Decidable (_ → _))

variable {s} {now : Int} {new : NewCondition}

theorem isTrue_setCondition_ne {type : String} (hne : type ≠ new.type) :
    (s.setCondition now new).isTrue type = s.isTrue type := by
  unfold isTrue
  rw [show (s.setCondition now new).findCondition type = s.findCondition type from find_set_ne hne]

theorem isTrue_setCondition_self :
    (s.setCondition now new).isTrue new.type = decide (new.status = .conditionTrue) := by
  have hfind : ((s.setCondition now new).findCondition new.type).map Condition.untimed = some new :=
    find_set_self
  obtain ⟨c, hc, rfl⟩ := Option.map_eq_some_iff.mp hfind
  rw [isTrue, hc]
  rfl

theorem readyOk_of_not_ready (h : s.isTrue "Ready" = false) : s.ReadyOk := by
  simp [ReadyOk, h]

theorem readyOk_applyBinding (h : s.ReadyOk) (binding : BindingResult) :
    (s.applyBinding now binding).ReadyOk := by
  have hfind (type : String) (hne : type ≠ "Bound") :
      (s.applyBinding now binding).findCondition type = s.findCondition type := find_set_ne hne
  simpa [ReadyOk, isTrue, hfind, conditionVerified] using h

theorem readyOk_cleanedUp (h : s.ReadyOk) : s.cleanedUp.ReadyOk := by
  have hfind (type : String) (hne : type ≠ conditionVerified) :
      s.cleanedUp.findCondition type = s.findCondition type := find_remove_ne hne
  have hverified : s.cleanedUp.findCondition conditionVerified = none := find_remove_self
  intro hready
  rw [isTrue, hfind _ (by decide)] at hready
  rw [isTrue, hfind _ (by decide), hverified]
  exact ⟨(h hready).1, rfl⟩

theorem readyOk_setReady : (s.setCondition now s.readyCondition).ReadyOk := by
  have hself := @isTrue_setCondition_self s now s.readyCondition
  have hfind (type : String) (hne : type ≠ "Ready") :
      (s.setCondition now s.readyCondition).findCondition type = s.findCondition type :=
    find_set_ne (by rwa [readyCondition_type])
  rw [readyCondition_type] at hself
  intro hready
  rw [isTrue, hfind _ (by decide), hfind _ (by decide)]
  rw [hself, decide_eq_true_eq, readyCondition] at hready
  split_ifs at hready with hsynced hverified
  exact ⟨hsynced, hverified⟩

theorem readyOk_updated {r : AgentCardReconciler} {cardData : Signature.AgentCardData}
    {protocol cardID : String} {targetRef : TargetRef} {trust : TrustEvaluation}
    {sigstore : Option BundleVerificationResult} :
    (s.updated now r cardData protocol cardID targetRef trust sigstore).ReadyOk := by
  unfold updated
  extract_lets s₁ s₂ s₃ s₄ s₅ s₆ s₇
  change s₇.ReadyOk
  cases hb : trust.binding with
  | none =>
    simp only [s₇, hb]
    exact readyOk_setReady
  | some binding =>
    simp only [s₇, hb]
    exact readyOk_applyBinding readyOk_setReady binding

end AgentCardStatus

open AgentCardStatus

/-! The statuses that a round persists -/

structure Persisted (Q : AgentCardStatus → Prop) (w : World) : Prop where
  status : Q w.card.status
  written : ∀ t ∈ w.written, t.ReadyOk

/-- Ready cannot be true where the write of Synced is going to be accepted. -/
def Guarded (env : Env) (s : AgentCardStatus) : Prop :=
  s.ReadyOk ∧ (env.answer .synced = none → s.isTrue "Ready" = false)

section Writes

variable {r : AgentCardReconciler} {env : Env} {w : World} {write : Write}
  {Q : AgentCardStatus → Prop} {t : AgentCardStatus} {f : AgentCardStatus → AgentCardStatus}

theorem Persisted.persist (h : Persisted Q w) (ht : Q t) (hok : t.ReadyOk) :
    Persisted Q (w.persist t) :=
  ⟨ht, List.forall_mem_append.mpr ⟨h.written, List.forall_mem_singleton.mpr hok⟩⟩

theorem keeps_guarded (hf : env.answer write = none → ∀ s, Guarded env s → Guarded env (f s)) :
    Keeps (Persisted (Guarded env)) (writeStatus env write f) := by
  refine .access fun w hw => ?_
  cases hwrite : env.answer write with
  | none => exact hw.persist (hf hwrite _ hw.status) (hf hwrite _ hw.status).1
  | some err => exact hw

theorem keeps_not_readyOk :
    Keeps (fun w => ∃ t ∈ w.written, ¬ t.ReadyOk) (writeStatus env write f) := by
  refine .access fun w ⟨t, ht, hbad⟩ => ?_
  cases env.answer write with
  | none => exact ⟨t, List.mem_append_left _ ht, hbad⟩
  | some err => exact ⟨t, ht, hbad⟩

theorem Guarded.of_not_ready (h : t.isTrue "Ready" = false) : Guarded env t :=
  ⟨readyOk_of_not_ready h, fun _ => h⟩

theorem Guarded.setCondition {new : NewCondition} (hne : "Ready" ≠ new.type)
    (haccepted : env.answer .synced = none) (h : Guarded env t) :
    Guarded env (t.setCondition env.now new) :=
  .of_not_ready ((isTrue_setCondition_ne hne).trans (h.2 haccepted))

theorem Guarded.applyBinding (h : Guarded env t) (binding : BindingResult) :
    Guarded env (t.applyBinding env.now binding) :=
  ⟨readyOk_applyBinding h.1 binding, fun haccepted =>
    (isTrue_setCondition_ne (by simp)).trans (h.2 haccepted)⟩

end Writes

namespace Round

variable {a : Round} {s : AgentCardStatus}

/-- The round writes Synced=False into a status in which Ready is true. -/
structure LeavesReady (a : Round) (s : AgentCardStatus) : Prop where
  ready : s.isTrue "Ready" = true
  live : Live a.card
  unfetched : a.fetched = none
  accepted : a.env.answer .synced = none

theorem unfetched_answer (hlive : Live a.card) (h : a.fetched = none) (x : Reached)
    (fetched : FetchResult) (hx : reached a.env a.card = some x) :
    fetchAnswer a.reconciler a.card x ≠ .ok fetched := by
  intro hanswer
  rw [fetched_eq_some.mpr ⟨hlive, hx, hanswer⟩] at h
  cases h

theorem run_of_live (hlive : Live a.card) :
    a.run s = (reconcileCard a.reconciler a.env (a.start s).card).runFrom (a.start s) :=
  @reconcile_live a.reconciler a.env (a.start s) hlive

theorem not_readyOk_of_leavesReady (h : a.LeavesReady s) : ∃ t ∈ a.persisted s, ¬ t.ReadyOk := by
  rw [persisted, run_of_live h.live]
  refine Satisfies.always (P := fun w => w.card.status = s)
    (satisfies_unfetched (unfetched_answer h.live h.unfetched) ?_ (fun _ => keeps_not_readyOk)
      (fun _ _ _ => keeps_not_readyOk) fun _ _ => keeps_not_readyOk) rfl
  intro reason message
  refine ⟨fun w hw => ?_⟩
  rw [updateCondition, writeStatus_accepted h.accepted, hw]
  refine ⟨_, List.mem_append_right _ (List.mem_singleton_self _), fun hok => ?_⟩
  have hsynced := (hok (Eq.trans (isTrue_setCondition_ne (by simp)) h.ready)).1
  cases isTrue_setCondition_self.symm.trans hsynced

theorem persisted_of_unfetched (hlive : Live a.card) (h : a.fetched = none)
    (hs : Guarded a.env s) : Persisted ReadyOk (a.run s).2 := by
  have hkeeps : Keeps (Persisted (Guarded a.env))
      (reconcileCard a.reconciler a.env (a.start s).card) := by
    refine satisfies_unfetched (unfetched_answer hlive h) ?_ ?_ ?_ ?_
    · exact fun _ _ => keeps_guarded fun haccepted _ => Guarded.setCondition (by simp) haccepted
    · exact fun binding => keeps_guarded fun _ _ hs => hs.applyBinding binding
    · exact fun _ _ haccepted => keeps_guarded fun _ _ =>
        Guarded.setCondition (by simp [conditionVerified]) haccepted
    · exact fun _ _ => keeps_guarded fun _ _ _ => .of_not_ready isTrue_setCondition_self
  rw [run_of_live hlive]
  obtain ⟨hstatus, hwritten⟩ := hkeeps.runFrom (s := a.start s) ⟨hs, by simp [start]⟩
  exact ⟨hstatus.1, hwritten⟩

theorem persisted_of_unwritten {w w' : World} (h : Unwritten w w') (hw : Persisted ReadyOk w) :
    Persisted ReadyOk w' := by
  constructor
  · rw [h.1]
    exact hw.status
  · rw [h.2]
    exact hw.written

theorem persisted_of_fetched {x : Reached} {fetched : FetchResult}
    (h : a.fetched = some (x, fetched)) (hs : s.ReadyOk) : Persisted ReadyOk (a.run s).2 := by
  have hstart : Persisted ReadyOk (a.start s) := ⟨hs, by simp [start]⟩
  have hfetch : Persisted ReadyOk (afterFetch a.reconciler a.env x (a.start s)) := by
    unfold afterFetch
    split
    · exact hstart.persist (readyOk_cleanedUp hs) (readyOk_cleanedUp hs)
    · exact hstart
  cases hstatus : a.env.answer .status with
  | some err =>
    rw [run_of_refused h hstatus]
    exact hfetch
  | none =>
    refine persisted_of_unwritten (unwritten_of_accepted h hstatus) ?_
    exact hfetch.persist readyOk_updated readyOk_updated

theorem persisted_of_not_leavesReady (hs : s.ReadyOk) (h : ¬ a.LeavesReady s) :
    Persisted ReadyOk (a.run s).2 := by
  by_cases hlive : Live a.card
  · cases hfetched : a.fetched with
    | some found => exact persisted_of_fetched hfetched hs
    | none =>
      refine persisted_of_unfetched hlive hfetched ⟨hs, fun haccepted => ?_⟩
      by_contra hready
      exact h ⟨by simpa using hready, hlive, hfetched, haccepted⟩
  · exact persisted_of_unwritten (@reconcile_not_live a.reconciler a.env (a.start s) hlive)
      ⟨hs, by simp [start]⟩

/-- Over the reconciles of a card that starts without a status, Ready is true in a persisted
status only together with Synced, and with Verified where that is set, exactly if none of the
reconciles reports a failed sync while Ready is true. -/
theorem ready_implies_synced_iff (rounds : List Round) :
    (∀ v ∈ visits .empty rounds, ∀ t ∈ v.1.persisted v.2, t.ReadyOk) ↔
      ∀ v ∈ visits .empty rounds, ¬ v.1.LeavesReady v.2 := by
  suffices ∀ s : AgentCardStatus, s.ReadyOk →
      ((∀ v ∈ visits s rounds, ∀ t ∈ v.1.persisted v.2, t.ReadyOk) ↔
        ∀ v ∈ visits s rounds, ¬ v.1.LeavesReady v.2) from this .empty (by decide)
  induction rounds with
  | nil => simp [visits]
  | cons a as ih =>
    intro s hs
    simp only [visits, List.forall_mem_cons]
    by_cases hleaves : a.LeavesReady s
    · obtain ⟨t, ht, hbad⟩ := not_readyOk_of_leavesReady hleaves
      exact iff_of_false (fun h => hbad (h.1 t ht)) fun h => h.1 hleaves
    · have hround := persisted_of_not_leavesReady hs hleaves
      rw [and_iff_right hleaves, ← ih (a.after s) hround.status]
      exact and_iff_right hround.written

/-- The card is synced and ready; then its fetch fails. Between the writes of Synced and of
Ready the status has Ready=True and Synced=False. -/
theorem ready_outlives_synced : ∃ v ∈ visits .empty
      [mTLSRound (.ok ⟨weatherCardData, "spiffe://cluster.local/ns/default/sa/weather", []⟩),
        mTLSRound (.error "connection refused")],
    ∃ t ∈ v.1.persisted v.2, t.isTrue "Ready" = true ∧ t.isTrue "Synced" = false := by
  decide +kernel

end Round

end Kagenti.Operator.AgentCards
