import Kagenti.Go.StringMap
import Kagenti.Operator.AgentCards.Trust

/-!
The label `signature-verified` of a workload and the per-card annotations that it is computed from
(`propagateLabelToWorkload`, `aggregateVerifiedState` and `cleanupPerCardAnnotation` in
`agentcard_controller.go`). A map that is nil is an empty one here.
-/

namespace Kagenti.Operator.AgentCards

open Go

def labelAgentType : String := "kagenti.io/type"

def labelValueAgent : String := "agent"

def labelSignatureVerified : String := "agent.kagenti.dev/signature-verified"

def annotationLastVerifiedState : String := "agent.kagenti.dev/last-verified-state"

def annotationVerifiedStatePre : String := "verified-state.agent.kagenti.dev/"

structure PodWorkload where
  annotations : StringMap
  templateLabels : StringMap

/-- The kinds that `newPodTemplateAccessor` knows. -/
inductive PodKind where
  | deployment
  | statefulSet
  deriving DecidableEq

def podKind (kind : String) : Option PodKind :=
  if kind = "Deployment" then some .deployment
  else if kind = "StatefulSet" then some .statefulSet
  else none

structure WorkloadKey where
  kind : PodKind
  ns : String
  name : String
  deriving DecidableEq

abbrev Workloads := AList fun _ : WorkloadKey => PodWorkload

def perCardAnno (cardName : String) : String := annotationVerifiedStatePre ++ cardName

/-- True only when there are per-card annotations and all of them are `"true"`. -/
def aggregateVerifiedState (annotations : StringMap) : Bool :=
  let states := annotations.entries.filter fun e => hasPrefix e.1 annotationVerifiedStatePre
  !states.isEmpty && states.all fun e => e.2 = "true"

def labelled (annotations templateLabels : StringMap) : PodWorkload where
  annotations := annotations
  templateLabels :=
    if aggregateVerifiedState annotations then templateLabels.insert labelSignatureVerified "true"
    else templateLabels.erase labelSignatureVerified

def labelCorrect (w : PodWorkload) : Bool :=
  if aggregateVerifiedState w.annotations then w.templateLabels.value labelSignatureVerified = "true"
  else w.templateLabels.value labelSignatureVerified = ""

def desiredState (verified : Bool) : String := if verified then "true" else "false"

/-- The workload that `propagateLabelToWorkload` writes, if it writes one. -/
def propagated (cardName : String) (verified : Bool) (w : PodWorkload) : Option PodWorkload :=
  if w.annotations.value (perCardAnno cardName) = desiredState verified ∧ labelCorrect w then none
  else
    some (labelled ((w.annotations.insert (perCardAnno cardName) (desiredState verified)).erase
      annotationLastVerifiedState) w.templateLabels)

/-- The workload that `cleanupPerCardAnnotation` writes, if it writes one. -/
def cleaned (cardName : String) (w : PodWorkload) : Option PodWorkload :=
  match w.annotations.lookup (perCardAnno cardName) with
  | none => none
  | some _ => some (labelled (w.annotations.erase (perCardAnno cardName)) w.templateLabels)

/-! What the annotations and the label say -/

namespace PodWorkload

def stateOf (w : PodWorkload) (cardName : String) : Option String :=
  w.annotations.lookup (perCardAnno cardName)

def HasLabel (w : PodWorkload) : Prop :=
  w.templateLabels.lookup labelSignatureVerified = some "true"

/-- The label is there exactly if the annotations call for it. -/
def Consistent (w : PodWorkload) : Prop :=
  w.HasLabel ↔ aggregateVerifiedState w.annotations = true

end PodWorkload

theorem hasPrefix_iff {s pre : String} : hasPrefix s pre = true ↔ ∃ rest, s = pre ++ rest := by
  rw [hasPrefix, List.isPrefixOf_iff_prefix]
  constructor
  · rintro ⟨rest, hrest⟩
    refine ⟨String.ofList rest, String.toList_injective ?_⟩
    rw [← hrest]
    simp
  · rintro ⟨rest, rfl⟩
    exact ⟨rest.toList, by simp⟩

theorem perCardAnno_injective : Function.Injective perCardAnno := by
  intro name name' heq
  have hlist := congrArg String.toList heq
  simp only [perCardAnno, String.toList_append] at hlist
  exact String.toList_injective (List.append_cancel_left hlist)

variable (cardName : String)

theorem perCardAnno_ne_lastVerifiedState : perCardAnno cardName ≠ annotationLastVerifiedState := by
  intro heq
  have hpre : hasPrefix annotationLastVerifiedState annotationVerifiedStatePre = true :=
    hasPrefix_iff.mpr ⟨cardName, heq.symm⟩
  exact absurd hpre (by decide)

theorem aggregateVerifiedState_iff {annotations : StringMap} :
    aggregateVerifiedState annotations = true ↔
      (∃ cardName state, annotations.lookup (perCardAnno cardName) = some state) ∧
        ∀ cardName state, annotations.lookup (perCardAnno cardName) = some state →
          state = "true" := by
  have hmem (e : Sigma fun _ : String => String) :
      e ∈ (annotations.entries.filter fun e => hasPrefix e.1 annotationVerifiedStatePre) ↔
        ∃ cardName, e.1 = perCardAnno cardName ∧ annotations.lookup e.1 = some e.2 := by
    rw [List.mem_filter, hasPrefix_iff, ← AList.mem_lookup_iff (a := e.1), Option.mem_def,
      exists_and_right, and_comm]
    rfl
  simp only [aggregateVerifiedState, Bool.and_eq_true, Bool.not_eq_true', List.all_eq_true,
    decide_eq_true_eq]
  refine and_congr ?_ ?_
  · simp_all
  · constructor
    · intro hall cardName state hlookup
      exact hall ⟨perCardAnno cardName, state⟩ ((hmem _).mpr ⟨cardName, rfl, hlookup⟩)
    · grind

/-! What the writes do -/

theorem consistent_labelled (annotations templateLabels : StringMap) :
    (labelled annotations templateLabels).Consistent := by
  unfold PodWorkload.Consistent PodWorkload.HasLabel labelled
  split_ifs with haggregated
  · simp [haggregated]
  · simp [haggregated]

def propagatedTo (cardName : String) (verified : Bool) (w : PodWorkload) : PodWorkload :=
  (propagated cardName verified w).getD w

theorem lookup_of_value {m : StringMap} {key value : String} (hne : value ≠ "")
    (h : m.value key = value) : m.lookup key = some value := by
  rw [StringMap.value] at h
  cases hlookup : m.lookup key with
  | none =>
    rw [hlookup] at h
    exact absurd h.symm hne
  | some found =>
    rw [hlookup] at h
    exact congrArg some h

theorem stateOf_propagatedTo (verified : Bool) (w : PodWorkload)
    (name : String) :
    (propagatedTo cardName verified w).stateOf name =
      if name = cardName then some (desiredState verified) else w.stateOf name := by
  unfold propagatedTo propagated PodWorkload.stateOf
  split
  next hnothing =>
    rw [Option.getD_none]
    split
    next heq =>
      rw [heq]
      refine lookup_of_value ?_ hnothing.1
      cases verified <;> simp [desiredState]
    · rfl
  · rw [Option.getD_some]
    change ((w.annotations.insert (perCardAnno cardName) (desiredState verified)).erase
      annotationLastVerifiedState).lookup (perCardAnno name) = _
    rw [Lib.Entries.lookup_erase, if_neg (perCardAnno_ne_lastVerifiedState name),
      Lib.Entries.lookup_insert]
    simp only [perCardAnno_injective.eq_iff]

theorem consistent_propagatedTo (verified : Bool) (w : PodWorkload) :
    (propagatedTo cardName verified w).Consistent := by
  unfold propagatedTo propagated
  split
  next hnothing =>
    obtain ⟨-, hcorrect⟩ := hnothing
    rw [Option.getD_none]
    unfold labelCorrect at hcorrect
    unfold PodWorkload.Consistent PodWorkload.HasLabel
    split_ifs at hcorrect with haggregated
    · exact iff_of_true (lookup_of_value (by simp) (by simpa using hcorrect)) haggregated
    · refine iff_of_false (fun hlabel => ?_) haggregated
      simp [StringMap.value, hlabel] at hcorrect
  · exact consistent_labelled _ _

def cleanedOf (cardName : String) (w : PodWorkload) : PodWorkload := (cleaned cardName w).getD w

theorem stateOf_cleanedOf (w : PodWorkload) (name : String) :
    (cleanedOf cardName w).stateOf name = if name = cardName then none else w.stateOf name := by
  unfold cleanedOf cleaned PodWorkload.stateOf
  cases hstate : w.annotations.lookup (perCardAnno cardName) with
  | none =>
    rw [Option.getD_none]
    split
    next heq => rw [heq, hstate]
    · rfl
  | some state =>
    rw [Option.getD_some]
    change (w.annotations.erase (perCardAnno cardName)).lookup (perCardAnno name) = _
    rw [Lib.Entries.lookup_erase]
    simp only [perCardAnno_injective.eq_iff]

theorem consistent_cleanedOf {w : PodWorkload} (hw : w.Consistent) :
    (cleanedOf cardName w).Consistent := by
  unfold cleanedOf cleaned
  split
  · exact hw
  · exact consistent_labelled _ _

end Kagenti.Operator.AgentCards
