import Kagenti.Operator.Webhook.Handler

/-!
Which workload a pod belongs to, in the two ways of `ResolveOwner` and `IsPodOwnedBy`
(`internal/workload/owner.go`).
-/

namespace Kagenti.Operator.Webhook

open Go

variable {labels : Option StringMap} {ref : OwnerReference}

theorem findSome_of_controller {refs : List OwnerReference} {info : OwnerInfo}
    (controller : refs.find? (fun ref => ref.controller = some true) = some ref)
    (known : ownerOfReference labels ref = some info) :
    refs.findSome? (ownerOfReference labels) = some info := by
  obtain ⟨-, before, behind, rfl, others⟩ := List.find?_eq_some_iff_append.mp controller
  have unknown : before.findSome? (ownerOfReference labels) = none :=
    List.findSome?_eq_none_iff.mpr fun r member => if_pos (by simpa using others r member)
  rw [List.findSome?_append, unknown, List.findSome?_cons, known]
  rfl

theorem cutSuffix_eq_some_iff {s suffix front : String} :
    cutSuffix s suffix = some front ↔ s = front ++ suffix := by
  rw [cutSuffix, Option.ite_none_right_eq_some, Option.some.injEq]
  constructor
  · rintro ⟨⟨front, split⟩, rfl⟩
    exact String.toList_inj.mp (by simp [← split])
  · rintro rfl
    exact ⟨⟨front.toList, by simp⟩, by simp⟩

theorem deploymentName_eq_iff {rsName name : String} (filled : name ≠ "") :
    deploymentNameFromReplicaSet rsName labels = name ↔
      labelValue labels podTemplateHashLabel ≠ "" ∧
        rsName = name ++ "-" ++ labelValue labels podTemplateHashLabel := by
  unfold deploymentNameFromReplicaSet withoutTemplateHash
  rw [String.append_assoc, ← cutSuffix_eq_some_iff]
  dsimp only
  split
  next none => simp [none, filled.symm]
  next hashed => cases cutSuffix rsName _ <;> simp [hashed, filled.symm]

def ownedThrough (ref : OwnerReference) (workloadName : String) : Bool :=
  if ref.kind = "ReplicaSet" then
    (beforeLast '-' ref.name.toList).any fun name => name ≠ [] ∧ name = workloadName.toList
  else (ref.kind = "StatefulSet" || ref.kind = "Sandbox") && ref.name = workloadName

def isPodOwnedBy (pod : Pod) (workloadName : String) : Bool :=
  pod.ownerReferences.any fun ref => ref.controller = some true && ownedThrough ref workloadName

structure SoleController (pod : Pod) where
  ref : OwnerReference
  one : pod.ownerReferences.filter (fun ref => ref.controller = some true) = [ref]
  kind : ref.kind = "ReplicaSet" ∨ ref.kind = "StatefulSet" ∨ ref.kind = "Sandbox"

/-- The name of a `ReplicaSet` is that of a deployment, a dash and the template hash of the pod,
which has no dash in it. -/
def HashedName (rsName : String) (labels : Option StringMap) : Prop :=
  let hash := labelValue labels podTemplateHashLabel
  hash ≠ "" ∧ '-' ∉ hash.toList ∧ ∃ name ≠ "", rsName = name ++ "-" ++ hash

variable {pod : Pod}

namespace SoleController

variable (sole : SoleController pod)

theorem isPodOwnedBy_eq (n : String) : isPodOwnedBy pod n = ownedThrough sole.ref n := by
  rw [isPodOwnedBy, ← List.any_filter, sole.one]
  simp

theorem controller : sole.ref.controller = some true := by
  have member : sole.ref ∈ pod.ownerReferences.filter (fun ref => ref.controller = some true) := by
    simp [sole.one]
  simpa using (List.mem_filter.mp member).2

theorem resolved {info : OwnerInfo} (known : ownerOfReference pod.labels sole.ref = some info) :
    (resolveOwner pod).name = info.name := by
  have first := findSome_of_controller (by rw [← List.head?_filter, sole.one]; rfl) known
  rw [resolveOwner, first, Option.getD_some]

theorem resolved_deployment (set : sole.ref.kind = "ReplicaSet") {name : String}
    (filled : name ≠ "")
    (cut : deploymentNameFromReplicaSet sole.ref.name pod.labels = name) :
    (resolveOwner pod).name = name :=
  sole.resolved (show ownerOfReference pod.labels sole.ref = some ⟨name, "Deployment"⟩ by
    simp [ownerOfReference, sole.controller, set, cut, filled])

end SoleController

theorem ownedThrough_replicaSet (set : ref.kind = "ReplicaSet") (n : String) :
    ownedThrough ref n = true ↔ n ≠ "" ∧ beforeLast '-' ref.name.toList = some n.toList := by
  rw [ownedThrough, if_pos set]
  cases beforeLast '-' ref.name.toList with
  | none => simp
  | some name =>
    rw [Option.any_some, decide_eq_true_eq, Option.some.injEq]
    exact and_congr_left fun same => by simp [same]

/-- On a pod with one controller, the two functions agree exactly if that is no `ReplicaSet` or one
that is named after the hash in the pod's labels. -/
theorem isPodOwnedBy_iff_resolveOwner_iff (sole : SoleController pod) :
    (∀ n, isPodOwnedBy pod n = true ↔ (resolveOwner pod).name = n) ↔
      (sole.ref.kind = "ReplicaSet" → HashedName sole.ref.name pod.labels) := by
  simp only [sole.isPodOwnedBy_eq]
  by_cases set : sole.ref.kind = "ReplicaSet"
  · simp only [ownedThrough_replicaSet set, set, forall_const]
    constructor
    · intro agree
      obtain ⟨filled, last⟩ := (agree _).mpr rfl
      obtain ⟨back, fresh, split⟩ := exists_of_beforeLast last
      by_cases empty : deploymentNameFromReplicaSet sole.ref.name pod.labels = ""
      · -- the name in front of the last dash is not the whole name
        have whole : ownerOfReference pod.labels sole.ref = some ⟨sole.ref.name, ""⟩ := by
          simp [ownerOfReference, sole.controller, set, empty]
        rw [sole.resolved whole] at split
        simpa using congrArg List.length split
      · obtain ⟨hashed, whole⟩ := (deploymentName_eq_iff empty).mp rfl
        rw [sole.resolved_deployment set empty rfl] at split
        have rest : (labelValue pod.labels podTemplateHashLabel).toList = back := by
          simpa using (congrArg String.toList whole).symm.trans split
        exact ⟨hashed, rest ▸ fresh, _, empty, whole⟩
    · rintro ⟨hashed, dash, name, filled, whole⟩ n
      have last : beforeLast '-' sole.ref.name.toList = some name.toList := by
        rw [whole, String.toList_append, String.toList_append, List.append_assoc]
        exact beforeLast_append dash _
      rw [sole.resolved_deployment set filled ((deploymentName_eq_iff filled).mpr ⟨hashed, whole⟩),
        last, Option.some.injEq, String.toList_inj]
      exact and_iff_right_of_imp fun same => same ▸ filled
  · have direct := sole.kind.resolve_left set
    have known : ownerOfReference pod.labels sole.ref = some ⟨sole.ref.name, sole.ref.kind⟩ := by
      rcases direct with kind | kind <;> simp [ownerOfReference, sole.controller, kind]
    rw [sole.resolved known]
    simp [ownedThrough, set, direct]

def replicaPod (labels : Option StringMap) : Pod :=
  ⟨"web-5d4f-x", "web-5d4f-", "", labels, ∅, [⟨"ReplicaSet", "web-5d4f", some true⟩],
    ⟨"", [], [], [], none⟩⟩

/-- A pod of a ReplicaSet whose name ends in the hash of its label. -/
theorem labelled_owners_agree :
    let pod := replicaPod (some ((∅ : StringMap).insert podTemplateHashLabel "5d4f"))
    isPodOwnedBy pod "web" = true ∧
      ∀ n, isPodOwnedBy pod n = true ↔ (resolveOwner pod).name = n := by
  refine ⟨by decide +kernel, (isPodOwnedBy_iff_resolveOwner_iff ⟨_, rfl, .inl rfl⟩).mpr fun _ => ?_⟩
  exact ⟨by decide +kernel, by decide +kernel, "web", by decide, by decide +kernel⟩

/-- Without the label, `IsPodOwnedBy` cuts off what follows the last dash and `ResolveOwner` does
not. -/
theorem unlabelled_owners_differ :
    Nonempty (SoleController (replicaPod none)) ∧ isPodOwnedBy (replicaPod none) "web" = true ∧
      resolveOwner (replicaPod none) = ⟨"web-5d4f", ""⟩ :=
  ⟨⟨⟨_, rfl, .inl rfl⟩⟩, by decide +kernel⟩

end Kagenti.Operator.Webhook
