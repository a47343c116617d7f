import Kagenti.Lib.Entries
import Kagenti.Operator.Signature.Card

/-!
The AgentCard resource (`agentcard_types.go`) and its conditions, with the functions of
`k8s.io/apimachinery/pkg/api/meta` that read and write them. A condition's observed generation,
which the controllers leave at zero, is left out.
-/

namespace Kagenti.Operator.AgentCards

open Signature

inductive ConditionStatus where
  | conditionTrue
  | conditionFalse
  | conditionUnknown
  deriving DecidableEq

structure Condition where
  type : String
  status : ConditionStatus
  reason : String
  message : String
  lastTransitionTime : Int
  deriving DecidableEq

structure NewCondition where
  type : String
  status : ConditionStatus
  reason : String
  message : String
  deriving DecidableEq

def NewCondition.stamped (c : NewCondition) (lastTransitionTime : Int) : Condition :=
  ⟨c.type, c.status, c.reason, c.message, lastTransitionTime⟩

def Condition.untimed (c : Condition) : NewCondition := ⟨c.type, c.status, c.reason, c.message⟩

def findStatusCondition (conditions : List Condition) (type : String) : Option Condition :=
  conditions.find? fun c => c.type = type

/-- `meta.SetStatusCondition`. The time changes only with the status. -/
def setStatusCondition (now : Int) (conditions : List Condition) (new : NewCondition) :
    List Condition :=
  match conditions with
  | [] => [new.stamped now]
  | c :: cs =>
    if c.type = new.type then
      new.stamped (if c.status = new.status then c.lastTransitionTime else now) :: cs
    else c :: setStatusCondition now cs new

def removeStatusCondition (conditions : List Condition) (type : String) : List Condition :=
  conditions.filter fun c => c.type ≠ type

section Conditions

variable {now : Int} {conditions : List Condition} {new : NewCondition} {type : String}

theorem find_set_self :
    (findStatusCondition (setStatusCondition now conditions new) new.type).map Condition.untimed =
      some new := by
  have huntimed (time : Int) : (new.stamped time).untimed = new := rfl
  have htype (time : Int) : (new.stamped time).type = new.type := rfl
  induction conditions with
  | nil => simp [findStatusCondition, setStatusCondition, huntimed, htype]
  | cons c cs ih =>
    by_cases hc : c.type = new.type
    · simp [findStatusCondition, setStatusCondition, hc, huntimed, htype]
    · rw [setStatusCondition, if_neg hc, findStatusCondition,
        List.find?_cons_of_neg (by simpa using hc)]
      exact ih

theorem find_set_ne (hne : type ≠ new.type) :
    findStatusCondition (setStatusCondition now conditions new) type =
      findStatusCondition conditions type := by
  have hnew (time : Int) : ¬ (new.stamped time).type = type := fun heq => hne heq.symm
  induction conditions with
  | nil => simp [findStatusCondition, setStatusCondition, hnew]
  | cons c cs ih =>
    by_cases hc : c.type = new.type
    · simp [findStatusCondition, setStatusCondition, hc, hnew, hne.symm]
    · rw [setStatusCondition, if_neg hc]
      simp only [findStatusCondition, List.find?_cons] at ih ⊢
      rw [ih]

theorem find_remove_self : findStatusCondition (removeStatusCondition conditions type) type = none := by
  simp [findStatusCondition, removeStatusCondition]

theorem find_remove_ne {other : String} (hne : type ≠ other) :
    findStatusCondition (removeStatusCondition conditions other) type =
      findStatusCondition conditions type := by
  rw [findStatusCondition, removeStatusCondition, List.find?_filter]
  congr 1
  funext c
  by_cases hc : c.type = type
  · simp [hc, hne]
  · simp [hc]

end Conditions

/-! The resource -/

structure TargetRef where
  apiVersion : String
  kind : String
  name : String
  deriving DecidableEq

structure IdentityBinding where
  trustDomain : String
  strict : Bool
  deriving DecidableEq

structure SigstoreVerification where
  certificateIdentity : String
  certificateOIDCIssuer : String
  deriving DecidableEq

structure AgentCardSpec where
  syncPeriod : String
  targetRef : Option TargetRef
  identityBinding : Option IdentityBinding
  sigstoreVerification : Option SigstoreVerification
  deriving DecidableEq

structure BindingStatus where
  bound : Bool
  reason : String
  message : String
  lastEvaluationTime : Option Int
  deriving DecidableEq

structure AgentCardStatus where
  card : Option AgentCardData
  conditions : List Condition
  lastSyncTime : Option Int
  protocol : String
  targetRef : Option TargetRef
  validSignature : Option Bool
  signatureVerificationDetails : String
  signatureKeyID : String
  signatureSpiffeID : String
  signatureIdentityMatch : Option Bool
  cardId : String
  attestedAgentSpiffeID : String
  expectedSpiffeID : String
  bindingStatus : Option BindingStatus
  sigstoreBundleVerified : Option Bool
  sigstoreIdentity : String
  rekorLogIndex : String
  slsaRepository : String
  slsaCommitSHA : String

/-- The status of an AgentCard that no reconcile has written yet. -/
def AgentCardStatus.empty : AgentCardStatus where
  card := none
  conditions := []
  lastSyncTime := none
  protocol := ""
  targetRef := none
  validSignature := none
  signatureVerificationDetails := ""
  signatureKeyID := ""
  signatureSpiffeID := ""
  signatureIdentityMatch := none
  cardId := ""
  attestedAgentSpiffeID := ""
  expectedSpiffeID := ""
  bindingStatus := none
  sigstoreBundleVerified := none
  sigstoreIdentity := ""
  rekorLogIndex := ""
  slsaRepository := ""
  slsaCommitSHA := ""

structure AgentCard where
  name : String
  ns : String
  -- whether the deletion timestamp is set
  deleting : Bool
  finalizers : List String
  spec : AgentCardSpec
  status : AgentCardStatus

/-- The condition type on which the controllers decide. -/
def conditionVerified : String := "Verified"

/-- The status has the condition Verified with the status True. -/
def AgentCardStatus.isVerified (status : AgentCardStatus) : Bool :=
  match findStatusCondition status.conditions conditionVerified with
  | none => false
  | some c => c.status = .conditionTrue

/-! The cards of a cluster -/

abbrev CardKey := String × String

def AgentCard.key (card : AgentCard) : CardKey := (card.ns, card.name)

abbrev Cards := AList fun _ : CardKey => AgentCard

/-- A card that is being deleted goes with its last finalizer. -/
def Cards.store (cards : Cards) (k : CardKey) (card : AgentCard) : Cards :=
  if card.deleting && card.finalizers.isEmpty then cards.erase k else cards.insert k card

theorem Cards.lookup_store (cards : Cards) (k : CardKey) (card : AgentCard) (k' : CardKey) :
    (cards.store k card).lookup k' =
      if k' = k then if card.deleting && card.finalizers.isEmpty then none else some card
      else cards.lookup k' := by
  unfold store
  split_ifs <;> simp_all [Lib.Entries.lookup_insert, Lib.Entries.lookup_erase]

end Kagenti.Operator.AgentCards
