import Mathlib.Algebra.Group.Nat.Defs

/-!
The names of the containers that the webhook adds, and its search for free ports
(`internal/webhook/injector/pod_mutator.go`).
-/

namespace Kagenti.Operator.Injector

def authBridgeProxyContainerName : String := "authbridge-proxy"

def envoyProxyContainerName : String := "envoy-proxy"

def proxyInitContainerName : String := "proxy-init"

/-! The search for free ports -/

def nextFree (usedPorts : List Int) (p : Int) : Int :=
  if p ∈ usedPorts ∧ p ≤ 65535 then nextFree usedPorts (p + 1) else p
termination_by (65536 - p).toNat

/-- The first free port from `start` on, which is then in use. -/
def findFreePort (usedPorts : List Int) (start : Int) : Except String (Int × List Int) :=
  let p := nextFree usedPorts start
  if p > 65535 then
    .error ("proxy-sidecar port assignment: no free port available starting from " ++
      toString start)
  else .ok (p, p :: usedPorts)

theorem findFreePort_ok {p : Int} {used used' : List Int} {start : Int}
    (h : findFreePort used start = .ok (p, used')) :
    nextFree used start = p ∧ p ≤ 65535 ∧ used' = p :: used := by
  simp only [findFreePort] at h
  split at h
  · cases h
  next hle =>
    cases h
    exact ⟨rfl, Int.not_lt.mp hle, rfl⟩

/-- A free port from `start` on and below `limit`. -/
def Room (usedPorts : List Int) (start limit : Int) : Prop :=
  ∃ p, start ≤ p ∧ p < limit ∧ p ∉ usedPorts

section Search

variable {usedPorts : List Int} {start q : Int}

theorem le_nextFree : start ≤ nextFree usedPorts start := by
  fun_induction nextFree usedPorts start with
  | case1 p hused ih => omega
  | case2 p hfree => exact Int.le_refl p

theorem mem_of_lt_nextFree (hle : start ≤ q) (hlt : q < nextFree usedPorts start) :
    q ∈ usedPorts := by
  fun_induction nextFree usedPorts start with
  | case1 p hused ih => grind
  | case2 p hfree => omega

theorem nextFree_not_mem (hle : nextFree usedPorts start ≤ 65535) :
    nextFree usedPorts start ∉ usedPorts := by
  fun_induction nextFree usedPorts start with
  | case1 p hused ih => exact ih hle
  | case2 p hfree => exact fun hmem => hfree ⟨hmem, hle⟩

theorem nextFree_ne_iff (hle : nextFree usedPorts start ≤ 65535) (hq : q ∉ usedPorts) :
    nextFree usedPorts start ≠ q ↔ q < start ∨ Room usedPorts start q := by
  constructor
  · intro hne
    rcases Int.lt_or_le q start with hlt | hge
    · exact .inl hlt
    · right
      have hbefore : nextFree usedPorts start < q := by
        have hnot : ¬ q < nextFree usedPorts start := fun hlt => hq (mem_of_lt_nextFree hge hlt)
        omega
      exact ⟨_, le_nextFree, hbefore, nextFree_not_mem hle⟩
  · rintro (hlt | ⟨p, hstart, hlt, hfree⟩) heq
    · have hge : start ≤ nextFree usedPorts start := le_nextFree
      omega
    · rw [← heq] at hlt
      exact hfree (mem_of_lt_nextFree hstart hlt)

end Search

def nextPort (p : Int) : Int := Int.bmod (p + 1) (2 ^ 32)

end Kagenti.Operator.Injector
