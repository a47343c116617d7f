import Kagenti.Lib.Transition
import Mathlib.Data.List.Nodup

/-!
The subscribers of the session store (`Subscribe`, `Close` and `publishLocked` in
`session/store.go`). A step is one access under `mu`, one send of the loop of `publishLocked`, one
receive or one call of `closeCh`. `received` and `offered` are ghosts: what the consumer has got,
and what was appended while the subscriber was in the list. The sessions are left out.
-/

namespace Kagenti.AuthBridge

open Lib.Transition

structure Subscriber (α : Type*) where
  ch : List α
  -- out of the list, with the call of `closeCh` due or made
  left : Bool
  closed : Bool
  drops : Nat
  received : List α
  offered : List α

def subscriberChanBuf : Nat := 64

namespace Subscriber

variable {α : Type*}

def new : Subscriber α := ⟨[], false, false, 0, [], []⟩

/-- The `select` of `publishLocked`. -/
def offer (sub : Subscriber α) (event : α) : Subscriber α :=
  if sub.ch.length < subscriberChanBuf then { sub with ch := sub.ch ++ [event] }
  else { sub with drops := sub.drops + 1 }

def receive (sub : Subscriber α) : Option (Subscriber α) :=
  match sub.ch with
  | [] => none
  | event :: rest => some { sub with ch := rest, received := sub.received ++ [event] }

/-- Of the events offered to the subscriber, all but the last ones `due` are received, buffered
in order or dropped. -/
structure Accounted (due : List α) (sub : Subscriber α) : Prop where
  inOrder : ∃ sent, sub.offered = sent ++ due ∧ (sub.received ++ sub.ch).Sublist sent
  counts : sub.received.length + sub.ch.length + sub.drops + due.length = sub.offered.length

variable {sub sub' : Subscriber α} {due : List α} {event : α}

theorem offer_marks (event : α) :
    (sub.offer event).left = sub.left ∧ (sub.offer event).closed = sub.closed := by
  unfold offer
  split <;> exact ⟨rfl, rfl⟩

theorem receive_marks (h : sub.receive = some sub') :
    sub'.left = sub.left ∧ sub'.closed = sub.closed := by
  unfold receive at h
  split at h <;> cases h
  exact ⟨rfl, rfl⟩

theorem Accounted.mark (h : Accounted due sub) (left closed : Bool) :
    Accounted due { sub with left, closed } :=
  ⟨h.inOrder, h.counts⟩

theorem Accounted.announce (h : Accounted [] sub) (event : α) :
    Accounted [event] { sub with offered := sub.offered ++ [event] } := by
  obtain ⟨⟨sent, hoffered, hsub⟩, hcounts⟩ := h
  refine ⟨⟨sub.offered, rfl, ?_⟩, by simpa using hcounts⟩
  rwa [hoffered, List.append_nil]

theorem Accounted.offer (h : Accounted [event] sub) : Accounted [] (sub.offer event) := by
  obtain ⟨⟨sent, hoffered, hsub⟩, hcounts⟩ := h
  unfold Subscriber.offer
  split
  · refine ⟨⟨sub.offered, by simp, ?_⟩, by simp at hcounts ⊢; omega⟩
    rw [hoffered, ← List.append_assoc]
    exact hsub.append_right [event]
  · refine ⟨⟨sub.offered, by simp, ?_⟩, by simp at hcounts ⊢; omega⟩
    rw [hoffered]
    exact hsub.trans (List.sublist_append_left sent [event])

theorem Accounted.receive (h : Accounted due sub) (hreceive : sub.receive = some sub') :
    Accounted due sub' := by
  obtain ⟨⟨sent, hoffered, hsub⟩, hcounts⟩ := h
  unfold Subscriber.receive at hreceive
  split at hreceive <;> cases hreceive
  next event rest hch =>
    rw [hch] at hsub hcounts
    refine ⟨⟨sent, hoffered, by simpa using hsub⟩, ?_⟩
    simp at hcounts ⊢
    omega

end Subscriber

structure FanOut (α : Type*) where
  subs : Nat → Subscriber α
  next : Nat
  subscribers : List Nat
  -- the event of `publishLocked` and the rest of its loop, while it holds `mu`
  publishing : Option (α × List Nat)
  closeOnce : Bool
  sentOnClosed : Bool

inductive FanOutOp (α : Type*) where
  | subscribe
  | append (event : α)
  | send
  | receive (i : Nat)
  | cancel (i : Nat)
  | closeCh (i : Nat)
  | close

namespace FanOut

variable {α : Type*}

def new : FanOut α := ⟨fun _ => .new, 0, [], none, false, false⟩

def locked (s : FanOut α) : Bool := s.publishing.isSome

def set (s : FanOut α) (i : Nat) (sub : Subscriber α) : FanOut α :=
  { s with subs := Function.update s.subs i sub }

def step (s : FanOut α) : FanOutOp α → Option (FanOut α)
  | .subscribe =>
    if s.locked then none
    else some { s.set s.next .new with next := s.next + 1, subscribers := s.subscribers ++ [s.next] }
  | .append event =>
    if s.locked then none
    else some
      { s with
        publishing := some (event, s.subscribers)
        subs := fun i =>
          if i ∈ s.subscribers then { s.subs i with offered := (s.subs i).offered ++ [event] }
          else s.subs i }
  | .send =>
    match s.publishing with
    | none => none
    | some (_, []) => some { s with publishing := none }
    | some (event, i :: rest) => some
        { s.set i ((s.subs i).offer event) with
          publishing := some (event, rest)
          sentOnClosed := s.sentOnClosed || (s.subs i).closed }
  | .receive i => (s.subs i).receive.map (s.set i)
  | .cancel i =>
    if s.locked ∨ s.next ≤ i then none
    else some
      { s.set i { s.subs i with left := true } with subscribers := s.subscribers.erase i }
  | .closeCh i =>
    if (s.subs i).left then some (s.set i { s.subs i with closed := true }) else none
  | .close =>
    if s.locked then none
    else if s.closeOnce then some s
    else some
      { s with
        closeOnce := true
        subscribers := []
        subs := fun i => if i ∈ s.subscribers then { s.subs i with left := true } else s.subs i }

def system : System (FanOut α) (FanOutOp α) := ⟨new, step⟩

/-- The event that is on its way to the subscriber. -/
def due (s : FanOut α) (i : Nat) : List α :=
  match s.publishing with
  | some (event, rest) => if i ∈ rest then [event] else []
  | none => []

structure Inv (s : FanOut α) : Prop where
  nodup : s.subscribers.Nodup
  listed : ∀ i ∈ s.subscribers, i < s.next ∧ (s.subs i).left = false
  closed : ∀ i, (s.subs i).closed = true → (s.subs i).left = true
  loop : ∀ event rest, s.publishing = some (event, rest) → rest <:+ s.subscribers
  accounted : ∀ i, (s.subs i).Accounted (s.due i)
  safe : s.sentOnClosed = false

variable {s s' : FanOut α}

theorem accounted_new : (Subscriber.new : Subscriber α).Accounted [] :=
  ⟨⟨[], by simp [Subscriber.new]⟩, rfl⟩

theorem inv_new : Inv (new : FanOut α) := by
  constructor <;> simp [new, due]
  · simp [Subscriber.new]
  · exact accounted_new

theorem Inv.of_unlocked (h : Inv s) (hlocked : ¬ s.locked = true) :
    s.publishing = none ∧ ∀ i, (s.subs i).Accounted [] := by
  have hnone : s.publishing = none := by simpa [locked] using hlocked
  refine ⟨hnone, fun i => ?_⟩
  have haccounted := h.accounted i
  rwa [due, hnone] at haccounted

theorem Inv.step (h : Inv s) {op : FanOutOp α} (hs : s.step op = some s') : Inv s' := by
  cases op with
  | subscribe =>
    obtain ⟨hlocked, ⟨⟩⟩ := Option.ite_none_left_eq_some.mp hs
    obtain ⟨hnone, haccounted⟩ := h.of_unlocked hlocked
    have hfresh : s.next ∉ s.subscribers := fun hmem => Nat.lt_irrefl _ (h.listed _ hmem).1
    have hnew := @accounted_new α
    constructor <;> simp only [FanOut.set, due, hnone, Function.update_apply, List.mem_append,
      List.mem_singleton, List.nodup_append]
    all_goals grind [Inv, Subscriber.new]
  | append event =>
    obtain ⟨hlocked, ⟨⟩⟩ := Option.ite_none_left_eq_some.mp hs
    obtain ⟨hnone, haccounted⟩ := h.of_unlocked hlocked
    have hannounced (i) := (haccounted i).announce event
    constructor <;> simp only [due]
    all_goals grind [Inv]
  | send =>
    simp only [FanOut.step] at hs
    split at hs <;> cases hs
    next event hpublishing =>
      refine ⟨h.nodup, h.listed, h.closed, by simp, fun i => ?_, h.safe⟩
      simpa [due, hpublishing] using h.accounted i
    next event i rest hpublishing =>
      have hsuffix := h.loop event _ hpublishing
      have hmem : i ∈ s.subscribers := hsuffix.subset List.mem_cons_self
      have hrest : i ∉ rest := (List.nodup_cons.mp (h.nodup.sublist hsuffix.sublist)).1
      have hrestSuffix := (List.suffix_cons i rest).trans hsuffix
      have hdue (j) : s.due j = if j ∈ i :: rest then [event] else [] := by
        simp only [due, hpublishing]
      have hoffer : ((s.subs i).offer event).Accounted [] := by
        refine Subscriber.Accounted.offer ?_
        simpa [hdue] using h.accounted i
      have hmarks := (s.subs i).offer_marks event
      constructor <;> simp only [FanOut.set, due, Function.update_apply]
      all_goals grind [Inv]
  | receive i =>
    obtain ⟨sub, hsub, ⟨⟩⟩ := Option.map_eq_some_iff.mp hs
    have haccounted := (h.accounted i).receive hsub
    have hmarks := Subscriber.receive_marks hsub
    constructor <;> simp only [FanOut.set, due, Function.update_apply]
    all_goals grind [Inv, due]
  | cancel i =>
    obtain ⟨hlocked, ⟨⟩⟩ := Option.ite_none_left_eq_some.mp hs
    obtain ⟨hnone, haccounted⟩ := h.of_unlocked fun hlock => hlocked (.inl hlock)
    have hnodup := h.nodup.erase i
    have hmarked (j) := (haccounted j).mark true (s.subs j).closed
    constructor <;> simp only [FanOut.set, due, hnone, Function.update_apply, h.nodup.mem_erase_iff]
    all_goals grind [Inv]
  | closeCh i =>
    obtain ⟨hleft, ⟨⟩⟩ := Option.ite_none_right_eq_some.mp hs
    have hmarked (j) := (h.accounted j).mark (s.subs j).left true
    constructor <;> simp only [FanOut.set, due, Function.update_apply]
    all_goals grind [Inv, due]
  | close =>
    obtain ⟨hlocked, hs⟩ := Option.ite_none_left_eq_some.mp hs
    obtain ⟨hnone, haccounted⟩ := h.of_unlocked hlocked
    have hmarked (j) := (haccounted j).mark true (s.subs j).closed
    split at hs <;> cases hs
    · exact h
    constructor <;> simp only [due, hnone]
    all_goals grind [Inv]

end FanOut

/-- In every interleaving what a subscriber has received is a subsequence, in order, of the events
appended while it was in the list, each of which is received, buffered, dropped, or about to be
sent by a `publishLocked` that still holds `mu`; and no send met a closed channel. -/
theorem subscriber_accounting {α : Type*} {s : FanOut α}
    (hs : FanOut.system.Reachable System.anyAction s) :
    s.sentOnClosed = false ∧ ∀ i, (s.subs i).received.Sublist (s.subs i).offered ∧
      (s.subs i).received.length + (s.subs i).ch.length + (s.subs i).drops + (s.due i).length =
        (s.subs i).offered.length ∧
      (s.locked = false → s.due i = []) := by
  have hinv : FanOut.Inv s :=
    System.Reachable.invariant FanOut.inv_new (fun _ _ _ hinv _ hstep => hinv.step hstep) hs
  refine ⟨hinv.safe, fun i => ?_⟩
  obtain ⟨⟨sent, hoffered, hsub⟩, hcounts⟩ := hinv.accounted i
  refine ⟨?_, hcounts, fun hlocked => ?_⟩
  · rw [hoffered]
    exact ((List.sublist_append_left _ _).trans hsub).trans (List.sublist_append_left _ _)
  · have hnone : s.publishing = none := by simpa [FanOut.locked] using hlocked
    simp [FanOut.due, hnone]

/-- A subscriber that cancels with one event read and one still buffered. -/
theorem subscriber_accounting_cancelled :
    ∃ s : FanOut Nat, FanOut.system.Reachable System.anyAction s ∧ (s.subs 0).received = [7] ∧
      (s.subs 0).ch = [8] ∧ s.sentOnClosed = false := by
  let ops : List (FanOutOp Nat) :=
    [.subscribe, .append 7, .send, .send, .append 8, .send, .receive 0, .send, .cancel 0, .closeCh 0]
  have hs : FanOut.system.Reachable System.anyAction _ := System.reachable_of_run ops rfl
  exact ⟨_, hs, rfl, rfl, (subscriber_accounting hs).1⟩

end Kagenti.AuthBridge
