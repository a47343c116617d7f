import Mathlib.Data.List.Nodup

/-!
Lists of elements with a key, to which an element is added only when its key is missing.
-/

namespace Kagenti.Lib.Keyed

variable {α β κ : Type*} [DecidableEq κ] (key : α → κ)

def hasKey (l : List α) (k : κ) : Bool := l.any fun x => decide (key x = k)

def addIfMissing (l : List α) (x : α) : List α :=
  if hasKey key l (key x) then l else l ++ [x]

def addAll (l xs : List α) : List α := xs.foldl (addIfMissing key) l

variable {key} {l xs : List α} {x y : α} {k : κ}

@[simp] theorem hasKey_iff : hasKey key l k = true ↔ k ∈ l.map key := by
  simp [hasKey]

@[simp] theorem hasKey_eq_false : hasKey key l k = false ↔ k ∉ l.map key := by
  rw [← hasKey_iff, Bool.not_eq_true]

theorem addIfMissing_of_mem (h : key x ∈ l.map key) : addIfMissing key l x = l :=
  if_pos (hasKey_iff.mpr h)

theorem addIfMissing_of_notMem (h : key x ∉ l.map key) : addIfMissing key l x = l ++ [x] :=
  if_neg (by rwa [hasKey_iff])

theorem mem_map_addIfMissing :
    k ∈ (addIfMissing key l x).map key ↔ k ∈ l.map key ∨ k = key x := by
  by_cases h : key x ∈ l.map key
  · rw [addIfMissing_of_mem h]
    exact ⟨.inl, fun hk => hk.elim id fun eq => eq ▸ h⟩
  · rw [addIfMissing_of_notMem h]
    simp

variable {v : β}

theorem mem_map_addIfMissing_of_key (key : α → κ) (g : κ → β) :
    v ∈ (addIfMissing key l x).map (fun y => g (key y)) ↔
      v ∈ l.map (fun y => g (key y)) ∨ v = g (key x) := by
  by_cases h : key x ∈ l.map key
  · grind [addIfMissing_of_mem]
  · rw [addIfMissing_of_notMem h]
    simp

variable {f : α → β}

theorem mem_map_addIfMissing_of_ne (h : f x ≠ v) :
    v ∈ (addIfMissing key l x).map f ↔ v ∈ l.map f := by
  unfold addIfMissing
  split
  · exact Iff.rfl
  · simp [h.symm]

theorem sublist_addIfMissing : l.Sublist (addIfMissing key l x) := by
  unfold addIfMissing
  split
  · exact List.Sublist.refl l
  · exact List.sublist_append_left l [x]

theorem mem_addIfMissing :
    y ∈ addIfMissing key l x ↔ y ∈ l ∨ key x ∉ l.map key ∧ y = x := by
  by_cases h : key x ∈ l.map key
  · simp [addIfMissing_of_mem h, h]
  · simp [addIfMissing_of_notMem h, h]

theorem exists_mem_addIfMissing {P : α → Prop} : (∃ y ∈ addIfMissing key l x, P y) ↔
    (∃ y ∈ l, P y) ∨ key x ∉ l.map key ∧ P x := by
  simp only [mem_addIfMissing, or_and_right, exists_or, and_assoc, exists_and_left, exists_eq_left]

theorem mem_or_eq_of_mem_addIfMissing (h : y ∈ addIfMissing key l x) : y ∈ l ∨ y = x :=
  (mem_addIfMissing.mp h).imp_right And.right

theorem nodup_map_addIfMissing_iff (h : (l.map f).Nodup) :
    ((addIfMissing key l x).map f).Nodup ↔ key x ∈ l.map key ∨ f x ∉ l.map f := by
  by_cases hk : key x ∈ l.map key
  · rw [addIfMissing_of_mem hk]
    exact ⟨fun _ => .inl hk, fun _ => h⟩
  · grind [addIfMissing_of_notMem]

theorem nodup_map_addIfMissing (h : (l.map key).Nodup) :
    ((addIfMissing key l x).map key).Nodup :=
  (nodup_map_addIfMissing_iff h).mpr (Classical.em _)

theorem mem_map_addAll : k ∈ (addAll key l xs).map key ↔ k ∈ l.map key ∨ k ∈ xs.map key := by
  induction xs generalizing l with
  | nil => simp [addAll]
  | cons x xs ih =>
    have rest : addAll key l (x :: xs) = addAll key (addIfMissing key l x) xs := rfl
    rw [rest, ih, mem_map_addIfMissing, List.map_cons, List.mem_cons, or_assoc]

theorem nodup_map_addAll (h : (l.map key).Nodup) : ((addAll key l xs).map key).Nodup := by
  induction xs generalizing l with
  | nil => exact h
  | cons x xs ih => exact ih (nodup_map_addIfMissing h)

theorem addAll_of_mem (h : ∀ x ∈ xs, key x ∈ l.map key) : addAll key l xs = l := by
  induction xs generalizing l with
  | nil => rfl
  | cons x xs ih =>
    have rest : addAll key l (x :: xs) = addAll key (addIfMissing key l x) xs := rfl
    rw [rest, addIfMissing_of_mem (h x List.mem_cons_self)]
    exact ih fun y hy => h y (List.mem_cons_of_mem x hy)

end Kagenti.Lib.Keyed
