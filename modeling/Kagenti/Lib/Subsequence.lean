import Mathlib.Data.List.Basic
import Mathlib.Order.Bounds.Basic

/-!
The lengths that common subsequences of two lists have, and how the greatest of them grows when
an element is put in front.
-/

namespace Kagenti.Lib.Subsequence

variable {α : Type*} {x y : α} {xs ys : List α} {m n : Nat}

def commonLengths (xs ys : List α) : Set Nat :=
  {n | ∃ zs : List α, zs.Sublist xs ∧ zs.Sublist ys ∧ zs.length = n}

theorem commonLengths_comm (xs ys : List α) : commonLengths xs ys = commonLengths ys xs := by
  exact Set.ext fun _ => exists_congr fun _ => and_left_comm

theorem commonLengths_reverse (xs ys : List α) :
    commonLengths xs.reverse ys.reverse = commonLengths xs ys := by
  refine Set.ext fun n => List.reverse_surjective.exists.trans ?_
  simp only [List.reverse_sublist, List.length_reverse]
  rfl

theorem greatest_nil : IsGreatest (commonLengths [] ys) n ↔ n = 0 := by
  have none : IsGreatest (commonLengths [] ys) 0 := by
    refine ⟨⟨[], .slnil, List.nil_sublist ys, rfl⟩, ?_⟩
    rintro _ ⟨zs, empty, -, rfl⟩
    exact empty.length_le
  exact ⟨fun h => h.unique none, fun zero => zero ▸ none⟩

theorem greatest_equal (h : IsGreatest (commonLengths xs ys) n) :
    IsGreatest (commonLengths (x :: xs) (x :: ys)) (n + 1) := by
  obtain ⟨⟨zs, left, right, rfl⟩, most⟩ := h
  refine ⟨⟨x :: zs, left.cons_cons x, right.cons_cons x, rfl⟩, ?_⟩
  rintro _ ⟨zs, left, right, rfl⟩
  have tail := most ⟨zs.tail, left.tail, right.tail, rfl⟩
  rw [List.length_tail] at tail
  omega

theorem greatest_remove (differ : x ≠ y) (h : IsGreatest (commonLengths xs (y :: ys)) m)
    (h' : IsGreatest (commonLengths (x :: xs) ys) n) (larger : n ≤ m) :
    IsGreatest (commonLengths (x :: xs) (y :: ys)) m := by
  obtain ⟨⟨zs, left, right, rfl⟩, most⟩ := h
  refine ⟨⟨zs, left.cons x, right, rfl⟩, ?_⟩
  rintro _ ⟨zs, left, right, rfl⟩
  rcases List.sublist_cons_iff.mp left with skipped | ⟨zs, rfl, -⟩
  · exact most ⟨zs, skipped, right, rfl⟩
  · rcases List.sublist_cons_iff.mp right with skipped | ⟨_, same, -⟩
    · exact (h'.2 ⟨_, left, skipped, rfl⟩).trans larger
    · exact absurd (List.cons.inj same).1 differ

theorem greatest_add (differ : x ≠ y) (h : IsGreatest (commonLengths xs (y :: ys)) m)
    (h' : IsGreatest (commonLengths (x :: xs) ys) n) (larger : m ≤ n) :
    IsGreatest (commonLengths (x :: xs) (y :: ys)) n := by
  rw [commonLengths_comm] at h h' ⊢
  exact greatest_remove differ.symm h' h larger

end Kagenti.Lib.Subsequence
