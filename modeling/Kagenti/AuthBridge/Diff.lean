import Kagenti.Go.Utf8
import Kagenti.Lib.Subsequence

/-!
The line diff of `abctl` (`cmd/abctl/edit/diff.go`).
-/

namespace Kagenti.AuthBridge.Diff

open Go Lib.Subsequence

/-! The table -/

inductive OpKind where
  | equal
  | remove
  | add
  deriving DecidableEq

structure DiffOp where
  kind : OpKind
  line : Bytes
  deriving DecidableEq

/-- A turn of the inner loop, with the entries to the left, at the upper left and above. -/
def cell (x : Bytes) (left : Nat) : Bytes × Nat × Nat → Nat
  | (y, diag, up) => if x = y then diag + 1 else if left ≤ up then up else left

def row (new : List Bytes) (above : List Nat) (x : Bytes) : List Nat :=
  (new.zip (above.zip above.tail)).scanl (cell x) 0

def table (old new : List Bytes) : List (List Nat) :=
  old.scanl (row new) (List.replicate (new.length + 1) 0)

variable {old new : List Bytes} {i j : Nat}

def RowOk (new xs : List Bytes) (cells : List Nat) : Prop :=
  ∀ j ≤ new.length, ∃ n, cells[j]? = some n ∧
    IsGreatest (commonLengths xs (new.take j).reverse) n

theorem take_succ_reverse (bound : i < old.length) :
    (old.take (i + 1)).reverse = old.getD i [] :: (old.take i).reverse := by
  rw [List.take_succ_eq_append_getElem bound, List.reverse_concat]
  simp [List.getD_eq_getElem?_getD, bound]

theorem RowOk.row {xs : List Bytes} {above : List Nat} (h : RowOk new xs above) (x : Bytes) :
    RowOk new (x :: xs) (row new above x) := by
  intro j bound
  induction j with
  | zero =>
    refine ⟨0, List.getElem?_scanl_zero, ?_⟩
    rw [commonLengths_comm]
    exact greatest_nil.mpr rfl
  | succ j ih =>
    obtain ⟨left, atLeft, greatestLeft⟩ := ih (by omega)
    obtain ⟨diag, atDiag, greatestDiag⟩ := h j (by omega)
    obtain ⟨up, atUp, greatestUp⟩ := h (j + 1) bound
    rw [take_succ_reverse bound] at greatestUp ⊢
    refine ⟨cell x left (new.getD j [], diag, up), ?_, ?_⟩
    · unfold Diff.row at atLeft ⊢
      rw [List.getElem?_succ_scanl, atLeft]
      simp [List.zip, List.getElem?_zipWith, atDiag, atUp, List.getElem?_eq_getElem bound]
    · unfold cell
      dsimp only
      split_ifs with same more
      · exact same ▸ greatest_equal greatestDiag
      · exact greatest_remove same greatestUp greatestLeft more
      · exact greatest_add same greatestUp greatestLeft (Nat.le_of_not_le more)

theorem rowOk_table (new : List Bytes) (bound : i ≤ old.length) :
    ∃ cells, (table old new)[i]? = some cells ∧ RowOk new (old.take i).reverse cells := by
  induction i with
  | zero =>
    refine ⟨_, List.getElem?_scanl_zero, fun j bound => ⟨0, ?_, greatest_nil.mpr rfl⟩⟩
    exact List.getElem?_replicate_of_lt (Nat.lt_succ_of_le bound)
  | succ i ih =>
    obtain ⟨above, atAbove, ok⟩ := ih (Nat.le_of_succ_le bound)
    refine ⟨_, ?_, (take_succ_reverse bound).symm ▸ ok.row (old.getD i [])⟩
    unfold table at atAbove ⊢
    simp [List.getElem?_succ_scanl, atAbove, List.getElem?_eq_getElem bound]

def entry (dp : List (List Nat)) (i j : Nat) : Nat := (dp.getD i []).getD j 0

theorem greatest_entry (inOld : i ≤ old.length) (inNew : j ≤ new.length) :
    IsGreatest (commonLengths (old.take i).reverse (new.take j).reverse)
      (entry (table old new) i j) := by
  obtain ⟨cells, atRow, ok⟩ := rowOk_table new inOld
  obtain ⟨n, atCell, greatest⟩ := ok j inNew
  rw [entry, List.getD_eq_getElem?_getD, List.getD_eq_getElem?_getD, atRow, Option.getD_some,
    atCell, Option.getD_some]
  exact greatest

/-! The way back -/

/-- The three loops after the table: the last two run where one list is used up. -/
def backtrack (old new : List Bytes) (dp : List (List Nat)) : Nat → Nat → List DiffOp
  | 0, 0 => []
  | i + 1, 0 => ⟨.remove, old.getD i []⟩ :: backtrack old new dp i 0
  | 0, j + 1 => ⟨.add, new.getD j []⟩ :: backtrack old new dp 0 j
  | i + 1, j + 1 =>
    if old.getD i [] = new.getD j [] then
      ⟨.equal, old.getD i []⟩ :: backtrack old new dp i j
    else if entry dp (i + 1) j ≤ entry dp i (j + 1) then
      ⟨.remove, old.getD i []⟩ :: backtrack old new dp i (j + 1)
    else ⟨.add, new.getD j []⟩ :: backtrack old new dp (i + 1) j

def lcsDiff (old new : List Bytes) : List DiffOp :=
  if old = [] then new.map (⟨.add, ·⟩)
  else if new = [] then old.map (⟨.remove, ·⟩)
  else (backtrack old new (table old new) old.length new.length).reverse

def oldLines (ops : List DiffOp) : List Bytes := (ops.filter (·.kind ≠ .add)).map DiffOp.line

def newLines (ops : List DiffOp) : List Bytes := (ops.filter (·.kind ≠ .remove)).map DiffOp.line

def equals (ops : List DiffOp) : Nat := (ops.filter (·.kind = .equal)).length

def Explains (ops : List DiffOp) (xs ys : List Bytes) : Prop :=
  oldLines ops = xs ∧ newLines ops = ys ∧ IsGreatest (commonLengths xs ys) (equals ops)

theorem explains_backtrack (inOld : i ≤ old.length) (inNew : j ≤ new.length) :
    Explains (backtrack old new (table old new) i j) (old.take i).reverse
      (new.take j).reverse := by
  fun_induction backtrack old new (table old new) i j with
  | case1 => exact ⟨rfl, rfl, greatest_nil.mpr rfl⟩
  | case2 i ih =>
    obtain ⟨removed, added, most⟩ := ih (Nat.le_of_succ_le inOld) inNew
    rw [take_succ_reverse inOld]
    refine ⟨congrArg _ removed, added, ?_⟩
    rw [commonLengths_comm] at most ⊢
    exact greatest_nil.mpr (greatest_nil.mp most)
  | case3 j ih =>
    obtain ⟨removed, added, most⟩ := ih inOld (Nat.le_of_succ_le inNew)
    rw [take_succ_reverse inNew]
    exact ⟨removed, congrArg _ added, greatest_nil.mpr (greatest_nil.mp most)⟩
  | case4 i j same ih =>
    obtain ⟨removed, added, most⟩ := ih (Nat.le_of_succ_le inOld) (Nat.le_of_succ_le inNew)
    rw [take_succ_reverse inOld, take_succ_reverse inNew, ← same]
    exact ⟨congrArg _ removed, congrArg _ added, greatest_equal most⟩
  | case5 i j differ more ih =>
    obtain ⟨removed, added, most⟩ := ih (Nat.le_of_succ_le inOld) inNew
    have other := greatest_entry inOld (Nat.le_of_succ_le inNew)
    rw [← most.unique (greatest_entry (Nat.le_of_succ_le inOld) inNew)] at more
    rw [take_succ_reverse inOld] at other ⊢
    rw [take_succ_reverse inNew] at added most ⊢
    exact ⟨congrArg _ removed, added, greatest_remove differ most other more⟩
  | case6 i j differ more ih =>
    obtain ⟨removed, added, most⟩ := ih inOld (Nat.le_of_succ_le inNew)
    have other := greatest_entry (Nat.le_of_succ_le inOld) inNew
    rw [← most.unique (greatest_entry inOld (Nat.le_of_succ_le inNew))] at more
    rw [take_succ_reverse inNew] at other ⊢
    rw [take_succ_reverse inOld] at removed most ⊢
    exact ⟨removed, congrArg _ added, greatest_add differ other most (Nat.le_of_not_le more)⟩

/-- The operations are an edit script from the old lines to the new ones, and no script keeps
more lines. -/
theorem lcsDiff_optimal (old new : List Bytes) :
    oldLines (lcsDiff old new) = old ∧ newLines (lcsDiff old new) = new ∧
      IsGreatest (commonLengths old new) (equals (lcsDiff old new)) := by
  have whole := explains_backtrack (Nat.le_refl old.length) (Nat.le_refl new.length)
  rw [List.take_length, List.take_length, Explains, commonLengths_reverse] at whole
  unfold lcsDiff
  split_ifs with noOld noNew
  · subst noOld
    exact ⟨by simp [oldLines], by simp [newLines, List.filter_map, Function.comp_def],
      greatest_nil.mpr (by simp [equals])⟩
  · subst noNew
    rw [commonLengths_comm]
    exact ⟨by simp [oldLines, List.filter_map, Function.comp_def], by simp [newLines],
      greatest_nil.mpr (by simp [equals])⟩
  · obtain ⟨removed, added, most⟩ := whole
    refine ⟨?_, ?_, ?_⟩
    · rw [oldLines, List.filter_reverse, List.map_reverse, ← oldLines, removed, List.reverse_reverse]
    · rw [newLines, List.filter_reverse, List.map_reverse, ← newLines, added, List.reverse_reverse]
    · rw [equals, List.filter_reverse, List.length_reverse]
      exact most

end Kagenti.AuthBridge.Diff
