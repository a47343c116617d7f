import Mathlib.Data.List.Basic

/-!
A bounded first-in first-out buffer that pins the last element with a property: when
the buffer is cut to its bound, that element survives even where the cut would drop it.
-/

namespace Kagenti.Lib.PinnedBuffer

variable {α : Type*} (p : α → Bool)

def lastMatch (xs : List α) : Option α := xs.reverse.find? p

def lastMatchIdx : List α → Option Nat
  | [] => none
  | x :: xs =>
    match lastMatchIdx xs with
    | some i => some (i + 1)
    | none => if p x then some 0 else none

/-- Cuts the buffer to `max` elements, the oldest first. A last match in front of the cut
takes the place of the oldest survivor. A bound of zero means no bound. -/
def trimPinned (xs : List α) (max : Nat) : List α :=
  if max = 0 ∨ xs.length ≤ max then xs
  else
    let excess := xs.length - max
    match lastMatchIdx p xs with
    | none => xs.drop excess
    | some i =>
      if excess ≤ i then xs.drop excess
      else xs[i]?.toList ++ xs.drop (xs.length - (max - 1))

variable {p}

theorem lastMatch_append (xs ys : List α) :
    lastMatch p (xs ++ ys) = (lastMatch p ys).or (lastMatch p xs) := by
  simp [lastMatch, List.find?_append]

variable {xs : List α}

theorem lastMatch_eq_none (h : ∀ x ∈ xs, p x = false) : lastMatch p xs = none := by
  apply List.find?_eq_none.mpr
  intro x member
  have unmatched := h x (List.mem_reverse.mp member)
  simp [unmatched]

theorem lastMatch_concat (xs : List α) (x : α) :
    lastMatch p (xs ++ [x]) = if p x then some x else lastMatch p xs := by
  rw [lastMatch_append]
  cases h : p x <;> simp [lastMatch, h]

variable {x : α}

theorem lastMatch_split (xs : List α) {ys : List α} (hx : p x = true)
    (behind : ∀ y ∈ ys, p y = false) : lastMatch p (xs ++ x :: ys) = some x := by
  have tail : lastMatch p (x :: ys) = some x := by
    rw [← List.singleton_append, lastMatch_append, lastMatch_eq_none behind]
    simp [lastMatch, hx]
  rw [lastMatch_append, tail, Option.some_or]

theorem exists_split_of_lastMatch (h : lastMatch p xs = some x) :
    ∃ before behind, xs = before ++ x :: behind ∧ p x = true ∧ ∀ y ∈ behind, p y = false := by
  obtain ⟨hx, front, back, split, unmatched⟩ := List.find?_eq_some_iff_append.mp h
  refine ⟨back.reverse, front.reverse, ?_, hx, ?_⟩
  · have reversed := congrArg List.reverse split
    simpa using reversed
  · grind

theorem lastMatch_of_imp {q : α → Bool} (imp : ∀ x, q x = true → p x = true)
    (h : lastMatch p xs = some x) (hx : q x = true) : lastMatch q xs = some x := by
  obtain ⟨before, behind, rfl, -, unmatched⟩ := exists_split_of_lastMatch h
  apply lastMatch_split before hx
  intro y member
  have := unmatched y member
  exact Bool.eq_false_iff.mpr fun hy => by simp [imp y hy] at this

theorem lastMatch_isSome (h : ∃ x ∈ xs, p x = true) : ∃ x, lastMatch p xs = some x := by
  obtain ⟨x, member, hx⟩ := h
  apply Option.isSome_iff_exists.mp
  exact List.find?_isSome.mpr ⟨x, List.mem_reverse.mpr member, hx⟩

variable {f : α → α}

theorem lastMatch_map (hf : ∀ x, p (f x) = p x) (xs : List α) :
    lastMatch p (xs.map f) = (lastMatch p xs).map f := by
  rw [lastMatch, ← List.map_reverse, List.find?_map, show p ∘ f = p from funext hf, lastMatch]

theorem lastMatchIdx_eq_none (h : lastMatchIdx p xs = none) : ∀ x ∈ xs, p x = false := by
  induction xs with
  | nil => simp
  | cons x xs ih => grind [lastMatchIdx]

theorem lastMatchIdx_eq_some {i : Nat} (h : lastMatchIdx p xs = some i) :
    ∃ before x behind, xs = before ++ x :: behind ∧ before.length = i ∧ p x = true ∧
      ∀ y ∈ behind, p y = false := by
  induction xs generalizing i with
  | nil => contradiction
  | cons x xs ih =>
    rw [lastMatchIdx] at h
    split at h
    next j rest => grind
    next rest =>
      obtain ⟨hx, rfl⟩ : p x = true ∧ 0 = i := by simpa using h
      exact ⟨[], x, xs, rfl, rfl, hx, lastMatchIdx_eq_none rest⟩

/-- Trimming never loses the last match. -/
theorem lastMatch_trimPinned (xs : List α) (max : Nat) :
    lastMatch p (trimPinned p xs max) = lastMatch p xs := by
  unfold trimPinned
  split
  · rfl
  next bounded =>
    dsimp only
    split
    next unmatched =>
      have none := lastMatchIdx_eq_none unmatched
      rw [lastMatch_eq_none none]
      exact lastMatch_eq_none fun x member => none x (List.mem_of_mem_drop member)
    next i found =>
      obtain ⟨before, x, behind, rfl, length, hx, tail⟩ := lastMatchIdx_eq_some found
      rw [lastMatch_split before hx tail]
      split
      · -- the last match is behind the cut
        rename_i kept
        rw [List.drop_append_of_le_length (by omega)]
        exact lastMatch_split _ hx tail
      · -- the survivors are all behind the last match
        rename_i dropped
        have pinned : (before ++ x :: behind)[i]? = some x := by simp [← length]
        rw [pinned, Option.toList_some, List.singleton_append]
        apply lastMatch_split [] hx
        intro y member
        rw [List.length_append, List.length_cons] at member dropped bounded
        apply tail y
        rw [List.drop_append, List.drop_eq_nil_of_le (by omega), List.nil_append] at member
        have beyond : ∃ k, before.length + (behind.length + 1) - (max - 1) - before.length = k + 1 :=
          ⟨before.length + (behind.length + 1) - (max - 1) - before.length - 1, by omega⟩
        obtain ⟨k, hk⟩ := beyond
        rw [hk, List.drop_succ_cons] at member
        exact List.mem_of_mem_drop member

variable {max : Nat}

theorem length_trimPinned_le (xs : List α) (bounded : 0 < max) :
    (trimPinned p xs max).length ≤ max := by
  unfold trimPinned
  split
  · omega
  · grind

theorem trimPinned_cases (xs : List α) (max : Nat) :
    trimPinned p xs max = xs ∨
    (max < xs.length ∧ trimPinned p xs max = xs.drop (xs.length - max)) ∨
    (0 < max ∧ max < xs.length ∧ ∃ i x, i < xs.length - max ∧ xs[i]? = some x ∧
      trimPinned p xs max = x :: xs.drop (xs.length - (max - 1))) := by
  unfold trimPinned
  split
  · exact .inl rfl
  next exceeds => grind

theorem trimPinned_sublist (xs : List α) (max : Nat) :
    (trimPinned p xs max).Sublist xs := by
  rcases trimPinned_cases (p := p) xs max with
    same | ⟨-, cut⟩ | ⟨-, exceeds, i, x, dropped, found, pinned⟩
  · rw [same]
  · rw [cut]
    exact List.drop_sublist _ xs
  · have inFront : x ∈ xs.take (xs.length - (max - 1)) := by
      refine List.mem_of_getElem? (i := i) ?_
      rw [List.getElem?_take_of_lt (by omega)]
      exact found
    have parts := (List.singleton_sublist.mpr inFront).append
      (List.Sublist.refl (xs.drop (xs.length - (max - 1))))
    rw [List.take_append_drop] at parts
    rw [pinned]
    exact parts

/-- What was added last, up to one less than the bound, survives. -/
theorem suffix_trimPinned {newest : List α} (h : newest <:+ xs) (short : newest.length ≤ max - 1) :
    newest <:+ trimPinned p xs max := by
  rcases trimPinned_cases (p := p) xs max with
    same | ⟨exceeds, cut⟩ | ⟨-, exceeds, i, x, -, -, pinned⟩
  · rw [same]
    exact h
  · rw [cut]
    refine List.suffix_of_suffix_length_le h (List.drop_suffix _ xs) ?_
    rw [List.length_drop]
    omega
  · grind [List.IsSuffix]

theorem getLast?_trimPinned (xs : List α) (x : α) (room : max = 0 ∨ 2 ≤ max) :
    (trimPinned p (xs ++ [x]) max).getLast? = some x := by
  have newest : [x] <:+ trimPinned p (xs ++ [x]) max := by grind [trimPinned, List.length_singleton]
  obtain ⟨front, eq⟩ := newest
  rw [← eq, List.getLast?_concat]

theorem pair_suffix_trimPinned (front : List α) {a b : α} (matched : p a = true)
    (unmatched : p b = false) (room : max = 0 ∨ 2 ≤ max) :
    [a, b] <:+ trimPinned p (front ++ [a, b]) max := by
  have length : (front ++ [a, b]).length = front.length + 2 := by simp
  have kept : lastMatch p (trimPinned p (front ++ [a, b]) max) = some a :=
    (lastMatch_trimPinned _ max).trans (lastMatch_split front matched (by simpa using unmatched))
  rcases room with unbounded | room
  · rw [trimPinned, if_pos (.inl unbounded)]
    exact List.suffix_append front [a, b]
  rcases trimPinned_cases (p := p) (front ++ [a, b]) max with
    same | ⟨exceeds, cut⟩ | ⟨-, -, i, x, -, -, pinned⟩
  · rw [same]
    exact List.suffix_append front [a, b]
  · grind
  · by_cases two : max = 2
    · -- only one place is left behind the pinned element, which is the match
      subst max
      have behind : (front ++ [a, b]).drop ((front ++ [a, b]).length - (2 - 1)) = [b] := by
        rw [length, show front.length + 2 - (2 - 1) = front.length + 1 from rfl,
          List.drop_length_add_append]
        rfl
      rw [pinned, behind] at kept ⊢
      rw [← List.singleton_append, lastMatch_concat, unmatched] at kept
      cases found : p x with
      | true =>
        obtain rfl : x = a := by simpa [lastMatch, found] using kept
        exact List.suffix_refl _
      | false => simp [lastMatch, found] at kept
    · refine suffix_trimPinned (List.suffix_append front [a, b]) ?_
      rw [List.length_cons, List.length_singleton]
      omega

structure Shows (p : α → Bool) (max : Nat) (log buffer : List α) : Prop where
  last : lastMatch p buffer = lastMatch p log
  bounded : buffer.length ≤ max
  inOrder : buffer.Sublist log
  newest : log.drop (log.length - (max - 1)) <:+ buffer

theorem Shows.empty (max : Nat) : Shows p max [] [] := by
  constructor <;> simp

variable {log buffer : List α}

theorem Shows.push (h : Shows p max log buffer) (positive : 0 < max) (x : α) :
    Shows p max (log ++ [x]) (trimPinned p (buffer ++ [x]) max) where
  last := by
    rw [lastMatch_trimPinned, lastMatch_concat, lastMatch_concat, h.last]
  bounded := length_trimPinned_le _ positive
  inOrder := (trimPinned_sublist _ _).trans (h.inOrder.append (List.Sublist.refl [x]))
  newest := by
    have shown : (log ++ [x]).drop (log.length - (max - 1)) <:+ buffer ++ [x] := by
      rw [List.drop_append_of_le_length (by omega)]
      obtain ⟨front, split⟩ := h.newest
      exact ⟨front, by rw [← List.append_assoc, split]⟩
    have later : (log ++ [x]).drop ((log ++ [x]).length - (max - 1)) <:+
        (log ++ [x]).drop (log.length - (max - 1)) := by
      refine List.suffix_of_suffix_length_le (List.drop_suffix _ _) (List.drop_suffix _ _) ?_
      simp only [List.length_drop, List.length_append, List.length_singleton]
      omega
    refine suffix_trimPinned (later.trans shown) ?_
    rw [List.length_drop]
    omega

theorem Shows.map (h : Shows p max log buffer) (hf : ∀ x, p (f x) = p x) :
    Shows p max (log.map f) (buffer.map f) where
  last := by rw [lastMatch_map hf, lastMatch_map hf, h.last]
  bounded := by
    rw [List.length_map]
    exact h.bounded
  inOrder := h.inOrder.map f
  newest := by
    rw [List.length_map, ← List.map_drop]
    exact h.newest.map f

end Kagenti.Lib.PinnedBuffer
