/-!
Byte strings and the decoding of UTF-8 with Go's treatment of invalid input.
-/

namespace Kagenti.Go

abbrev Bytes := List UInt8

def bytes (s : String) : Bytes := s.toList.flatMap String.utf8EncodeChar

theorem bytes_eq_toByteArray (s : String) : bytes s = s.toByteArray.data.toList := by
  have hencode : (String.ofList s.toList).toByteArray.data.toList = bytes s := by
    rw [String.toByteArray_ofList]
    simp [bytes, List.utf8Encode]
  rw [← hencode, String.ofList_toList]

variable {s : String}

theorem bytes_inj {t : String} (h : bytes s = bytes t) : s = t := by
  rw [bytes_eq_toByteArray, bytes_eq_toByteArray] at h
  exact String.toByteArray_inj.mp (ByteArray.ext (Array.toList_inj.mp h))

theorem bytes_ne_nil (h : s ≠ "") : bytes s ≠ [] := fun empty =>
  h (bytes_inj (empty.trans (by decide : [] = bytes "")))

def isCont (b : UInt8) : Bool := decide (0x80 ≤ b) && decide (b ≤ 0xBF)

def replacementChar : Char := '�'

/-- `utf8.DecodeRune` on a non-empty input whose first byte is not ASCII: an invalid
encoding gives the replacement character and consumes one byte. -/
def decodeRune (b : UInt8) (rest : Bytes) : Char × Bytes :=
  match rest with
  | c :: d :: e :: rest' =>
    if 0xF0 ≤ b ∧ b ≤ 0xF4 ∧ isCont c ∧ isCont d ∧ isCont e ∧
        ¬ (b = 0xF0 ∧ c < 0x90) ∧ ¬ (b = 0xF4 ∧ 0x8F < c) then
      (Char.ofNat (((b.toNat % 8 * 64 + c.toNat % 64) * 64 + d.toNat % 64) * 64 +
        e.toNat % 64), rest')
    else decodeShort b c (d :: e :: rest')
  | c :: rest' => decodeShort b c rest'
  | [] => (replacementChar, [])
where
  decodeShort (b c : UInt8) (rest : Bytes) : Char × Bytes :=
    match rest with
    | d :: rest' =>
      if 0xE0 ≤ b ∧ b ≤ 0xEF ∧ isCont c ∧ isCont d ∧
          ¬ (b = 0xE0 ∧ c < 0xA0) ∧ ¬ (b = 0xED ∧ 0x9F < c) then
        (Char.ofNat ((b.toNat % 16 * 64 + c.toNat % 64) * 64 + d.toNat % 64), rest')
      else decodeTwo b c rest
    | [] => decodeTwo b c rest
  decodeTwo (b c : UInt8) (rest : Bytes) : Char × Bytes :=
    if 0xC2 ≤ b ∧ b ≤ 0xDF ∧ isCont c then
      (Char.ofNat (b.toNat % 32 * 64 + c.toNat % 64), rest)
    else (replacementChar, c :: rest)

def firstRune : Bytes → Option (Char × Bytes)
  | [] => none
  | b :: rest => if b < 0x80 then some (Char.ofNat b.toNat, rest) else some (decodeRune b rest)

def runes : Nat → Bytes → List Char
  | 0, _ => []
  | fuel + 1, b =>
    match firstRune b with
    | none => []
    | some (c, rest) => c :: runes fuel rest

def text (b : Bytes) : String := String.ofList (runes b.length b)

def splitBytes (separator : UInt8) : Bytes → List Bytes
  | [] => [[]]
  | b :: rest =>
    match splitBytes separator rest with
    | part :: parts => if b = separator then [] :: part :: parts else (b :: part) :: parts
    | [] => [[b]]

theorem splitBytes_ne_nil (separator : UInt8) (s : Bytes) : splitBytes separator s ≠ [] := by
  cases s with
  | nil => exact List.cons_ne_nil _ _
  | cons b rest => grind [splitBytes]

variable {separator : UInt8}

theorem splitBytes_append {part : Bytes} (whole : separator ∉ part) (rest : Bytes) :
    splitBytes separator (part ++ separator :: rest) = part :: splitBytes separator rest := by
  induction part with
  | nil =>
    rw [List.nil_append, splitBytes]
    cases split : splitBytes separator rest with
    | nil => exact absurd split (splitBytes_ne_nil separator rest)
    | cons first parts => exact if_pos rfl
  | cons b part ih =>
    have inside := List.not_mem_of_not_mem_cons whole
    have other : b ≠ separator := fun same => whole (same ▸ List.mem_cons_self)
    rw [List.cons_append, splitBytes, ih inside]
    exact if_neg other

theorem append_separator_inj {α : Type} {separator : α} {a b r r' : List α}
    (ha : separator ∉ a) (hb : separator ∉ b)
    (h : a ++ separator :: r = b ++ separator :: r') : a = b ∧ r = r' := by
  rcases List.append_eq_append_iff.mp h with ⟨c, hc, hrest⟩ | ⟨c, hc, hrest⟩
  · cases c with
    | nil => simp_all
    | cons x c =>
      have : x = separator := by simp_all
      subst this
      simp [hc] at hb
  · cases c with
    | nil => simp_all
    | cons x c =>
      have : x = separator := by simp_all
      subst this
      simp [hc] at ha

/-- The UTF-8 encodings of the white space that `bytes.TrimSpace` removes. -/
def encodedSpaces : List Bytes :=
  [[0x09], [0x0A], [0x0B], [0x0C], [0x0D], [0x20], [0xC2, 0x85], [0xC2, 0xA0], [0xE1, 0x9A, 0x80],
    [0xE2, 0x80, 0x80], [0xE2, 0x80, 0x81], [0xE2, 0x80, 0x82], [0xE2, 0x80, 0x83],
    [0xE2, 0x80, 0x84], [0xE2, 0x80, 0x85], [0xE2, 0x80, 0x86], [0xE2, 0x80, 0x87],
    [0xE2, 0x80, 0x88], [0xE2, 0x80, 0x89], [0xE2, 0x80, 0x8A], [0xE2, 0x80, 0xA8],
    [0xE2, 0x80, 0xA9], [0xE2, 0x80, 0xAF], [0xE2, 0x81, 0x9F], [0xE3, 0x80, 0x80]]

def trimLeading (sequences : List Bytes) : Nat → Bytes → Bytes
  | 0, b => b
  | fuel + 1, b =>
    match sequences.find? fun s => s.isPrefixOf b with
    | some s => trimLeading sequences fuel (b.drop s.length)
    | none => b

def trimSpaceBytes (b : Bytes) : Bytes :=
  let left := trimLeading encodedSpaces b.length b
  (trimLeading (encodedSpaces.map List.reverse) left.length left.reverse).reverse

variable {b : Bytes} {sequences : List Bytes}

theorem trimLeading_of_none (h : ∀ s ∈ sequences, s.isPrefixOf b = false) (fuel : Nat) :
    trimLeading sequences fuel b = b := by
  cases fuel with
  | zero => rfl
  | succ n =>
    have hnone : (sequences.find? fun s => s.isPrefixOf b) = none := by
      rw [List.find?_eq_none]
      intro s hs
      simp [h s hs]
    rw [trimLeading, hnone]

theorem length_trimLeading_le (sequences : List Bytes) (fuel : Nat) (b : Bytes) :
    (trimLeading sequences fuel b).length ≤ b.length := by
  induction fuel generalizing b with
  | zero => exact Nat.le_refl _
  | succ fuel ih => grind [trimLeading]

theorem none_of_trimLeading (nonempty : [] ∉ sequences)
    (kept : (trimLeading sequences b.length b).length = b.length) {s : Bytes} (mem : s ∈ sequences)
    : s.isPrefixOf b = false := by
  cases b with
  | nil =>
    cases s with
    | nil => exact absurd mem nonempty
    | cons => rfl
  | cons c rest =>
    rw [List.length_cons, trimLeading] at kept
    split at kept
    next s' found =>
      grind [List.mem_of_find?_eq_some, length_trimLeading_le, List.length_pos_iff,
        List.length_drop, List.length_cons]
    next missed => exact Bool.eq_false_iff.mpr (List.find?_eq_none.mp missed s mem)

theorem trimSpaceBytes_eq_self_iff :
    trimSpaceBytes b = b ↔ (∀ s ∈ encodedSpaces, s.isPrefixOf b = false) ∧
      ∀ s ∈ encodedSpaces.map List.reverse, s.isPrefixOf b.reverse = false := by
  constructor
  · intro trimmed
    unfold trimSpaceBytes at trimmed
    have length := congrArg List.length trimmed
    rw [List.length_reverse] at length
    have front := length_trimLeading_le encodedSpaces b.length b
    have back := length_trimLeading_le (encodedSpaces.map List.reverse)
      (trimLeading encodedSpaces b.length b).length (trimLeading encodedSpaces b.length b).reverse
    rw [List.length_reverse] at back
    have before : ∀ s ∈ encodedSpaces, s.isPrefixOf b = false := fun s mem =>
      none_of_trimLeading (by decide) (by omega) mem
    rw [trimLeading_of_none before] at length
    refine ⟨before, fun s mem => none_of_trimLeading (by decide) ?_ mem⟩
    rw [List.length_reverse]
    exact length
  · grind [trimLeading_of_none, List.reverse_reverse, trimSpaceBytes]

theorem trimSpaceBytes_blank_cons (trimmed : trimSpaceBytes b = b) :
    trimSpaceBytes (0x20 :: b) = b := by
  obtain ⟨front, back⟩ := trimSpaceBytes_eq_self_iff.mp trimmed
  have first : (encodedSpaces.find? fun s => s.isPrefixOf (0x20 :: b)) = some [0x20] := rfl
  unfold trimSpaceBytes
  rw [List.length_cons, trimLeading, first]
  dsimp only
  rw [List.length_singleton, List.drop_one, List.tail_cons, trimLeading_of_none front,
    trimLeading_of_none back, List.reverse_reverse]

theorem isPrefixOf_cons_of_head {s : Bytes} {c : UInt8} (nonempty : s ≠ [])
    (other : s.head? ≠ some c) (rest : Bytes) : s.isPrefixOf (c :: rest) = false := by
  cases s with
  | nil => exact absurd rfl nonempty
  | cons x xs =>
    have different : x ≠ c := fun same => other (congrArg some same)
    simp [List.isPrefixOf, different]

theorem trimSpaceBytes_append (c : UInt8) (word : Bytes)
    (front : ∀ s ∈ encodedSpaces, s.head? ≠ some c) (nonempty : b ≠ [])
    (trimmed : trimSpaceBytes b = b) :
    trimSpaceBytes (c :: word ++ 0x20 :: b) = c :: word ++ 0x20 :: b := by
  have back := (trimSpaceBytes_eq_self_iff.mp trimmed).2
  have sequences : ∀ s ∈ encodedSpaces, s ≠ [] := by decide
  have blanks : ∀ s ∈ encodedSpaces.map List.reverse, 0x20 ∉ s.tail := by decide
  refine trimSpaceBytes_eq_self_iff.mpr ⟨fun s mem => ?_, fun s mem => ?_⟩
  · exact isPrefixOf_cons_of_head (sequences s mem) (front s mem) _
  · rw [List.reverse_append, List.reverse_cons, List.append_assoc]
    refine Bool.eq_false_iff.mpr fun starts => ?_
    have missed : ¬ s <+: b.reverse := fun starts =>
      Bool.eq_false_iff.mp (back s mem) (List.isPrefixOf_iff_prefix.mpr starts)
    rcases List.prefix_or_prefix_of_prefix (List.isPrefixOf_iff_prefix.mp starts)
      (List.prefix_append _ _) with short | ⟨beyond, rfl⟩
    · exact missed short
    · cases beyond with
      | nil => exact missed ⟨[], by simp⟩
      | cons x beyond => grind [List.prefix_append_right_inj]

end Kagenti.Go
