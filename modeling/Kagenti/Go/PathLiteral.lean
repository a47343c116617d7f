import Mathlib.Data.List.Basic
import Kagenti.Go.Path

/-!
Patterns that `path.Match` matches with one name only. Every name has one that `strings.TrimSpace`
leaves alone.
-/

namespace Kagenti.Go.Path

def asciiSpaces : List UInt8 := [0x09, 0x0A, 0x0B, 0x0C, 0x0D, 0x20]

def literalByte (b : UInt8) : Bytes :=
  if b ∈ asciiSpaces then [0x5B, b, 0x5D] else [0x5C, b]

def literal (name : Bytes) : Bytes := name.flatMap literalByte

def literalToken (b : UInt8) : Token :=
  if b ∈ asciiSpaces then .cls false [(b.toNat, b.toNat)] else .lit b

theorem literalToken_ne_star (b : UInt8) : literalToken b ≠ .star := by
  unfold literalToken
  split <;> simp

variable {b : UInt8} (name : Bytes)

theorem tokens_space (hb : b ∈ asciiSpaces) (fuel : Nat) (rest : Bytes) :
    tokens (fuel + 1) (0x5B :: b :: 0x5D :: rest) =
      (tokens fuel rest).map (.cls false [(b.toNat, b.toNat)] :: ·) := by
  simp only [asciiSpaces, List.mem_cons, List.not_mem_nil, or_false] at hb
  rcases hb with rfl | rfl | rfl | rfl | rfl | rfl <;> rfl

theorem tokens_escaped (b : UInt8) (fuel : Nat) (rest : Bytes) :
    tokens (fuel + 1) (0x5C :: b :: rest) = (tokens fuel rest).map (.lit b :: ·) := rfl

theorem tokens_literalByte (b : UInt8) (fuel : Nat) (rest : Bytes) :
    tokens (fuel + 1) (literalByte b ++ rest) = (tokens fuel rest).map (literalToken b :: ·) := by
  unfold literalByte literalToken
  by_cases hb : b ∈ asciiSpaces
  · rw [if_pos hb, if_pos hb]
    exact tokens_space hb fuel rest
  · rw [if_neg hb, if_neg hb]
    exact tokens_escaped b fuel rest

theorem tokens_literal {fuel : Nat} (h : name.length < fuel) :
    tokens fuel (literal name) = some (name.map literalToken) := by
  induction name generalizing fuel with
  | nil =>
    obtain ⟨n, rfl⟩ : ∃ n, fuel = n + 1 := ⟨fuel - 1, by simp at h; omega⟩
    rfl
  | cons b rest ih =>
    obtain ⟨n, rfl⟩ : ∃ n, fuel = n + 1 := ⟨fuel - 1, by omega⟩
    have hrest : tokens n (literal rest) = some (rest.map literalToken) := by
      apply ih
      simp at h
      omega
    rw [literal, List.flatMap_cons, tokens_literalByte, ← literal, hrest]
    rfl

theorem chunks_of_no_star {ts : List Token} (hts : ts ≠ []) (h : ∀ t ∈ ts, t ≠ .star) :
    chunks ts = [(false, ts)] := by
  induction ts with
  | nil => exact absurd rfl hts
  | cons t rest ih =>
    have ht : t ≠ .star := h t List.mem_cons_self
    cases rest with
    | nil => cases t <;> first | exact absurd rfl ht | rfl
    | cons t' rest' =>
      have hrest := ih (List.cons_ne_nil _ _) fun u hu => h u (List.mem_cons_of_mem _ hu)
      rw [chunks, hrest]
      exact ht

theorem toNat_ofNat_of_le {n : Nat} (hlow : 0x80 ≤ n) (hhigh : n < 0xD800 ∨ 0xE000 ≤ n)
    (hmax : n < 0x110000) : 0x80 ≤ (Char.ofNat n).toNat := by
  have hvalid : n.isValidChar := by
    omega
  rw [Char.ofNat, dif_pos hvalid]
  exact hlow

theorem decodeTwo_not_ascii (b c : UInt8) (rest : Bytes) :
    0x80 ≤ (decodeRune.decodeTwo b c rest).1.toNat := by
  unfold decodeRune.decodeTwo
  split
  next h =>
    simp only [UInt8.le_iff_toNat_le, UInt8.reduceToNat] at h
    apply toNat_ofNat_of_le <;> omega
  · exact (by decide : 0x80 ≤ replacementChar.toNat)

theorem decodeShort_not_ascii (b c : UInt8) (rest : Bytes) :
    0x80 ≤ (decodeRune.decodeShort b c rest).1.toNat := by
  unfold decodeRune.decodeShort
  split
  · split
    next d rest' h =>
      simp only [isCont, UInt8.le_iff_toNat_le, UInt8.lt_iff_toNat_lt, ← UInt8.toNat_inj,
        UInt8.reduceToNat, Bool.and_eq_true, decide_eq_true_eq] at h
      apply toNat_ofNat_of_le <;> omega
    · exact decodeTwo_not_ascii _ _ _
  · exact decodeTwo_not_ascii _ _ _

theorem decodeRune_not_ascii (b : UInt8) (rest : Bytes) :
    0x80 ≤ (decodeRune b rest).1.toNat := by
  unfold decodeRune
  split
  · split
    next c d e rest' h =>
      simp only [isCont, UInt8.le_iff_toNat_le, UInt8.lt_iff_toNat_lt, ← UInt8.toNat_inj,
        UInt8.reduceToNat, Bool.and_eq_true, decide_eq_true_eq] at h
      apply toNat_ofNat_of_le <;> omega
    · exact decodeShort_not_ascii _ _ _
  · exact decodeShort_not_ascii _ _ _
  · decide

theorem toNat_ofNat_ascii {c : UInt8} (h : c < 0x80) : (Char.ofNat c.toNat).toNat = c.toNat := by
  have hascii : c.toNat < 0x80 := h
  have hvalid : c.toNat.isValidChar := by
    omega
  rw [Char.ofNat, dif_pos hvalid]
  rfl

theorem lt_of_mem_asciiSpaces (hb : b ∈ asciiSpaces) : b.toNat < 0x80 := by
  have hall : asciiSpaces.all (fun b => decide (b.toNat < 0x80)) = true := by decide
  exact of_decide_eq_true (List.all_eq_true.mp hall b hb)

theorem matchChunk_literalToken (b c : UInt8) (ts : List Token) (s : Bytes) :
    matchChunk (literalToken b :: ts) (c :: s) = if b = c then matchChunk ts s else none := by
  unfold literalToken
  by_cases hb : b ∈ asciiSpaces
  · have hbound := lt_of_mem_asciiSpaces hb
    rw [if_pos hb, matchChunk, firstRune]
    by_cases hc : c < 0x80
    · rw [if_pos hc]
      have hrune := toNat_ofNat_ascii hc
      by_cases heq : b = c
      · simp [heq, hrune]
      · have hne : b.toNat ≠ c.toNat := fun h => heq (UInt8.toNat_inj.mp h)
        have houtside : ¬ (b.toNat ≤ c.toNat ∧ c.toNat ≤ b.toNat) := by omega
        simp only [Option.bind_some, List.any_cons, List.any_nil, Bool.or_false, hrune,
          ← Bool.decide_and, decide_eq_false houtside, if_true, if_neg heq]
    · rw [if_neg hc]
      have hrune := decodeRune_not_ascii c s
      have heq : b ≠ c := by
        rintro rfl
        exact hc hbound
      have houtside : ¬ (b.toNat ≤ (decodeRune c s).1.toNat ∧
          (decodeRune c s).1.toNat ≤ b.toNat) := by omega
      simp only [Option.bind_some, List.any_cons, List.any_nil, Bool.or_false,
        ← Bool.decide_and, decide_eq_false houtside, if_true, if_neg heq]
  · rw [if_neg hb, matchChunk]

theorem matchChunk_literal (s : Bytes) :
    matchChunk (name.map literalToken) s = if name <+: s then some (s.drop name.length) else none := by
  induction name generalizing s with
  | nil => simp [matchChunk]
  | cons b rest ih =>
    cases s with
    | nil =>
      rw [if_neg (by simp), List.map_cons, literalToken]
      split <;> rfl
    | cons c s =>
      rw [List.map_cons, matchChunk_literalToken, ih]
      by_cases hb : b = c
      · simp [hb, List.cons_prefix_cons]
      · simp [hb, List.cons_prefix_cons]

theorem firstMatch_false (last : Bool) (chunk : List Token) (name : Bytes) :
    firstMatch false last chunk name =
      (matchChunk chunk name).filter fun t => t.isEmpty || !last := by
  cases name with
  | nil => rfl
  | cons b name =>
    rw [firstMatch]
    cases (matchChunk chunk (b :: name)).filter fun t => t.isEmpty || !last <;> rfl

theorem length_le_literal : name.length ≤ (literal name).length := by
  induction name with
  | nil => simp
  | cons b rest ih =>
    grind [literal, List.length_append, List.length_cons, literalByte]

theorem pathMatch_literal (s : Bytes) : pathMatch (literal name) s = some (decide (s = name)) := by
  have hfuel : name.length < (literal name).length + 1 := by
    have := length_le_literal name
    omega
  rw [pathMatch, tokens_literal name hfuel, Option.map_some]
  congr 1
  cases name with
  | nil => cases s <;> rfl
  | cons b rest =>
    have hstar : ∀ t ∈ (b :: rest).map literalToken, t ≠ .star := by
      intro t ht
      obtain ⟨c, -, rfl⟩ := List.mem_map.mp ht
      exact literalToken_ne_star c
    rw [chunks_of_no_star (by simp) hstar, matchChunks, firstMatch_false, matchChunk_literal]
    by_cases hstarts : (b :: rest) <+: s
    · obtain ⟨t, rfl⟩ := hstarts
      cases t with
      | nil => simp [matchChunks, Option.filter]
      | cons c t => simp [Option.filter]
    · grind

/-! White space around the pattern -/

theorem literalByte_head (b : UInt8) (rest : Bytes) :
    ∃ c tail, literalByte b ++ rest = c :: tail ∧ (c = 0x5B ∨ c = 0x5C) := by
  unfold literalByte
  split
  · exact ⟨0x5B, _, rfl, .inl rfl⟩
  · exact ⟨0x5C, _, rfl, .inr rfl⟩

theorem spaces_not_before_literal (b : UInt8) (rest : Bytes) :
    ∀ s ∈ encodedSpaces, s.isPrefixOf (literalByte b ++ rest) = false := by
  obtain ⟨c, tail, heq, hc⟩ := literalByte_head b rest
  have hheads : ∀ s ∈ encodedSpaces, s.head? ≠ some 0x5B ∧ s.head? ≠ some 0x5C ∧ s ≠ [] := by
    decide
  intro s hs
  obtain ⟨h5B, h5C, hne⟩ := hheads s hs
  have hhead : s.head? ≠ some c := by
    rcases hc with rfl | rfl
    · exact h5B
    · exact h5C
  rw [heq]
  exact isPrefixOf_cons_of_head hne hhead tail

theorem spaces_not_behind_literal (b : UInt8) (rest : Bytes) :
    ∀ s ∈ encodedSpaces.map List.reverse,
      s.isPrefixOf ((literalByte b).reverse ++ rest) = false := by
  have hshape : ∀ s ∈ encodedSpaces.map List.reverse, s ≠ [] ∧ s.head? ≠ some 0x5D ∧
      s[1]? ≠ some 0x5C ∧ (s.length = 1 → s.all (asciiSpaces.contains ·) = true) := by
    decide
  intro s hs
  obtain ⟨hne, hbracket, hbackslash, hsingle⟩ := hshape s hs
  unfold literalByte
  by_cases hb : b ∈ asciiSpaces
  · rw [if_pos hb]
    cases s with
    | nil => exact absurd rfl hne
    | cons x tail =>
      have hx : x ≠ 0x5D := fun h => hbracket (h ▸ rfl)
      simp [List.isPrefixOf, hx]
  · rw [if_neg hb]
    match s with
    | [] => exact absurd rfl hne
    | [x] => grind
    | x :: y :: tail =>
      have hy : y ≠ 0x5C := fun h => hbackslash (h ▸ rfl)
      simp [List.isPrefixOf, hy]

theorem trimSpaceBytes_literal : trimSpaceBytes (literal name) = literal name := by
  have hfront : trimLeading encodedSpaces (literal name).length (literal name) =
      literal name := by
    cases name with
    | nil => rfl
    | cons b rest => exact trimLeading_of_none (spaces_not_before_literal b _) _
  have hback : trimLeading (encodedSpaces.map List.reverse) (literal name).length
      (literal name).reverse = (literal name).reverse := by
    rcases List.eq_nil_or_concat name with rfl | ⟨init, last, rfl⟩
    · rfl
    · have hreverse : (literal (init ++ [last])).reverse =
          (literalByte last).reverse ++ (literal init).reverse := by
        simp [literal]
      rw [List.concat_eq_append, hreverse]
      exact trimLeading_of_none (spaces_not_behind_literal last _) _
  rw [trimSpaceBytes, hfront, hback, List.reverse_reverse]

end Kagenti.Go.Path
