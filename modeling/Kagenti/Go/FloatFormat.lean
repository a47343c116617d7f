import Mathlib.Data.List.TakeWhile
import Kagenti.Go.Float64
import Kagenti.Go.MarshalText

/-!
The texts of numbers. The text determines the sign and the binary64 value.
-/

namespace Kagenti.Go

/-! Reading numerals -/

def natOfDigits (ds : List Char) : Nat := Nat.ofDigitChars 10 ds 0

def decimalValue (cs : List Char) : ℚ :=
  let fraction := (cs.dropWhile (· ≠ '.')).tail
  natOfDigits (cs.takeWhile (· ≠ '.') ++ fraction) / 10 ^ fraction.length

def exponentValue : List Char → Int
  | '-' :: ds => -natOfDigits ds
  | '+' :: ds => natOfDigits ds
  | _ => 0

def numeralValue (cs : List Char) : ℚ :=
  decimalValue (cs.takeWhile (· ≠ 'e')) * 10 ^ exponentValue (cs.dropWhile (· ≠ 'e')).tail

theorem natOfDigits_append_zeros (ds : List Char) (n : Nat) :
    natOfDigits (ds ++ List.replicate n '0') = natOfDigits ds * 10 ^ n := by
  rw [natOfDigits, Nat.ofDigitChars_append, Nat.ofDigitChars_replicate_zero, mul_comm]
  rfl

theorem natOfDigits_zeros_append (ds : List Char) (n : Nat) :
    natOfDigits (List.replicate n '0' ++ ds) = natOfDigits ds := by
  rw [natOfDigits, Nat.ofDigitChars_append, Nat.ofDigitChars_replicate_zero, mul_zero]
  rfl

variable (n : Nat) (negative : Bool)

theorem natOfDigits_decimalDigits : natOfDigits (decimalDigits n) = n :=
  Nat.ofDigitChars_toDigits (by decide) (by decide)

private theorem ne_of_notMem {c : Char} {cs : List Char} (h : c ∉ cs) :
    ∀ d ∈ cs, decide (d ≠ c) = true :=
  fun _ hd => decide_eq_true fun heq => h (heq ▸ hd)

section Digits

def AllDigits (ds : List Char) : Prop := ∀ c ∈ ds, c.isDigit = true

variable {ds : List Char} (h : AllDigits ds)

include h

private theorem AllDigits.notMem {c : Char} (hc : c.isDigit = false) : c ∉ ds :=
  fun hmem => absurd (h c hmem) (by rw [hc]; decide)

theorem AllDigits.decimalValue_eq : decimalValue ds = natOfDigits ds := by
  have hpoint := ne_of_notMem (h.notMem (c := '.') rfl)
  rw [decimalValue, List.dropWhile_eq_nil_iff.mpr hpoint, List.takeWhile_eq_self_iff.mpr hpoint]
  simp

theorem AllDigits.decimalValue_point (fraction : List Char) :
    decimalValue (ds ++ '.' :: fraction) = natOfDigits (ds ++ fraction) / 10 ^ fraction.length := by
  have hpoint := ne_of_notMem (h.notMem (c := '.') rfl)
  rw [decimalValue, List.dropWhile_append_of_pos hpoint, List.takeWhile_append_of_pos hpoint]
  simp

end Digits

variable {cs : List Char}

theorem numeralValue_of_no_exponent (h : 'e' ∉ cs) : numeralValue cs = decimalValue cs := by
  have hne := ne_of_notMem h
  rw [numeralValue, List.dropWhile_eq_nil_iff.mpr hne, List.takeWhile_eq_self_iff.mpr hne]
  simp [exponentValue]

theorem numeralValue_exponent (h : 'e' ∉ cs) (exponent : List Char) :
    numeralValue (cs ++ 'e' :: exponent) = decimalValue cs * 10 ^ exponentValue exponent := by
  have hne := ne_of_notMem h
  rw [numeralValue, List.dropWhile_append_of_pos hne, List.takeWhile_append_of_pos hne]
  simp

/-! Writing numerals -/

/-- The layouts of `floatEncoder` for the digits of a number whose point is behind `point` of
them. -/
def numeralText (digits : List Char) (point : Int) : List Char :=
  if point < -5 ∨ 21 < point then
    let fraction := if digits.tail = [] then [] else '.' :: digits.tail
    digits.take 1 ++ fraction ++ ['e', if point - 1 < 0 then '-' else '+'] ++
      decimalDigits (point - 1).natAbs
  else if point ≤ 0 then ['0', '.'] ++ List.replicate (-point).toNat '0' ++ digits
  else if digits.length ≤ point.toNat then
    digits ++ List.replicate (point.toNat - digits.length) '0'
  else digits.take point.toNat ++ ['.'] ++ digits.drop point.toNat

/-- The digits that `formatFloat` writes, and where their point is. -/
def shortestDigits (f : Float64) : List Char × Int :=
  let all := decimalDigits f.shortest.1
  (stripTrailingZeros all, f.shortest.2 + all.length)

def magnitudeText (f : Float64) : List Char :=
  if f.mantissa = 0 then ['0'] else numeralText (shortestDigits f).1 (shortestDigits f).2

theorem formatFloat_eq (f : Float64) :
    formatFloat negative f = (if negative then ['-'] else []) ++ magnitudeText f := by
  unfold formatFloat magnitudeText numeralText shortestDigits
  dsimp only
  split
  · rfl
  · grind

theorem stripTrailingZeros_append (ds : List Char) :
    ∃ n, ds = stripTrailingZeros ds ++ List.replicate n '0' := by
  refine ⟨(ds.reverse.takeWhile (· = '0')).length, ?_⟩
  have hzeros : ds.reverse.takeWhile (· = '0') =
      List.replicate (ds.reverse.takeWhile (· = '0')).length '0' := by
    rw [List.eq_replicate_iff]
    exact ⟨rfl, fun c hc => by simpa using List.mem_takeWhile_imp hc⟩
  have hsplit := congrArg List.reverse (List.takeWhile_append_dropWhile (p := (· = '0')) (l := ds.reverse))
  rw [List.reverse_append, List.reverse_reverse, hzeros, List.reverse_replicate] at hsplit
  exact hsplit.symm

theorem allDigits_decimalDigits : AllDigits (decimalDigits n) :=
  fun _ hc => Nat.isDigit_of_mem_toDigits (by decide) (by decide) hc

variable {ds : List Char} {es : List Char}

theorem AllDigits.append (hds : AllDigits ds) (hes : AllDigits es) : AllDigits (ds ++ es) := by
  exact List.forall_mem_append.mpr ⟨hds, hes⟩

theorem allDigits_zeros : AllDigits (List.replicate n '0') := by
  intro c hc
  rw [List.eq_of_mem_replicate hc]
  decide

theorem AllDigits.of_subset (hds : AllDigits ds) (hsub : es ⊆ ds) :
    AllDigits es := fun c hc => hds c (hsub hc)

private theorem exponentValue_sign (e : Int) :
    exponentValue ((if e < 0 then '-' else '+') :: decimalDigits e.natAbs) = e := by
  split
  · rw [exponentValue, natOfDigits_decimalDigits]
    omega
  · rw [exponentValue, natOfDigits_decimalDigits]
    omega

private theorem decimalValue_scientific (h : AllDigits ds) :
    decimalValue (ds.take 1 ++ if ds.tail = [] then [] else '.' :: ds.tail) =
      natOfDigits ds * 10 ^ (1 - ds.length : Int) := by
  cases ds with
  | nil => simp [decimalValue, natOfDigits]
  | cons d ds =>
    have hd : AllDigits [d] := h.of_subset (by simp)
    rw [List.take_succ_cons, List.take_zero, List.tail_cons]
    split
    next hnil =>
      rw [hnil, List.append_nil, hd.decimalValue_eq]
      simp
    · rw [hd.decimalValue_point, List.length_cons, Nat.cast_succ, sub_add_cancel_right, zpow_neg,
        zpow_natCast, div_eq_mul_inv]
      rfl

theorem numeralValue_numeralText (h : AllDigits ds) (point : Int) :
    numeralValue (numeralText ds point) = natOfDigits ds * 10 ^ (point - ds.length) := by
  have hten : (10 : ℚ) ≠ 0 := by norm_num
  unfold numeralText
  split
  · have hmantissa : 'e' ∉ ds.take 1 ++ if ds.tail = [] then [] else '.' :: ds.tail := by
      have htake := (h.of_subset (List.take_subset 1 ds)).notMem (c := 'e') rfl
      have htail := (h.of_subset (List.tail_sublist ds).subset).notMem (c := 'e') rfl
      split <;> simp [htake, htail]
    rw [List.append_assoc, List.cons_append, List.cons_append, List.nil_append,
      numeralValue_exponent hmantissa, exponentValue_sign, decimalValue_scientific h, mul_assoc,
      ← zpow_add₀ hten]
    congr 2
    ring
  split
  next hsmall =>
    have hzeros := allDigits_zeros (-point).toNat
    have hno : 'e' ∉ ['0', '.'] ++ List.replicate (-point).toNat '0' ++ ds := by
      simp [hzeros.notMem (c := 'e') rfl, h.notMem (c := 'e') rfl]
    have hsplit : ['0', '.'] ++ List.replicate (-point).toNat '0' ++ ds =
        List.replicate 1 '0' ++ '.' :: (List.replicate (-point).toNat '0' ++ ds) := rfl
    rw [numeralValue_of_no_exponent hno, hsplit, (allDigits_zeros 1).decimalValue_point,
      natOfDigits_zeros_append, natOfDigits_zeros_append, div_eq_mul_inv, ← zpow_natCast,
      ← zpow_neg]
    congr 2
    rw [List.length_append, List.length_replicate]
    omega
  split
  next hlarge hfits =>
    have hall := h.append (allDigits_zeros (point.toNat - ds.length))
    rw [numeralValue_of_no_exponent (hall.notMem rfl), hall.decimalValue_eq, natOfDigits_append_zeros,
      Nat.cast_mul, Nat.cast_pow, ← zpow_natCast]
    congr 2
    omega
  next hlarge hlong =>
    have hfront := h.of_subset (List.take_subset point.toNat ds)
    have hback := h.of_subset (List.drop_subset point.toNat ds)
    have hno : 'e' ∉ ds.take point.toNat ++ ['.'] ++ ds.drop point.toNat := by
      simp [hfront.notMem (c := 'e') rfl, hback.notMem (c := 'e') rfl]
    rw [numeralValue_of_no_exponent hno, List.append_assoc, List.cons_append, List.nil_append,
      hfront.decimalValue_point, List.take_append_drop, div_eq_mul_inv, ← zpow_natCast, ← zpow_neg,
      List.length_drop]
    congr 2
    omega

/-! The text of a number -/

theorem allDigits_shortestDigits (f : Float64) : AllDigits (shortestDigits f).1 := by
  obtain ⟨n, hn⟩ := stripTrailingZeros_append (decimalDigits f.shortest.1)
  refine (allDigits_decimalDigits f.shortest.1).of_subset ?_
  conv_rhs => rw [hn]
  exact List.subset_append_left _ _

theorem shortestDigits_value (f : Float64) :
    (natOfDigits (shortestDigits f).1 : ℚ) *
      10 ^ ((shortestDigits f).2 - (shortestDigits f).1.length) =
        f.shortest.1 * 10 ^ f.shortest.2 := by
  obtain ⟨n, hn⟩ := stripTrailingZeros_append (decimalDigits f.shortest.1)
  have hdigits := congrArg natOfDigits hn
  have hlength := congrArg List.length hn
  rw [natOfDigits_decimalDigits, natOfDigits_append_zeros] at hdigits
  rw [List.length_append, List.length_replicate] at hlength
  unfold shortestDigits
  dsimp only
  rw [hlength]
  conv_rhs => rw [hdigits]
  rw [Nat.cast_mul, Nat.cast_pow, Nat.cast_ofNat, mul_assoc, ← zpow_natCast,
    ← zpow_add₀ (by norm_num)]
  congr 2
  push_cast
  ring

variable {f : Float64}

theorem rounded_magnitudeText (hf : f.IsBinary64) :
    Float64.rounded (numeralValue (magnitudeText f)) = f := by
  unfold magnitudeText
  split
  next hzero =>
    have hexp := hf.normal (by rw [hzero]; decide)
    have hvalue : numeralValue ['0'] = 0 := by
      have hdigits : AllDigits ['0'] := allDigits_zeros 1
      rw [numeralValue_of_no_exponent (by decide), hdigits.decimalValue_eq]
      rfl
    rw [hvalue, Float64.rounded, if_pos rfl, ← hzero, ← hexp]
  next hne =>
    rw [numeralValue_numeralText (allDigits_shortestDigits f), shortestDigits_value]
    exact Float64.rounded_shortest hf (Nat.pos_of_ne_zero hne)

def numeralChar (c : Char) : Bool := c.isDigit || c == '.' || c == 'e' || c == '-' || c == '+'

theorem AllDigits.numeral (h : AllDigits ds) : ∀ c ∈ ds, numeralChar c = true := by
  intro c hc
  rw [numeralChar, h c hc]
  rfl

theorem numeralText_numeral (h : AllDigits ds) (point : Int) :
    ∀ c ∈ numeralText ds point, numeralChar c = true := by
  have htake := fun n => (h.of_subset (List.take_subset n ds)).numeral
  have hdrop := fun n => (h.of_subset (List.drop_subset n ds)).numeral
  have hzeros := fun n => (allDigits_zeros n).numeral
  unfold numeralText
  split
  · have hfraction : ∀ c ∈ (if ds.tail = [] then [] else '.' :: ds.tail), numeralChar c = true := by
      have htail := (h.of_subset (List.tail_sublist ds).subset).numeral
      split
      · simp
      · exact List.forall_mem_cons.mpr ⟨rfl, htail⟩
    have hexponent : ∀ c ∈ ['e', if point - 1 < 0 then '-' else '+'], numeralChar c = true := by
      split <;> simp [numeralChar]
    simp only [List.forall_mem_append]
    exact ⟨⟨⟨htake 1, hfraction⟩, hexponent⟩, (allDigits_decimalDigits _).numeral⟩
  split
  · simp only [List.forall_mem_append]
    exact ⟨⟨by simp [numeralChar], hzeros _⟩, h.numeral⟩
  split
  · exact List.forall_mem_append.mpr ⟨h.numeral, hzeros _⟩
  · simp only [List.forall_mem_append]
    exact ⟨⟨htake _, by simp [numeralChar]⟩, hdrop _⟩

theorem numeralText_start (h : AllDigits ds) (point : Int) :
    ∃ c cs, numeralText ds point = c :: cs ∧ c ≠ '-' := by
  have hdigit : ∀ d, d.isDigit = true → d ≠ '-' := by
    rintro d hd rfl
    exact absurd hd (by decide)
  cases ds with
  | nil =>
    unfold numeralText
    split
    · exact ⟨'e', _, rfl, by decide⟩
    split
    · exact ⟨'0', _, rfl, by decide⟩
    · obtain ⟨n, hn⟩ : ∃ n, point.toNat = n + 1 := ⟨point.toNat - 1, by omega⟩
      rw [List.length_nil, if_pos (Nat.zero_le _), List.nil_append, hn]
      exact ⟨'0', _, rfl, by decide⟩
  | cons d ds =>
    have hd := hdigit d (h d List.mem_cons_self)
    unfold numeralText
    split
    · exact ⟨d, _, rfl, hd⟩
    split
    · exact ⟨'0', _, rfl, by decide⟩
    split
    · exact ⟨d, _, rfl, hd⟩
    · obtain ⟨n, hn⟩ : ∃ n, point.toNat = n + 1 := ⟨point.toNat - 1, by omega⟩
      rw [hn, List.take_succ_cons]
      exact ⟨d, _, rfl, hd⟩

theorem magnitudeText_numeral (f : Float64) : ∀ c ∈ magnitudeText f, numeralChar c = true := by
  unfold magnitudeText
  split
  · simp [numeralChar]
  · exact numeralText_numeral (allDigits_shortestDigits f) _

theorem magnitudeText_start (f : Float64) : ∃ c cs, magnitudeText f = c :: cs ∧ c ≠ '-' := by
  unfold magnitudeText
  split
  · exact ⟨'0', [], rfl, by decide⟩
  · exact numeralText_start (allDigits_shortestDigits f) _

theorem formatFloat_numeral (f : Float64) : ∀ c ∈ formatFloat negative f, numeralChar c = true := by
  rw [formatFloat_eq]
  refine List.forall_mem_append.mpr ⟨?_, magnitudeText_numeral f⟩
  cases negative <;> simp [numeralChar]

theorem formatFloat_ne_nil (f : Float64) : formatFloat negative f ≠ [] := by
  obtain ⟨c, cs, hstart, -⟩ := magnitudeText_start f
  rw [formatFloat_eq, hstart]
  simp

theorem formatFloat_injective {negative negative' : Bool} {f' : Float64} (hf : f.IsBinary64)
    (hf' : f'.IsBinary64) (h : formatFloat negative f = formatFloat negative' f') :
    negative = negative' ∧ f = f' := by
  obtain ⟨c, cs, hstart, hc⟩ := magnitudeText_start f
  obtain ⟨c', cs', hstart', hc'⟩ := magnitudeText_start f'
  have hsame : negative = negative' ∧ magnitudeText f = magnitudeText f' := by
    grind [formatFloat_eq]
  refine ⟨hsame.1, ?_⟩
  rw [← rounded_magnitudeText hf, hsame.2, rounded_magnitudeText hf']

end Kagenti.Go
