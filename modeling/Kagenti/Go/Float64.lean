import Mathlib.Algebra.Order.Field.Power
import Mathlib.Algebra.Order.Floor.Semifield
import Mathlib.Data.Int.Log
import Mathlib.Data.Rat.Floor
import Mathlib.Tactic.FieldSimp
import Mathlib.Tactic.Linarith
import Mathlib.Tactic.Ring
import Kagenti.Go.Marshal

/-!
The binary64 values of JSON numbers, as rationals. The shortest decimal of a value is decoded to the
value again: seventeen digits are always enough.
-/

namespace Kagenti.Go

/-! Rationals -/

def nearest (q : ℚ) : Nat :=
  let n := ⌊q⌋₊
  if 2 * (q - n) < 1 then n
  else if 1 < 2 * (q - n) then n + 1
  else if n % 2 = 0 then n
  else n + 1

variable {q : ℚ}

theorem nearest_spec (hq : 0 ≤ q) : |(nearest q : ℚ) - q| ≤ 1 / 2 := by
  have hlo := Nat.floor_le hq
  have hhi := Nat.lt_floor_add_one q
  unfold nearest
  dsimp only
  rw [abs_le]
  split_ifs <;> push_cast <;> constructor <;> linarith

theorem nearest_eq {n : Nat} (hq : 0 ≤ q) (h : |q - n| < 1 / 2) : nearest q = n := by
  have hnear := nearest_spec hq
  have hdist : |(nearest q : ℚ) - n| < 1 := by grind
  rw [abs_lt] at hdist
  have hlt : (nearest q : ℚ) < n + 1 := by linarith
  have hgt : (n : ℚ) < nearest q + 1 := by linarith
  have hlt' : nearest q < n + 1 := by exact_mod_cast hlt
  have hgt' : n < nearest q + 1 := by exact_mod_cast hgt
  omega

namespace Ratio

def value (r : Ratio) : ℚ := r.num / r.den

theorem value_nonneg (r : Ratio) : 0 ≤ r.value := by
  unfold value
  positivity

theorem value_ofDecimal (digits : Nat) (exponent : Int) :
    (ofDecimal digits exponent).value = digits * 10 ^ exponent := by
  unfold ofDecimal value
  split
  next h =>
    obtain ⟨k, rfl⟩ := Int.eq_ofNat_of_zero_le h
    simp
  next h =>
    obtain ⟨k, rfl⟩ := Int.exists_eq_neg_ofNat (not_le.mp h).le
    simp [div_eq_mul_inv]

variable {base : Nat}

theorem value_scale (r : Ratio) (hbase : base ≠ 0) (exponent : Int) :
    (r.scale base exponent).value = r.value / (base : ℚ) ^ exponent := by
  have hpos : (base : ℚ) ≠ 0 := by exact_mod_cast hbase
  unfold scale value
  split
  next h =>
    obtain ⟨k, rfl⟩ := Int.eq_ofNat_of_zero_le h
    simp [div_div]
  next h =>
    obtain ⟨k, rfl⟩ := Int.exists_eq_neg_ofNat (not_le.mp h).le
    simp only [neg_neg, Int.toNat_natCast, Nat.cast_mul, Nat.cast_pow, zpow_neg, zpow_natCast,
      div_inv_eq_mul]
    ring

theorem den_ofDecimal (digits : Nat) (exponent : Int) : (ofDecimal digits exponent).den ≠ 0 := by
  unfold ofDecimal
  split <;> simp

variable {r : Ratio}

theorem den_scale (h : r.den ≠ 0) (hbase : base ≠ 0) (exponent : Int) :
    (r.scale base exponent).den ≠ 0 := by
  unfold scale
  split <;> simp [h, hbase]

theorem floor_eq (r : Ratio) : r.floor = ⌊r.value⌋₊ := (Nat.floor_div_eq_div r.num r.den).symm

theorem round_eq (h : r.den ≠ 0) : r.round = nearest r.value := by
  have hden : (0 : ℚ) < r.den := by exact_mod_cast Nat.pos_of_ne_zero h
  have hsplit : (r.num : ℚ) = r.den * (r.num / r.den : Nat) + (r.num % r.den : Nat) := by
    exact_mod_cast (Nat.div_add_mod r.num r.den).symm
  have hfract : 2 * (r.value - (r.num / r.den : Nat)) * r.den = (2 * (r.num % r.den) : Nat) := by
    rw [value, mul_assoc, sub_mul, div_mul_cancel₀ _ hden.ne', hsplit]
    push_cast
    ring
  have hlt : 2 * (r.value - (r.num / r.den : Nat)) < 1 ↔ 2 * (r.num % r.den) < r.den := by
    rw [← mul_lt_mul_iff_left₀ hden, hfract, one_mul, Nat.cast_lt]
  have hgt : 1 < 2 * (r.value - (r.num / r.den : Nat)) ↔ r.den < 2 * (r.num % r.den) := by
    rw [← mul_lt_mul_iff_left₀ hden, hfract, one_mul, Nat.cast_lt]
  unfold round nearest
  rw [← floor_eq, floor]
  simp only [hlt, hgt]

end Ratio

namespace Float64

def value (f : Float64) : ℚ := f.mantissa * 2 ^ f.exponent

theorem value_toRatio (f : Float64) : f.toRatio.value = f.value := by
  rw [toRatio, Ratio.value_scale _ (by decide)]
  simp [Ratio.value, value]

theorem den_toRatio (f : Float64) : f.toRatio.den ≠ 0 :=
  Ratio.den_scale one_ne_zero two_ne_zero _

/-! The nearest value -/

def rounded (q : ℚ) : Float64 :=
  if q = 0 then ⟨0, -1074⟩
  else
    let exponent := max (Int.log 2 q - 52) (-1074)
    let mantissa := nearest (q / 2 ^ exponent)
    if mantissa = 2 ^ 53 then ⟨2 ^ 52, exponent + 1⟩ else ⟨mantissa, exponent⟩

variable {q : ℚ} {k : Int}

private theorem log_eq (hlo : (2 : ℚ) ^ k ≤ q) (hhi : q < 2 ^ (k + 1)) : Int.log 2 q = k := by
  have hpos : 0 < q := lt_of_lt_of_le (zpow_pos two_pos k) hlo
  have h1 : k ≤ Int.log 2 q := (Int.zpow_le_iff_le_log (by decide) hpos).mp (by exact_mod_cast hlo)
  have h2 : Int.log 2 q < k + 1 :=
    (Int.lt_zpow_iff_log_lt (by decide) hpos).mp (by exact_mod_cast hhi)
  omega

theorem zpow_log_le (hq : 0 < q) : (2 : ℚ) ^ Int.log 2 q ≤ q := by
  exact_mod_cast Int.zpow_log_le_self (b := 2) (by decide) hq

theorem lt_zpow_succ_log (q : ℚ) : q < (2 : ℚ) ^ (Int.log 2 q + 1) := by
  exact_mod_cast Int.lt_zpow_succ_log_self (b := 2) (by decide) q

private theorem log2_bounds {n : Nat} (hn : n ≠ 0) :
    (2 : ℚ) ^ (Nat.log2 n : Int) ≤ n ∧ (n : ℚ) < 2 ^ ((Nat.log2 n : Int) + 1) :=
  ⟨by exact_mod_cast Nat.log2_self_le hn, by exact_mod_cast Nat.lt_log2_self⟩

variable {r : Ratio}

private theorem value_bounds (hnum : r.num ≠ 0) (hden : r.den ≠ 0) :
    (2 : ℚ) ^ ((Nat.log2 r.num : Int) - Nat.log2 r.den - 1) ≤ r.value ∧
      r.value < 2 ^ ((Nat.log2 r.num : Int) - Nat.log2 r.den + 1) := by
  have hpos : (0 : ℚ) < r.den := by exact_mod_cast Nat.pos_of_ne_zero hden
  obtain ⟨hnum1, hnum2⟩ := log2_bounds hnum
  obtain ⟨hden1, hden2⟩ := log2_bounds hden
  generalize (Nat.log2 r.num : Int) = a at hnum1 hnum2 ⊢
  generalize (Nat.log2 r.den : Int) = b at hden1 hden2 ⊢
  rw [Ratio.value]
  constructor
  · rw [le_div_iff₀ hpos]
    calc (2 : ℚ) ^ (a - b - 1) * r.den ≤ 2 ^ (a - b - 1) * 2 ^ (b + 1) := by gcongr
      _ = 2 ^ a := by
          rw [← zpow_add₀ two_ne_zero]
          congr 1
          ring
      _ ≤ r.num := hnum1
  · rw [div_lt_iff₀ hpos]
    calc (r.num : ℚ) < 2 ^ (a + 1) := hnum2
      _ = 2 ^ (a - b + 1) * 2 ^ b := by
          rw [← zpow_add₀ two_ne_zero]
          congr 1
          ring
      _ ≤ 2 ^ (a - b + 1) * r.den := by gcongr

private theorem guess_eq (hnum : r.num ≠ 0) (hden : r.den ≠ 0) :
    (let guess : Int := (Nat.log2 r.num : Int) - Nat.log2 r.den - 52
     if (r.scale 2 guess).floor < 2 ^ 52 then guess - 1 else guess) = Int.log 2 r.value - 52 := by
  obtain ⟨hlo, hhi⟩ := value_bounds hnum hden
  generalize (Nat.log2 r.num : Int) - Nat.log2 r.den = k at hlo hhi ⊢
  dsimp only
  have hscaled : (r.scale 2 (k - 52)).floor < 2 ^ 52 ↔ r.value < 2 ^ k := by
    have hsplit : (2 : ℚ) ^ k = 2 ^ 52 * 2 ^ (k - 52) := by
      rw [← zpow_natCast, ← zpow_add₀ two_ne_zero]
      congr 1
      ring
    rw [Ratio.floor_eq, Ratio.value_scale _ two_ne_zero,
      Nat.floor_lt (div_nonneg r.value_nonneg (by positivity)), Nat.cast_ofNat,
      div_lt_iff₀ (by positivity), hsplit]
    norm_num
  split
  next hsmall =>
    have hlog : Int.log 2 r.value = k - 1 := by
      refine log_eq hlo ?_
      rw [sub_add_cancel]
      exact hscaled.mp hsmall
    omega
  next hlarge =>
    have hlog : Int.log 2 r.value = k := log_eq (not_lt.mp fun h => hlarge (hscaled.mpr h)) hhi
    omega

theorem ofRatio_eq (hden : r.den ≠ 0) : ofRatio r = rounded r.value := by
  have hzero : r.num = 0 ↔ r.value = 0 := by
    rw [Ratio.value, div_eq_zero_iff, Nat.cast_eq_zero, Nat.cast_eq_zero, or_iff_left hden]
  unfold ofRatio rounded
  by_cases hnum : r.num = 0
  · rw [if_pos hnum, if_pos (hzero.mp hnum)]
  · rw [if_neg hnum, if_neg (fun h => hnum (hzero.mpr h))]
    have hguess := guess_eq hnum hden
    dsimp only at hguess ⊢
    rw [hguess, Ratio.round_eq (Ratio.den_scale hden (by decide) _),
      Ratio.value_scale r (by decide)]
    rfl

/-- A finite binary64 magnitude, in its normal form. -/
structure IsBinary64 (f : Float64) : Prop where
  mantissa_lt : f.mantissa < 2 ^ 53
  normal : f.mantissa < 2 ^ 52 → f.exponent = -1074
  exponent_ge : -1074 ≤ f.exponent
  exponent_le : f.exponent ≤ 971

private theorem scaled_bounds (hq : 0 < q) {e : Int} (he : e = max (Int.log 2 q - 52) (-1074)) :
    q / 2 ^ e < 2 ^ 53 ∧ (-1074 < e → 2 ^ 52 ≤ q / 2 ^ e) := by
  have hpow : (0 : ℚ) < 2 ^ e := zpow_pos two_pos e
  constructor
  · rw [div_lt_iff₀ hpow]
    calc q < 2 ^ (Int.log 2 q + 1) := lt_zpow_succ_log q
      _ ≤ 2 ^ (53 + e) := zpow_le_zpow_right₀ one_le_two (by omega)
      _ = 2 ^ 53 * 2 ^ e := by
          rw [zpow_add₀ two_ne_zero]
          norm_num
  · intro hnormal
    rw [le_div_iff₀ hpow]
    calc (2 : ℚ) ^ 52 * 2 ^ e = 2 ^ (52 + e) := by
          rw [zpow_add₀ two_ne_zero]
          norm_num
      _ ≤ 2 ^ Int.log 2 q := zpow_le_zpow_right₀ one_le_two (by omega)
      _ ≤ q := zpow_log_le hq

private theorem nearest_bounds {x : ℚ} (hx : 0 ≤ x) :
    (nearest x : ℚ) ≤ x + 1 / 2 ∧ x - 1 / 2 ≤ nearest x := by
  have h := abs_le.mp (nearest_spec hx)
  constructor <;> linarith

theorem isBinary64_rounded (hq : 0 ≤ q) (hrange : q < (2 ^ 54 - 1) * 2 ^ (970 : Int)) :
    (rounded q).IsBinary64 := by
  unfold rounded
  split
  · exact ⟨by norm_num, fun _ => rfl, le_refl _, by norm_num⟩
  rename_i hne
  have hpos : 0 < q := lt_of_le_of_ne hq (Ne.symm hne)
  dsimp only
  generalize he : max (Int.log 2 q - 52) (-1074) = e
  obtain ⟨hlt, hge⟩ := scaled_bounds hpos he.symm
  have hx : 0 ≤ q / 2 ^ e := div_nonneg hq (zpow_nonneg zero_le_two e)
  obtain ⟨hup, hdown⟩ := nearest_bounds hx
  have hlog : Int.log 2 q < 1024 := by
    refine (Int.lt_zpow_iff_log_lt (by decide) hpos).mp ?_
    calc q < (2 ^ 54 - 1) * 2 ^ (970 : Int) := hrange
      _ ≤ 2 ^ (54 : Int) * 2 ^ (970 : Int) := by gcongr; norm_num
      _ = 2 ^ (54 + 970 : Int) := (zpow_add₀ two_ne_zero 54 970).symm
  have hle : nearest (q / 2 ^ e) < 2 ^ 53 + 1 := by
    have hcast : (nearest (q / 2 ^ e) : ℚ) < 2 ^ 53 + 1 := by linarith
    exact_mod_cast hcast
  split
  next hfull =>
    refine ⟨by norm_num, fun h => absurd h (lt_irrefl _), by dsimp only; omega, ?_⟩
    dsimp only
    -- at the top exponent, rounding up would mean an overflow
    rcases lt_or_ge e 971 with hsmall | htop
    · omega
    · obtain rfl : e = 971 := by omega
      have hbig : (2 ^ 53 - 1 / 2) * 2 ^ (1 + 970 : Int) ≤ q := by
        rw [← le_div_iff₀ (zpow_pos two_pos _), sub_le_iff_le_add]
        rw [hfull, Nat.cast_pow, Nat.cast_ofNat] at hup
        exact hup
      have hsame : ((2 : ℚ) ^ 53 - 1 / 2) * 2 ^ (1 + 970 : Int) = (2 ^ 54 - 1) * 2 ^ (970 : Int) := by
        rw [zpow_one_add₀ two_ne_zero]
        generalize (2 : ℚ) ^ (970 : Int) = unit
        ring
      exact absurd (hsame ▸ hbig) (not_le.mpr hrange)
  next hpart =>
    refine ⟨by dsimp only; omega, ?_, by dsimp only; omega, by dsimp only; omega⟩
    intro hsub
    by_contra hexp
    have hlarge := hge (by dsimp only at hexp; omega)
    have hcast : (2 : ℚ) ^ 52 < nearest (q / 2 ^ e) + 1 := by linarith
    have hnat : 2 ^ 52 < nearest (q / 2 ^ e) + 1 := by exact_mod_cast hcast
    dsimp only at hsub
    omega

variable {f : Float64}

theorem rounded_eq_of_near (hf : f.IsBinary64) (hpos : 0 < f.mantissa)
    (hnear : |q / 2 ^ f.exponent - f.mantissa| < 1 / 2)
    (hbelow : f.mantissa = 2 ^ 52 → f.mantissa - 1 / 4 < q / 2 ^ f.exponent) : rounded q = f := by
  obtain ⟨m, e⟩ := f
  obtain ⟨hmlt, hnormal, hemin, -⟩ := hf
  dsimp only at *
  have hpow : (0 : ℚ) < 2 ^ e := zpow_pos two_pos e
  generalize hx : q / 2 ^ e = x at hnear hbelow
  obtain rfl : x * 2 ^ e = q := by rw [← hx, div_mul_cancel₀ _ hpow.ne']
  have hbounds := abs_lt.mp hnear
  have hm1 : (1 : ℚ) ≤ m := by exact_mod_cast hpos
  have hm2 : (m : ℚ) + 1 ≤ 2 ^ 53 := by exact_mod_cast hmlt
  have hxpos : 0 < x := by linarith
  have hqpos : 0 < x * 2 ^ e := mul_pos hxpos hpow
  have hsplit : ∀ k : Int, (2 : ℚ) ^ (k + e) = 2 ^ k * 2 ^ e := fun k => zpow_add₀ two_ne_zero k e
  have htop : Int.log 2 (x * 2 ^ e) < 53 + e := by
    refine (Int.lt_zpow_iff_log_lt (by decide) hqpos).mp ?_
    rw [Nat.cast_ofNat, hsplit]
    gcongr
    linarith
  have hnearest : nearest x = m := nearest_eq hxpos.le hnear
  unfold rounded
  rw [if_neg hqpos.ne']
  dsimp only
  by_cases hstep : e = max (Int.log 2 (x * 2 ^ e) - 52) (-1074)
  · rw [← hstep, mul_div_cancel_right₀ _ hpow.ne', hnearest, if_neg (by omega)]
  -- the number is below the power of two, in the finer grid
  · have hlow : Int.log 2 (x * 2 ^ e) < 52 + e := by omega
    have hx52 : x < 2 ^ 52 := by
      have hlt := (Int.lt_zpow_iff_log_lt (b := 2) (by decide) hqpos).mpr hlow
      rw [Nat.cast_ofNat, hsplit] at hlt
      exact_mod_cast lt_of_mul_lt_mul_right hlt hpow.le
    have hm52 : m = 2 ^ 52 := by
      have hge : ¬ m < 2 ^ 52 := fun hsub => by omega
      have hle : (m : ℚ) < 2 ^ 52 + 1 := by linarith
      have hle' : m < 2 ^ 52 + 1 := by exact_mod_cast hle
      omega
    subst hm52
    have hquarter := hbelow rfl
    have hlog : Int.log 2 (x * 2 ^ e) = 51 + e := by
      refine log_eq ?_ ?_
      · rw [hsplit]
        gcongr
        linarith
      · rw [show (51 : Int) + e + 1 = 52 + e by omega, hsplit]
        gcongr
        exact_mod_cast hx52
    have hexp : max (Int.log 2 (x * 2 ^ e) - 52) (-1074) = e - 1 := by omega
    have hdouble : x * 2 ^ e / 2 ^ (e - 1) = 2 * x := by
      rw [zpow_sub_one₀ two_ne_zero]
      field_simp
    have hround : nearest (2 * x) = 2 ^ 53 := by
      refine nearest_eq (by linarith) ?_
      rw [abs_lt]
      constructor <;> linarith
    rw [hexp, hdouble, hround, if_pos rfl, sub_add_cancel]

/-! The shortest decimal -/

variable {l : Int}

private theorem ten_zpow_le_two_zpow (h : 10 * k ≤ 3 * l) (h' : 93 * k ≤ 28 * l) :
    (10 : ℚ) ^ k ≤ 2 ^ l := by
  rcases le_or_gt 0 l with hl | hl
  · obtain ⟨n, rfl⟩ := Int.eq_ofNat_of_zero_le hl
    rw [← pow_le_pow_iff_left₀ (by positivity) (by positivity) (show 10 ≠ 0 by decide)]
    calc ((10 : ℚ) ^ k) ^ 10 = 10 ^ (10 * k) := by rw [mul_comm, zpow_mul]; norm_cast
      _ ≤ 10 ^ (3 * (n : Int)) := zpow_le_zpow_right₀ (by norm_num) h
      _ = (10 ^ 3) ^ n := by rw [zpow_mul]; norm_cast
      _ ≤ (2 ^ 10) ^ n := by gcongr; norm_num
      _ = ((2 : ℚ) ^ (n : Int)) ^ 10 := by rw [zpow_natCast, ← pow_mul, ← pow_mul, mul_comm]
  · obtain ⟨n, rfl⟩ := Int.exists_eq_neg_ofNat hl.le
    rw [← pow_le_pow_iff_left₀ (by positivity) (by positivity) (show 93 ≠ 0 by decide)]
    calc ((10 : ℚ) ^ k) ^ 93 = 10 ^ (93 * k) := by rw [mul_comm, zpow_mul]; norm_cast
      _ ≤ 10 ^ (28 * (-n : Int)) := zpow_le_zpow_right₀ (by norm_num) h'
      _ = ((10 ^ 28) ^ n)⁻¹ := by rw [zpow_mul, zpow_neg]; norm_cast
      _ ≤ ((2 ^ 93) ^ n)⁻¹ := by gcongr; norm_num
      _ = ((2 : ℚ) ^ (-n : Int)) ^ 93 := by
          rw [zpow_neg, zpow_natCast, inv_pow, ← pow_mul, ← pow_mul, mul_comm]

private theorem two_zpow_le_ten_zpow (h : 3 * l ≤ 10 * k) (h' : 28 * l ≤ 93 * k) :
    (2 : ℚ) ^ l ≤ 10 ^ k := by
  have hinv := ten_zpow_le_two_zpow (k := -k) (l := -l) (by omega) (by omega)
  rw [zpow_neg, zpow_neg] at hinv
  exact (inv_le_inv₀ (by positivity) (by positivity)).mp hinv

theorem value_pos (hpos : 0 < f.mantissa) : 0 < f.value := by
  unfold value
  positivity

theorem decimalPoint_spec (hf : f.IsBinary64) (hpos : 0 < f.mantissa) :
    (10 : ℚ) ^ (f.decimalPoint - 1) ≤ f.value ∧ f.value < 10 ^ f.decimalPoint := by
  have hbelow : ∀ k : Int, decide ((f.toRatio.scale 10 k).floor = 0) = true ↔ f.value < 10 ^ k := by
    intro k
    rw [decide_eq_true_iff, Ratio.floor_eq, Ratio.value_scale _ (by decide), value_toRatio,
      Nat.floor_eq_zero, Nat.cast_ofNat, div_lt_one (by positivity)]
  obtain ⟨hlo, hhi⟩ := log2_bounds hpos.ne'
  replace hlo : (2 : ℚ) ^ ((Nat.log2 f.mantissa : Int) + f.exponent) ≤ f.value := by
    rw [zpow_add₀ two_ne_zero, value]
    gcongr
  replace hhi : f.value < 2 ^ ((Nat.log2 f.mantissa : Int) + f.exponent + 1) := by
    rw [add_right_comm, zpow_add₀ two_ne_zero, value]
    gcongr
  have hlog : Nat.log2 f.mantissa < 53 := (Nat.log2_lt hpos.ne').mpr hf.mantissa_lt
  have hmin := hf.exponent_ge
  have hmax := hf.exponent_le
  unfold decimalPoint
  dsimp only
  generalize hl : (Nat.log2 f.mantissa : Int) + f.exponent = l at hlo hhi ⊢
  generalize hestimate : l * 30103 / 100000 - 1 = estimate
  have hstart : (10 : ℚ) ^ (estimate - 1) ≤ f.value :=
    (ten_zpow_le_two_zpow (by omega) (by omega)).trans hlo
  have hstop : f.value < 10 ^ (estimate + (5 : Nat)) :=
    hhi.trans_le (two_zpow_le_ten_zpow (by push_cast; omega) (by push_cast; omega))
  have hfound : ((List.range 6).find? fun i : Nat =>
      decide ((f.toRatio.scale 10 (estimate + i)).floor = 0)).isSome :=
    List.find?_isSome.mpr ⟨5, by decide, (hbelow _).mpr hstop⟩
  obtain ⟨i, hi⟩ := Option.isSome_iff_exists.mp hfound
  obtain ⟨hk, -, hfirst⟩ := List.find?_range_eq_some.mp hi
  have hexponents : ((List.range 6).map fun i => estimate + i) =
      (List.range 6).map fun i : Nat => estimate + i := rfl
  rw [hexponents, List.find?_map, Function.comp_def, hi, Option.map_some, Option.getD_some]
  refine ⟨?_, (hbelow _).mp hk⟩
  cases i with
  | zero => simpa using hstart
  | succ j => grind

private theorem rounded_seventeen (hf : f.IsBinary64) (hpos : 0 < f.mantissa)
    (hk : (10 : ℚ) ^ (k + 16) ≤ f.value) : rounded (nearest (f.value / 10 ^ k) * 10 ^ k) = f := by
  have hpow : (0 : ℚ) < 2 ^ f.exponent := zpow_pos two_pos _
  have hten : (0 : ℚ) < 10 ^ k := zpow_pos (by norm_num) k
  have hm : (f.mantissa : ℚ) + 1 ≤ 2 ^ 53 := by exact_mod_cast hf.mantissa_lt
  have hnear := nearest_spec (div_nonneg (value_pos hpos).le hten.le)
  generalize hn : (nearest (f.value / 10 ^ k) : ℚ) = n at hnear ⊢
  -- a unit of the last decimal digit, in units of the last binary digit
  have hunit : 10 ^ 16 * ((10 : ℚ) ^ k / 2 ^ f.exponent) ≤ f.mantissa := by
    rw [← mul_div_assoc, div_le_iff₀ hpow]
    calc (10 : ℚ) ^ 16 * 10 ^ k = 10 ^ (k + 16) := by
          rw [zpow_add₀ (by norm_num), mul_comm]
          norm_num
      _ ≤ f.mantissa * 2 ^ f.exponent := hk
  have hdist : |n * 10 ^ k / 2 ^ f.exponent - f.mantissa| ≤
      1 / 2 * ((10 : ℚ) ^ k / 2 ^ f.exponent) := by
    have hscale : n * 10 ^ k / 2 ^ f.exponent - f.mantissa =
        (n - f.value / 10 ^ k) * (10 ^ k / 2 ^ f.exponent) := by
      rw [value]
      field_simp
    rw [hscale, abs_mul, abs_of_pos (div_pos hten hpow)]
    gcongr
  generalize (10 : ℚ) ^ k / 2 ^ f.exponent = unit at hunit hdist
  refine rounded_eq_of_near hf hpos (by linarith) fun hpower => ?_
  have hdown := (abs_le.mp hdist).1
  rw [hpower] at hunit hdown ⊢
  push_cast at hunit hdown ⊢
  linarith

theorem isSome_decimalOfLength (hf : f.IsBinary64) (hpos : 0 < f.mantissa) :
    (f.decimalOfLength 17).isSome := by
  obtain ⟨hlo, -⟩ := decimalPoint_spec hf hpos
  unfold decimalOfLength
  dsimp only
  generalize hk : f.decimalPoint - ((17 : Nat) : Int) = k
  have hvalue : (f.toRatio.scale 10 k).value = f.value / 10 ^ k := by
    rw [Ratio.value_scale _ (by decide), value_toRatio, Nat.cast_ofNat]
  rw [Ratio.round_eq (Ratio.den_scale f.den_toRatio (by decide) k), hvalue]
  have hreads : ofRatio (Ratio.ofDecimal (nearest (f.value / 10 ^ k)) k) = f := by
    rw [ofRatio_eq (Ratio.den_ofDecimal _ _), Ratio.value_ofDecimal]
    refine rounded_seventeen hf hpos ?_
    rwa [show k + 16 = f.decimalPoint - 1 by omega]
  rw [if_pos (decide_eq_true hreads)]
  rfl

theorem ofRatio_of_decimalOfLength {n : Nat} {d : Nat × Int} (h : f.decimalOfLength n = some d) :
    ofRatio (Ratio.ofDecimal d.1 d.2) = f := by
  unfold decimalOfLength at h
  extract_lets exponent scaled nearest other reads at h
  split at h
  next hreads =>
    obtain rfl := Option.some.inj h
    exact of_decide_eq_true hreads
  · grind

/-- The shortest decimal of a value is decoded to the value. -/
theorem rounded_shortest (hf : f.IsBinary64) (hpos : 0 < f.mantissa) :
    rounded (f.shortest.1 * 10 ^ f.shortest.2) = f := by
  have hfound : ((List.range 17).findSome? fun n => f.decimalOfLength (n + 1)).isSome := by
    rw [List.findSome?_isSome_iff]
    exact ⟨16, by decide, isSome_decimalOfLength hf hpos⟩
  obtain ⟨d, hd⟩ := Option.isSome_iff_exists.mp hfound
  obtain ⟨n, -, hn⟩ := List.exists_of_findSome?_eq_some hd
  rw [shortest, hd, Option.getD_some, ← Ratio.value_ofDecimal,
    ← ofRatio_eq (Ratio.den_ofDecimal _ _)]
  exact ofRatio_of_decimalOfLength hn

end Float64

namespace JsonNumber

def magnitude (n : JsonNumber) : ℚ :=
  ofDigits (n.intDigits ++ n.fracDigits) * 10 ^ (n.expValue - n.fracDigits.length)

theorem toFloat64_eq (n : JsonNumber) : n.toFloat64 = Float64.rounded n.magnitude := by
  rw [toFloat64, Float64.ofRatio_eq (Ratio.den_ofDecimal _ _), Ratio.value_ofDecimal]
  rfl

theorem isBinary64_toFloat64 {n : JsonNumber} (h : n.inFloat64Range = true) :
    n.toFloat64.IsBinary64 := by
  rw [toFloat64_eq]
  refine Float64.isBinary64_rounded (by unfold magnitude; positivity) ?_
  have hpower : ∀ e : Nat, (((2 ^ 54 - 1) * 2 ^ e : Nat) : ℚ) = (2 ^ 54 - 1) * 2 ^ (e : Int) := by
    intro e
    rw [Nat.cast_mul, Nat.cast_pow, zpow_natCast]
    norm_num
  have hlimit : (float64Overflow : ℚ) = (2 ^ 54 - 1) * 2 ^ (970 : Int) := by
    simp only [float64Overflow, hpower, Nat.cast_ofNat]
  rw [← hlimit]
  unfold inFloat64Range at h
  dsimp only at h
  unfold magnitude
  generalize n.expValue - n.fracDigits.length = k at h ⊢
  generalize ofDigits (n.intDigits ++ n.fracDigits) = d at h ⊢
  split at h
  next hzero =>
    rw [hzero, Nat.cast_zero, zero_mul, hlimit]
    positivity
  · split at h
    next hk =>
      obtain ⟨j, rfl⟩ := Int.eq_ofNat_of_zero_le hk
      have hlt := of_decide_eq_true h
      exact_mod_cast hlt
    next hk =>
      obtain ⟨j, rfl⟩ := Int.exists_eq_neg_ofNat (not_le.mp hk).le
      have hlt := of_decide_eq_true h
      rw [neg_neg, Int.toNat_natCast] at hlt
      rw [zpow_neg, zpow_natCast, ← div_eq_mul_inv, div_lt_iff₀ (by positivity)]
      exact_mod_cast hlt

end JsonNumber

end Kagenti.Go
