import Kagenti.Go.Json

/-!
`base64.RawURLEncoding` and `base64.StdEncoding`. Line breaks are ignored, and left-over bits of the
last group are dropped.
-/

namespace Kagenti.Go.Base64

def urlValue (b : UInt8) : Option Nat :=
  if 0x41 ≤ b ∧ b ≤ 0x5A then some (b.toNat - 0x41)
  else if 0x61 ≤ b ∧ b ≤ 0x7A then some (b.toNat - 0x61 + 26)
  else if 0x30 ≤ b ∧ b ≤ 0x39 then some (b.toNat - 0x30 + 52)
  else if b = 0x2D then some 62
  else if b = 0x5F then some 63
  else none

def decodeValues : List Nat → Option Bytes
  | [] => some []
  | [_] => none
  | [a, b] => some [UInt8.ofNat (a * 4 + b / 16)]
  | [a, b, c] => some [UInt8.ofNat (a * 4 + b / 16), UInt8.ofNat (b * 16 + c / 4)]
  | a :: b :: c :: d :: rest =>
    (decodeValues rest).map fun bytes =>
      UInt8.ofNat (a * 4 + b / 16) :: UInt8.ofNat (b * 16 + c / 4) ::
        UInt8.ofNat (c * 64 + d) :: bytes

def rawURLDecode (s : Bytes) : Option Bytes :=
  ((s.filter fun b => b ≠ 0x0A ∧ b ≠ 0x0D).mapM urlValue).bind decodeValues

def stdValue (b : UInt8) : Option Nat :=
  if b = 0x2B then some 62
  else if b = 0x2F then some 63
  else if b = 0x2D ∨ b = 0x5F then none
  else urlValue b

def stdDecode (s : Bytes) : Option Bytes :=
  let text := s.filter fun b => b ≠ 0x0A ∧ b ≠ 0x0D
  let data := text.takeWhile (· ≠ 0x3D)
  let padding := text.drop data.length
  if text.length % 4 = 0 ∧ padding.length ≤ 2 ∧ padding.all (· = 0x3D) then
    (data.mapM stdValue).bind decodeValues
  else none

def urlChar (v : Nat) : UInt8 :=
  if v < 26 then UInt8.ofNat (v + 0x41)
  else if v < 52 then UInt8.ofNat (v - 26 + 0x61)
  else if v < 62 then UInt8.ofNat (v - 52 + 0x30)
  else if v = 62 then 0x2D
  else 0x5F

def encodeValues : Bytes → List Nat
  | [] => []
  | [a] => [a.toNat / 4, a.toNat % 4 * 16]
  | [a, b] => [a.toNat / 4, a.toNat % 4 * 16 + b.toNat / 16, b.toNat % 16 * 4]
  | a :: b :: c :: rest =>
    a.toNat / 4 :: (a.toNat % 4 * 16 + b.toNat / 16) ::
      (b.toNat % 16 * 4 + c.toNat / 64) :: c.toNat % 64 :: encodeValues rest

def rawURLEncode (s : Bytes) : Bytes := (encodeValues s).map urlChar

variable (s : Bytes)

theorem encodeValues_lt : ∀ v ∈ encodeValues s, v < 64 := by
  fun_induction encodeValues s with
  | case1 => simp
  | case2 a =>
    have := a.toNat_lt
    simp
    omega
  | case3 a b =>
    have := a.toNat_lt
    have := b.toNat_lt
    simp
    omega
  | case4 a b c rest ih =>
    have := a.toNat_lt
    have := b.toNat_lt
    have := c.toNat_lt
    simp only [List.mem_cons, forall_eq_or_imp]
    exact ⟨by omega, by omega, by omega, by omega, ih⟩

theorem decodeValues_encodeValues : decodeValues (encodeValues s) = some s := by
  -- a byte is put together again from the bits the values carry
  have hbyte : ∀ (b : UInt8) (n : Nat), n % 256 = b.toNat → UInt8.ofNat n = b := by
    intro b n hn
    rw [← UInt8.toNat_inj, UInt8.toNat_ofNat']
    exact hn
  fun_induction encodeValues s with
  | case1 => rfl
  | case2 a =>
    have := a.toNat_lt
    simp only [decodeValues, Option.some.injEq, List.cons.injEq, and_true]
    exact hbyte a _ (by omega)
  | case3 a b =>
    have := a.toNat_lt
    have := b.toNat_lt
    simp only [decodeValues, Option.some.injEq, List.cons.injEq, and_true]
    exact ⟨hbyte a _ (by omega), hbyte b _ (by omega)⟩
  | case4 a b c rest ih =>
    have := a.toNat_lt
    have := b.toNat_lt
    have := c.toNat_lt
    simp only [decodeValues, ih, Option.map_some, Option.some.injEq, List.cons.injEq, and_true]
    exact ⟨hbyte a _ (by omega), hbyte b _ (by omega), hbyte c _ (by omega)⟩

theorem urlValue_urlChar : ∀ v < 64, urlValue (urlChar v) = some v := by decide

theorem urlChar_ne_newline : ∀ v < 64, urlChar v ≠ 0x0A ∧ urlChar v ≠ 0x0D := by decide

private theorem mapM_urlValue (vs : List Nat) (hvs : ∀ v ∈ vs, v < 64) (rest : Bytes) :
    (vs.map urlChar ++ rest).mapM urlValue = (rest.mapM urlValue).map (vs ++ ·) := by
  induction vs with
  | nil => simp
  | cons v vs ih =>
    have hv : v < 64 := hvs v List.mem_cons_self
    have htail := ih fun v' hv' => hvs v' (List.mem_cons_of_mem _ hv')
    rw [List.map_cons, List.cons_append, List.mapM_cons, urlValue_urlChar v hv, htail]
    cases rest.mapM urlValue <;> rfl

private theorem filter_newlines (vs : List Nat) (hvs : ∀ v ∈ vs, v < 64) :
    ((vs.map urlChar).filter fun b => b ≠ 0x0A ∧ b ≠ 0x0D) = vs.map urlChar := by
  rw [List.filter_eq_self]
  intro b hb
  obtain ⟨v, hv, rfl⟩ := List.mem_map.mp hb
  simpa using urlChar_ne_newline v (hvs v hv)

@[simp] theorem rawURLDecode_rawURLEncode (s : Bytes) : rawURLDecode (rawURLEncode s) = some s := by
  have hvalues := mapM_urlValue (encodeValues s) (encodeValues_lt s) []
  rw [List.append_nil] at hvalues
  rw [rawURLDecode, rawURLEncode, filter_newlines _ (encodeValues_lt s), hvalues]
  simpa using decodeValues_encodeValues s

theorem rawURLDecode_padded {padding : Bytes} (h : 0x3D ∈ padding) :
    rawURLDecode (s ++ padding) = none := by
  have hnone : ∀ t : Bytes, 0x3D ∈ t → t.mapM urlValue = none := by
    intro t ht
    induction t with
    | nil => cases ht
    | cons b t ih =>
      rw [List.mapM_cons]
      rcases List.mem_cons.mp ht with rfl | ht
      · rfl
      · rw [ih ht]
        cases urlValue b <;> rfl
  rw [rawURLDecode, hnone _ (by simp [h])]
  rfl

theorem length_rawURLEncode_mod :
    (rawURLEncode s).length % 4 = if s.length % 3 = 0 then 0 else s.length % 3 + 1 := by
  rw [rawURLEncode, List.length_map]
  fun_induction encodeValues s with
  | case1 => rfl
  | case2 a => rfl
  | case3 a b => rfl
  | case4 a b c rest ih =>
    simp only [List.length_cons, Nat.add_assoc, Nat.reduceAdd, Nat.add_mod_right]
    exact ih

end Kagenti.Go.Base64
