import Mathlib.Data.List.Sort
import Kagenti.Go.Unmarshal

/-!
`json.Marshal` of a decoded value. Numbers were decoded to binary64, so they are
written as the shortest decimal that reads back as the same binary64 value.
-/

namespace Kagenti.Go

/-- A positive rational, as a quotient of naturals. -/
structure Ratio where
  num : Nat
  den : Nat

namespace Ratio

def ofDecimal (digits : Nat) (exponent : Int) : Ratio :=
  if 0 ≤ exponent then ⟨digits * 10 ^ exponent.toNat, 1⟩
  else ⟨digits, 10 ^ (-exponent).toNat⟩

def scale (r : Ratio) (base : Nat) (exponent : Int) : Ratio :=
  if 0 ≤ exponent then ⟨r.num, r.den * base ^ exponent.toNat⟩
  else ⟨r.num * base ^ (-exponent).toNat, r.den⟩

def floor (r : Ratio) : Nat := r.num / r.den

def round (r : Ratio) : Nat :=
  let q := r.num / r.den
  let twice := 2 * (r.num % r.den)
  if twice < r.den then q
  else if r.den < twice then q + 1
  else if q % 2 = 0 then q
  else q + 1

end Ratio

/-- A finite binary64 magnitude: `mantissa * 2 ^ exponent`. -/
structure Float64 where
  mantissa : Nat
  exponent : Int
  deriving DecidableEq

namespace Float64

/-- The binary64 value nearest to a non-negative rational in range. -/
def ofRatio (r : Ratio) : Float64 :=
  if r.num = 0 then ⟨0, -1074⟩
  else
    let guess : Int := (Nat.log2 r.num : Int) - Nat.log2 r.den - 52
    let guess := if (r.scale 2 guess).floor < 2 ^ 52 then guess - 1 else guess
    let exponent := max guess (-1074)
    let mantissa := (r.scale 2 exponent).round
    if mantissa = 2 ^ 53 then ⟨2 ^ 52, exponent + 1⟩ else ⟨mantissa, exponent⟩

def toRatio (f : Float64) : Ratio := (Ratio.mk f.mantissa 1).scale 2 (-f.exponent)

/-- The least `k` with `value < 10 ^ k`, searched from an estimate by the logarithm. -/
def decimalPoint (f : Float64) : Int :=
  let log2 : Int := (Nat.log2 f.mantissa : Int) + f.exponent
  let estimate := (log2 * 30103) / 100000 - 1
  let exponents := (List.range 6).map fun i => estimate + i
  (exponents.find? fun k => (f.toRatio.scale 10 k).floor = 0).getD estimate

/-- The decimal with `n` digits closest to the value that reads back as the value. -/
def decimalOfLength (f : Float64) (n : Nat) : Option (Nat × Int) :=
  let exponent := f.decimalPoint - n
  let scaled := f.toRatio.scale 10 exponent
  let nearest := scaled.round
  let other := if nearest = scaled.floor then nearest + 1 else scaled.floor
  let reads (digits : Nat) : Bool := decide (ofRatio (Ratio.ofDecimal digits exponent) = f)
  if reads nearest then some (nearest, exponent)
  else if reads other then some (other, exponent)
  else none

def shortest (f : Float64) : Nat × Int :=
  ((List.range 17).findSome? fun n => f.decimalOfLength (n + 1)).getD (0, 0)

end Float64

def decimalDigits (n : Nat) : List Char := Nat.toDigits 10 n

def stripTrailingZeros (digits : List Char) : List Char :=
  (digits.reverse.dropWhile (· = '0')).reverse

/-- `floatEncoder`: plain notation for magnitudes from 1e-6 up to 1e21, otherwise
scientific notation with an exponent that is not padded. -/
def formatFloat (negative : Bool) (f : Float64) : List Char :=
  let sign := if negative then ['-'] else []
  if f.mantissa = 0 then sign ++ ['0']
  else
    let (digits, exponent) := f.shortest
    let all := decimalDigits digits
    -- the value is 0.d₁d₂… times ten to the point
    let point : Int := exponent + all.length
    let digits := stripTrailingZeros all
    if point < -5 ∨ 21 < point then
      let fraction := if digits.tail = [] then [] else '.' :: digits.tail
      let e := point - 1
      let expSign := if e < 0 then '-' else '+'
      sign ++ digits.take 1 ++ fraction ++ ['e', expSign] ++ decimalDigits e.natAbs
    else if point ≤ 0 then
      sign ++ ['0', '.'] ++ List.replicate (-point).toNat '0' ++ digits
    else if digits.length ≤ point.toNat then
      sign ++ digits ++ List.replicate (point.toNat - digits.length) '0'
    else
      sign ++ digits.take point.toNat ++ ['.'] ++ digits.drop point.toNat

namespace JsonNumber

/-- The magnitude of the binary64 value the literal is decoded to. -/
def toFloat64 (n : JsonNumber) : Float64 :=
  Float64.ofRatio (Ratio.ofDecimal (ofDigits (n.intDigits ++ n.fracDigits))
    (n.expValue - n.fracDigits.length))

end JsonNumber

def hexChar (n : Nat) : Char := Nat.digitChar n

/-- The characters `json.Marshal` writes for one character of a string, with HTML
escaping on. -/
def escapeChar (c : Char) : List Char :=
  if c = '"' then ['\\', '"']
  else if c = '\\' then ['\\', '\\']
  else if c = '\n' then ['\\', 'n']
  else if c = '\r' then ['\\', 'r']
  else if c = '\t' then ['\\', 't']
  else if c = '\x08' then ['\\', 'b']
  else if c = '\x0c' then ['\\', 'f']
  else if c.toNat < 0x20 ∨ c = '<' ∨ c = '>' ∨ c = '&' then
    ['\\', 'u', '0', '0', hexChar (c.toNat / 16), hexChar (c.toNat % 16)]
  else if c = '\u2028' then ['\\', 'u', '2', '0', '2', '8']
  else if c = '\u2029' then ['\\', 'u', '2', '0', '2', '9']
  else [c]

def quoteText (s : String) : List Char := ['"'] ++ s.toList.flatMap escapeChar ++ ['"']

def sortMembers {β : Type*} (ms : List (String × β)) : List (String × β) :=
  let kept := ms.reverse.foldl (fun kept m =>
    if kept.any fun k => k.1 = m.1 then kept else m :: kept) []
  kept.insertionSort fun a b => a.1 ≤ b.1

namespace Json

mutual

def marshalChars : Json → List Char
  | .null => ['n', 'u', 'l', 'l']
  | .bool true => ['t', 'r', 'u', 'e']
  | .bool false => ['f', 'a', 'l', 's', 'e']
  | .num n => formatFloat n.negative n.toFloat64
  | .str s => quoteText s
  | .arr xs => ['['] ++ (marshalElements xs).flatten ++ [']']
  | .obj ms =>
    let texts := sortMembers (marshalMembers ms)
    let parts := texts.map fun m => quoteText m.1 ++ [':'] ++ m.2
    ['\x7b'] ++ (parts.intersperse [',']).flatten ++ ['\x7d']

def marshalElements : List Json → List (List Char)
  | [] => []
  | [x] => [marshalChars x]
  | x :: y :: xs => marshalChars x :: [','] :: marshalElements (y :: xs)

def marshalMembers : List (String × Json) → List (String × List Char)
  | [] => []
  | (key, x) :: ms => (key, marshalChars x) :: marshalMembers ms

end

def marshal (j : Json) : String := String.ofList (marshalChars j)

theorem bytes_marshal (j : Json) :
    bytes j.marshal = j.marshalChars.flatMap String.utf8EncodeChar := by
  rw [marshal, bytes, String.toList_ofList]

end Json

end Kagenti.Go
