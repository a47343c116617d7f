import Mathlib.Data.List.AList
import Kagenti.Go.Utf8

/-!
The syntax `encoding/json` accepts, as a parser from bytes to a tree that keeps the members of an
object in order and with their duplicates.
-/

namespace Kagenti.Go

structure JsonNumber where
  negative : Bool
  intDigits : List Nat
  fracDigits : List Nat
  -- the exponent's sign and digits, when there is one
  exponent : Option (Bool × List Nat)
  deriving DecidableEq

inductive Json where
  | null
  | bool (value : Bool)
  | num (literal : JsonNumber)
  | str (value : String)
  | arr (elements : List Json)
  | obj (members : List (String × Json))

namespace Json

def isSpace (b : UInt8) : Bool := b == 0x20 || b == 0x09 || b == 0x0D || b == 0x0A

def isDigit (b : UInt8) : Bool := decide (0x30 ≤ b) && decide (b ≤ 0x39)

def skipSpace (s : Bytes) : Bytes := s.dropWhile isSpace

def hexDigit (b : UInt8) : Option Nat :=
  if isDigit b then some (b.toNat - 0x30)
  else if 0x61 ≤ b ∧ b ≤ 0x66 then some (b.toNat - 0x57)
  else if 0x41 ≤ b ∧ b ≤ 0x46 then some (b.toNat - 0x37)
  else none

def hex4 (a b c d : UInt8) : Option Nat := do
  let a ← hexDigit a
  let b ← hexDigit b
  let c ← hexDigit c
  let d ← hexDigit d
  return ((a * 16 + b) * 16 + c) * 16 + d

/-- The character a one-letter escape stands for. -/
def simpleEscape (b : UInt8) : Option Char :=
  if b = 0x22 then some '"'
  else if b = 0x5C then some '\\'
  else if b = 0x2F then some '/'
  else if b = 0x62 then some '\x08'
  else if b = 0x66 then some '\x0c'
  else if b = 0x6E then some '\n'
  else if b = 0x72 then some '\r'
  else if b = 0x74 then some '\t'
  else none

def scanString : Bytes → Option (Bytes × Bytes)
  | [] => none
  | 0x5C :: 0x75 :: a :: b :: c :: d :: rest =>
    if (hex4 a b c d).isSome then
      (scanString rest).map fun (raw, rest) =>
        (0x5C :: 0x75 :: a :: b :: c :: d :: raw, rest)
    else none
  | 0x5C :: e :: rest =>
    if (simpleEscape e).isSome then
      (scanString rest).map fun (raw, rest) => (0x5C :: e :: raw, rest)
    else none
  | b :: rest =>
    if b = 0x22 then some ([], rest)
    else if b < 0x20 ∨ b = 0x5C then none
    else (scanString rest).map fun (raw, rest) => (b :: raw, rest)

def decodeSurrogates (high low : Nat) : Option Char :=
  if 0xD800 ≤ high ∧ high < 0xDC00 ∧ 0xDC00 ≤ low ∧ low < 0xE000 then
    some (Char.ofNat ((high - 0xD800) * 0x400 + (low - 0xDC00) + 0x10000))
  else none

def unquote : Nat → Bytes → List Char
  | 0, _ => []
  | _ + 1, [] => []
  | fuel + 1, 0x5C :: 0x75 :: a :: b :: c :: d :: rest =>
    let code := (hex4 a b c d).getD 0
    if 0xD800 ≤ code ∧ code < 0xE000 then
      match rest with
      | 0x5C :: 0x75 :: e :: f :: g :: h :: rest' =>
        match decodeSurrogates code ((hex4 e f g h).getD 0) with
        | some char => char :: unquote fuel rest'
        | none => replacementChar :: unquote fuel rest
      | _ => replacementChar :: unquote fuel rest
    else Char.ofNat code :: unquote fuel rest
  | fuel + 1, 0x5C :: e :: rest =>
    (simpleEscape e).getD replacementChar :: unquote fuel rest
  | fuel + 1, b :: rest =>
    if b < 0x80 then Char.ofNat b.toNat :: unquote fuel rest
    else
      let (char, rest) := decodeRune b rest
      char :: unquote fuel rest

def digits (s : Bytes) : List Nat := (s.takeWhile isDigit).map fun b => b.toNat - 0x30

def afterDigits (s : Bytes) : Bytes := s.dropWhile isDigit

def scanFraction (s : Bytes) : Option (List Nat × Bytes) :=
  match s with
  | 0x2E :: rest => if digits rest = [] then none else some (digits rest, afterDigits rest)
  | _ => some ([], s)

def scanExponent (s : Bytes) : Option (Option (Bool × List Nat) × Bytes) :=
  match s with
  | b :: rest =>
    if b = 0x65 ∨ b = 0x45 then
      let (negative, rest) :=
        match rest with
        | 0x2D :: rest => (true, rest)
        | 0x2B :: rest => (false, rest)
        | _ => (false, rest)
      if digits rest = [] then none
      else some (some (negative, digits rest), afterDigits rest)
    else some (none, s)
  | [] => some (none, s)

def scanNumber (s : Bytes) : Option (JsonNumber × Bytes) := do
  let (negative, s) :=
    match s with
    | 0x2D :: rest => (true, rest)
    | _ => (false, s)
  let (intDigits, s) ←
    match s with
    | 0x30 :: rest => some ([0], rest)
    | _ => if digits s = [] then none else some (digits s, afterDigits s)
  let (fracDigits, s) ← scanFraction s
  let (exponent, s) ← scanExponent s
  return (⟨negative, intDigits, fracDigits, exponent⟩, s)

def scanText (s : Bytes) : Option (String × Bytes) :=
  (scanString s).map fun (raw, rest) => (String.ofList (unquote raw.length raw), rest)

mutual

def parseValue : Nat → Nat → Bytes → Option (Json × Bytes)
  | 0, _, _ => none
  | fuel + 1, depth, s =>
    match skipSpace s with
    | 0x7B :: rest =>
      if depth = 0 then none
      else
        match skipSpace rest with
        | 0x7D :: rest => some (.obj [], rest)
        | rest => (parseMembers fuel (depth - 1) rest).map fun (ms, rest) => (.obj ms, rest)
    | 0x5B :: rest =>
      if depth = 0 then none
      else
        match skipSpace rest with
        | 0x5D :: rest => some (.arr [], rest)
        | rest => (parseElements fuel (depth - 1) rest).map fun (xs, rest) => (.arr xs, rest)
    | 0x22 :: rest => (scanText rest).map fun (text, rest) => (.str text, rest)
    | 0x74 :: 0x72 :: 0x75 :: 0x65 :: rest => some (.bool true, rest)
    | 0x66 :: 0x61 :: 0x6C :: 0x73 :: 0x65 :: rest => some (.bool false, rest)
    | 0x6E :: 0x75 :: 0x6C :: 0x6C :: rest => some (.null, rest)
    | s => (scanNumber s).map fun (number, rest) => (.num number, rest)

def parseMembers : Nat → Nat → Bytes → Option (List (String × Json) × Bytes)
  | 0, _, _ => none
  | fuel + 1, depth, s =>
    match skipSpace s with
    | 0x22 :: rest => do
        let (key, rest) ← scanText rest
        match skipSpace rest with
        | 0x3A :: rest =>
          let (value, rest) ← parseValue fuel depth rest
          match skipSpace rest with
          | 0x2C :: rest =>
            (parseMembers fuel depth rest).map fun (ms, rest) => ((key, value) :: ms, rest)
          | 0x7D :: rest => some ([(key, value)], rest)
          | _ => none
        | _ => none
    | _ => none

def parseElements : Nat → Nat → Bytes → Option (List Json × Bytes)
  | 0, _, _ => none
  | fuel + 1, depth, s => do
      let (value, rest) ← parseValue fuel depth s
      match skipSpace rest with
      | 0x2C :: rest => (parseElements fuel depth rest).map fun (xs, rest) => (value :: xs, rest)
      | 0x5D :: rest => some ([value], rest)
      | _ => none

end

def maxNestingDepth : Nat := 10000

def parse (data : Bytes) : Option Json :=
  match parseValue (data.length + 1) maxNestingDepth data with
  | some (value, rest) => if skipSpace rest = [] then some value else none
  | none => none

theorem induct {P : Json → Prop} (null : P .null) (bool : ∀ b, P (.bool b))
    (num : ∀ n, P (.num n)) (str : ∀ s, P (.str s))
    (arr : ∀ xs, (∀ x ∈ xs, P x) → P (.arr xs))
    (obj : ∀ ms, (∀ m ∈ ms, P m.2) → P (.obj ms)) : ∀ j, P j
  | .null => null
  | .bool b => bool b
  | .num n => num n
  | .str s => str s
  | .arr xs => arr xs fun x _ => induct null bool num str arr obj x
  | .obj ms => obj ms fun m _ => induct null bool num str arr obj m.2
termination_by j => j
decreasing_by
  next hx =>
    have hsize := List.sizeOf_lt_of_mem hx
    simp only [Json.arr.sizeOf_spec]
    omega
  next hm =>
    have hsize := List.sizeOf_lt_of_mem hm
    have hmember : sizeOf m = 1 + sizeOf m.1 + sizeOf m.2 := rfl
    simp only [Json.obj.sizeOf_spec]
    omega

end Json

end Kagenti.Go
