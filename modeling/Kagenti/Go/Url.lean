import Kagenti.Go.Json

/-!
The path of a request target, as `url.ParseRequestURI` reads it.
-/

namespace Kagenti.Go.Url

def percent : UInt8 := 0x25

def question : UInt8 := 0x3F

/-- `unescape` in the mode of a path: nothing for an escape that is not two hexadecimal
digits. -/
def unescape : Bytes → Option Bytes
  | [] => some []
  | 0x25 :: high :: low :: rest =>
    match Json.hexDigit high, Json.hexDigit low with
    | some h, some l => (unescape rest).map (UInt8.ofNat (h * 16 + l) :: ·)
    | _, _ => none
  | b :: rest => if b = percent then none else (unescape rest).map (b :: ·)

def rawPath (target : Bytes) : Bytes := target.takeWhile (· ≠ question)

/-- `URL.Path` of a request target, unless its escapes are malformed. -/
def path (target : Bytes) : Option Bytes := unescape (rawPath target)

/-- Whether `url.ParseRequestURI` takes the target for an origin form, up to its escapes: it
starts with a slash and has no control bytes. -/
def originForm (target : Bytes) : Bool :=
  decide (target.head? = some 0x2F) && target.all fun b => decide (0x20 ≤ b ∧ b ≠ 0x7F)

end Kagenti.Go.Url
