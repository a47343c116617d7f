import Kagenti.Operator.Signature.Card

/-!
`CreateCanonicalCardJSON` and its helpers in `verifier.go`. A `map[string]interface{}` is the list
of its members, of which the last one counts for each key.
-/

namespace Kagenti.Operator.Signature

open Go

def keptMembers (ms : List (String × Option Json)) : List (String × Json) :=
  (sortMembers ms).filterMap fun m => m.2.map fun j => (m.1, j)

mutual

/-- What `removeEmptyFields` makes of the value of a field, nothing if it drops the field. -/
def cleanField : Json → Option Json
  | .null => none
  | .obj ms =>
    match keptMembers (cleanMembers ms) with
    | [] => none
    | cleaned => some (.obj cleaned)
  | .arr xs =>
    match cleanElements xs with
    | [] => none
    | cleaned => some (.arr cleaned)
  | .str s => if s = "" then none else some (.str s)
  | j => some j

def cleanElements : List Json → List Json
  | [] => []
  | .obj ms :: xs =>
    match keptMembers (cleanMembers ms) with
    | [] => cleanElements xs
    | cleaned => .obj cleaned :: cleanElements xs
  | .str s :: xs => if s = "" then cleanElements xs else .str s :: cleanElements xs
  | .null :: xs => cleanElements xs
  | x :: xs => x :: cleanElements xs

def cleanMembers : List (String × Json) → List (String × Option Json)
  | [] => []
  | (key, j) :: ms => (key, cleanField j) :: cleanMembers ms

end

def removeEmptyFields (ms : List (String × Json)) : List (String × Json) :=
  keptMembers (cleanMembers ms)

mutual

def marshalValue : Json → List Char
  | .null => ['n', 'u', 'l', 'l']
  | .bool true => ['t', 'r', 'u', 'e']
  | .bool false => ['f', 'a', 'l', 's', 'e']
  | .num n => formatFloat n.negative n.toFloat64
  | .str s => quoteText s
  | .arr xs => '[' :: (commaList (marshalElements xs) ++ [']'])
  | .obj ms => objectText id (sortMembers (marshalMembers ms))

def marshalElements : List Json → List (List Char)
  | [] => []
  | x :: xs => marshalValue x :: marshalElements xs

def marshalMembers : List (String × Json) → List (String × List Char)
  | [] => []
  | (key, x) :: ms => (key, marshalValue x) :: marshalMembers ms

end

def marshalCanonical (ms : List (String × Json)) : List Char := marshalValue (.obj ms)

def createCanonicalCardJSON (card : AgentCardData) : Option Bytes :=
  card.generic.map fun ms =>
    (marshalCanonical (removeEmptyFields (ms.filter fun m => m.1 ≠ "signatures"))).flatMap
      String.utf8EncodeChar

end Kagenti.Operator.Signature
