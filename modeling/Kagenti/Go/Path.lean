import Kagenti.Go.Utf8

/-!
`path.Clean` and `path.Match` on byte strings. `Match` takes the first position of each piece
between stars and does not go back.
-/

namespace Kagenti.Go.Path

def slash : UInt8 := 0x2F

def elements : Bytes → List Bytes
  | [] => [[]]
  | b :: rest =>
    match elements rest with
    | e :: es => if b = slash then [] :: e :: es else (b :: e) :: es
    | [] => [[b]]

def dot : Bytes := [0x2E]

def dotDot : Bytes := [0x2E, 0x2E]

def cleanStep (rooted : Bool) (out : List Bytes) (e : Bytes) : List Bytes :=
  if e = [] ∨ e = dot then out
  else if e = dotDot then
    match out with
    | last :: out' => if last = dotDot then dotDot :: out else out'
    | [] => if rooted then [] else [dotDot]
  else e :: out

def clean (path : Bytes) : Bytes :=
  match path with
  | [] => dot
  | b :: _ =>
    let rooted := decide (b = slash)
    let out := ((elements path).foldl (cleanStep rooted) []).reverse
    let joined := (out.intersperse [slash]).flatten
    if rooted then slash :: joined else if joined = [] then dot else joined

inductive Token where
  | star
  | any
  | cls (negated : Bool) (ranges : List (Nat × Nat))
  | lit (b : UInt8)
  deriving DecidableEq

/-- `getEsc`: one possibly escaped rune of a character class, which must be followed by
something. -/
def getEsc (chunk : Bytes) : Option (Nat × Bytes) :=
  let rune (chunk : Bytes) : Option (Nat × Bytes) :=
    match chunk with
    | [] => none
    | b :: rest =>
      if b < 0x80 then if rest = [] then none else some (b.toNat, rest)
      else
        let (char, rest') := decodeRune b rest
        if rest'.length = rest.length ∨ rest' = [] then none else some (char.toNat, rest')
  match chunk with
  | [] => none
  | b :: rest =>
    if b = 0x2D ∨ b = 0x5D then none
    else if b = 0x5C then rune rest
    else rune chunk

/-- The ranges of a character class after its opening bracket. -/
def classRanges : Nat → Nat → Bytes → Option (List (Nat × Nat) × Bytes)
  | 0, _, _ => none
  | fuel + 1, nrange, chunk => do
      match chunk with
      | 0x5D :: rest =>
        if 0 < nrange then some ([], rest) else none
      | _ =>
        let (lo, chunk) ← getEsc chunk
        match chunk with
        | 0x2D :: rest =>
          let (hi, chunk) ← getEsc rest
          (classRanges fuel (nrange + 1) chunk).map fun (rs, rest) => ((lo, hi) :: rs, rest)
        | _ =>
          (classRanges fuel (nrange + 1) chunk).map fun (rs, rest) => ((lo, lo) :: rs, rest)

/-- The tokens of a pattern, or nothing for `ErrBadPattern`. -/
def tokens : Nat → Bytes → Option (List Token)
  | 0, _ => none
  | _ + 1, [] => some []
  | fuel + 1, b :: rest =>
    if b = 0x2A then (tokens fuel rest).map (.star :: ·)
    else if b = 0x3F then (tokens fuel rest).map (.any :: ·)
    else if b = 0x5C then
      match rest with
      | [] => none
      | c :: rest => (tokens fuel rest).map (.lit c :: ·)
    else if b = 0x5B then
      let (negated, rest) :=
        match rest with
        | 0x5E :: rest => (true, rest)
        | _ => (false, rest)
      match classRanges (rest.length + 1) 0 rest with
      | some (ranges, rest) => (tokens fuel rest).map (.cls negated ranges :: ·)
      | none => none
    else (tokens fuel rest).map (.lit b :: ·)

def chunks : List Token → List (Bool × List Token)
  | [] => []
  | .star :: ts =>
    match chunks ts with
    | (_, c) :: rest => (true, c) :: rest
    | [] => [(true, [])]
  | t :: ts =>
    match chunks ts with
    | (false, c) :: rest => (false, t :: c) :: rest
    | rest => (false, [t]) :: rest

/-- `matchChunk`: what is left of the name behind a piece without stars. -/
def matchChunk : List Token → Bytes → Option Bytes
  | [], s => some s
  | .lit b :: ts, c :: s => if b = c then matchChunk ts s else none
  | .any :: ts, c :: s =>
    if c = slash then none
    else (firstRune (c :: s)).bind fun (_, rest) => matchChunk ts rest
  | .cls negated ranges :: ts, c :: s =>
    (firstRune (c :: s)).bind fun (r, rest) =>
      let inside := ranges.any fun (lo, hi) => decide (lo ≤ r.toNat) && decide (r.toNat ≤ hi)
      if inside = negated then none else matchChunk ts rest
  | _, _ => none

def firstMatch (star last : Bool) (chunk : List Token) : Bytes → Option Bytes
  | [] => (matchChunk chunk []).filter fun t => t.isEmpty || !last
  | b :: name =>
    match (matchChunk chunk (b :: name)).filter fun t => t.isEmpty || !last with
    | some t => some t
    | none => if star && decide (b ≠ slash) then firstMatch star last chunk name else none

def matchChunks : List (Bool × List Token) → Bytes → Bool
  | [], name => name.isEmpty
  | (star, chunk) :: rest, name =>
    if star && chunk.isEmpty then !name.contains slash
    else
      match firstMatch star rest.isEmpty chunk name with
      | some t => matchChunks rest t
      | none => false

/-- `path.Match(pattern, name)`, with nothing for `ErrBadPattern`. -/
def pathMatch (pattern name : Bytes) : Option Bool :=
  (tokens (pattern.length + 1) pattern).map fun ts => matchChunks (chunks ts) name

end Kagenti.Go.Path
