import Kagenti.Go.Http
import Kagenti.Go.Path

/-!
Path patterns (`bypass/matcher.go`). A pattern is a Go string, so any bytes.
-/

namespace Kagenti.AuthBridge

open Go

structure AcceptedPattern (p : Bytes) : Prop where
  valid : (Path.pathMatch p [Path.slash]).isSome
  narrow : p ≠ [] ∧ p ≠ bytes "*" ∧ p ≠ bytes "/*"

structure Matcher where
  patterns : List Bytes
  accepted : ∀ p ∈ patterns, AcceptedPattern p

/-- The errors of `NewMatcher`, with the pattern that its message quotes. -/
inductive MatcherError where
  | invalid (pattern : Bytes)
  | tooBroad (pattern : Bytes)
  deriving DecidableEq

def checkPattern (p : Bytes) : Except MatcherError { q : Bytes // AcceptedPattern q } :=
  let trimmed := trimSpaceBytes p
  if valid : (Path.pathMatch trimmed [Path.slash]).isSome then
    if narrow : trimmed ≠ [] ∧ trimmed ≠ bytes "*" ∧ trimmed ≠ bytes "/*" then
      .ok ⟨trimmed, valid, narrow⟩
    else .error (.tooBroad p)
  else .error (.invalid p)

def newMatcher (patterns : List Bytes) : Except MatcherError Matcher := do
  let clean ← patterns.mapM checkPattern
  return ⟨clean.map Subtype.val, fun p hp => by
    obtain ⟨q, -, rfl⟩ := List.mem_map.mp hp
    exact q.2⟩

/-- `Matcher.Match`: the query is cut off and the path is cleaned first. -/
def Matcher.matches (m : Matcher) (requestPath : Bytes) : Bool :=
  let path := Path.clean (requestPath.takeWhile (· ≠ 0x3F))
  m.patterns.any fun p => Path.pathMatch p path = some true

end Kagenti.AuthBridge
