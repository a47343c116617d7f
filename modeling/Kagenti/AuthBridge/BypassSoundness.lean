import Mathlib.Data.List.TakeWhile
import Kagenti.AuthBridge.Bypass
import Kagenti.Go.PathLiteral
import Kagenti.Go.Url
import Kagenti.Lib.Outcome

/-!
What the bypass patterns let through (`Match` in `bypass/matcher.go`). The reverse proxy hands over
a decoded path, `ext_proc` the target as it was sent.
-/

namespace Kagenti.AuthBridge

open Go

inductive Listener where
  | reverseProxy
  | extProc
  deriving DecidableEq

namespace Listener

/-- `pctx.Path` for a request target: `r.URL.Path`, if the server accepts the target, or the
header `:path`. -/
def contextPath (target : Bytes) : Listener → Option Bytes
  | .reverseProxy => if Url.originForm target then Url.path target else none
  | .extProc => some target

def matchedPath (target decoded : Bytes) : Listener → Bytes
  | .reverseProxy => Path.clean (Url.rawPath decoded)
  | .extProc => Path.clean (Url.rawPath target)

end Listener

def BypassSound (listener : Listener) (target : Bytes) : Prop :=
  ∀ patterns m path decoded, newMatcher patterns = .ok m →
    listener.contextPath target = some path → Url.path target = some decoded →
    m.matches path = true →
    ∃ p ∈ m.patterns, Path.pathMatch p (Path.clean decoded) = some true

theorem clean_ne_nil (path : Bytes) : Path.clean path ≠ [] := by
  unfold Path.clean
  split
  · decide
  · dsimp only
    split
    · simp
    · split
      · decide
      · assumption

variable {name : Bytes}

theorem literal_accepted (h : name ≠ []) : AcceptedPattern (Path.literal name) where
  valid := by
    rw [Path.pathMatch_literal]
    rfl
  narrow := by
    cases name with
    | nil => exact absurd rfl h
    | cons b rest =>
      obtain ⟨c, tail, heq, hc⟩ := Path.literalByte_head b (Path.literal rest)
      have hliteral : Path.literal (b :: rest) = c :: tail := heq
      rw [hliteral]
      rcases hc with rfl | rfl <;> refine ⟨by simp, ?_, ?_⟩ <;> intro hpattern <;> cases hpattern

theorem newMatcher_literal (h : name ≠ []) :
    ∃ m, newMatcher [Path.literal name] = .ok m ∧ m.patterns = [Path.literal name] := by
  have haccepted := literal_accepted h
  have hcheck : checkPattern (Path.literal name) = .ok ⟨Path.literal name, haccepted⟩ := by
    simp only [checkPattern, Path.trimSpaceBytes_literal]
    rw [dif_pos haccepted.valid, dif_pos haccepted.narrow]
  refine ⟨⟨[Path.literal name], fun p hp => ?_⟩, ?_, rfl⟩
  · rw [List.mem_singleton.mp hp]
    exact haccepted
  · unfold newMatcher
    simp only [List.mapM_cons, List.mapM_nil, hcheck]
    rfl

variable {target : Bytes} {listener : Listener}

theorem matches_contextPath (m : Matcher) {path decoded : Bytes}
    (hpath : listener.contextPath target = some path) (hdecoded : Url.path target = some decoded) :
    m.matches path = true ↔
      ∃ p ∈ m.patterns, Path.pathMatch p (listener.matchedPath target decoded) = some true := by
  have hmatched : Path.clean (Url.rawPath path) = listener.matchedPath target decoded := by
    cases listener with
    | reverseProxy =>
      rw [Listener.contextPath] at hpath
      split at hpath
      · obtain rfl : decoded = path := Option.some.inj (hdecoded.symm.trans hpath)
        rfl
      · cases hpath
    | extProc =>
      obtain rfl : target = path := Option.some.inj hpath
      rfl
  rw [← hmatched]
  simp only [Matcher.matches, List.any_eq_true, decide_eq_true_eq]
  rfl

theorem bypassSound_of_matched
    (hsame : ∀ decoded, (listener.contextPath target).isSome → Url.path target = some decoded →
      listener.matchedPath target decoded = Path.clean decoded) : BypassSound listener target := by
  intro patterns m path decoded _ hpath hdecoded hmatches
  rw [← hsame decoded (by simp [hpath]) hdecoded]
  exact (matches_contextPath m hpath hdecoded).mp hmatches

/-- The bypass is sound for a target exactly if the path that is matched is the one that is
served. If they differ, the pattern of the first is a pattern that does not make the second
public. -/
theorem bypassSound_iff (listener : Listener) (target : Bytes) :
    BypassSound listener target ↔
      ∀ decoded, (listener.contextPath target).isSome → Url.path target = some decoded →
        listener.matchedPath target decoded = Path.clean decoded := by
  constructor
  · intro hsound decoded hasPath hdecoded
    obtain ⟨path, hpath⟩ := Option.isSome_iff_exists.mp hasPath
    have hname : listener.matchedPath target decoded ≠ [] := by
      cases listener <;> exact clean_ne_nil _
    obtain ⟨m, hm, hpatterns⟩ := newMatcher_literal hname
    have hmatches : m.matches path = true := by
      rw [matches_contextPath m hpath hdecoded, hpatterns]
      exact ⟨_, List.mem_singleton_self _, by simp [Path.pathMatch_literal]⟩
    obtain ⟨p, hp, hserved⟩ := hsound _ m path decoded hm hpath hdecoded hmatches
    rw [hpatterns, List.mem_singleton] at hp
    rw [hp, Path.pathMatch_literal] at hserved
    have hserved : Path.clean decoded = listener.matchedPath target decoded := by
      simpa using hserved
    exact hserved.symm
  · exact bypassSound_of_matched

def defaultPatterns : List Bytes :=
  [bytes "/.well-known/*", bytes "/healthz", bytes "/readyz", bytes "/livez"]

/-- With the default patterns, an escaped question mark opens every path of the reverse
proxy, and escaped dots open those of `ext_proc`. -/
theorem bypass_unsound :
    ∃ m, newMatcher defaultPatterns = .ok m ∧
      (∀ p ∈ m.patterns, Path.pathMatch p (bytes "/admin") ≠ some true) ∧
      (Listener.reverseProxy.contextPath (bytes "/healthz%3F/../../admin")).any m.matches = true ∧
      (Url.path (bytes "/healthz%3F/../../admin")).map Path.clean = some (bytes "/admin") ∧
      (Listener.extProc.contextPath (bytes "/.well-known/%2E%2E%2Fadmin")).any m.matches = true ∧
      (Url.path (bytes "/.well-known/%2E%2E%2Fadmin")).map Path.clean = some (bytes "/admin") := by
  decide +kernel

end Kagenti.AuthBridge
