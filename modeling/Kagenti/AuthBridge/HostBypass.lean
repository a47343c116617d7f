import Kagenti.AuthBridge.Ibac
import Mathlib.Data.List.Forall2

/-!
The hosts that ibac does not judge. The patterns of `bypass_hosts` are path globs, compared here
with a reading label by label.
-/

namespace Kagenti.Go.Path

def Token.Reads : Token → Bytes → Prop
  | .star, u => slash ∉ u
  | .lit b, u => u = [b]
  | .any, u => u.head? ≠ some slash ∧ ∃ rune rest, firstRune (u ++ rest) = some (rune, rest)
  | .cls negated ranges, u => ∃ rune rest, firstRune (u ++ rest) = some (rune, rest) ∧
      (ranges.any fun (lo, hi) => decide (lo ≤ rune.toNat) && decide (rune.toNat ≤ hi)) ≠ negated

/-- The meaning of a pattern: each token reads its part of the name. -/
def Reads (ts : List Token) (name : Bytes) : Prop :=
  ∃ parts, List.Forall₂ Token.Reads ts parts ∧ parts.flatten = name

theorem Reads.cons {t : Token} {ts : List Token} {u name : Bytes} (first : t.Reads u)
    (rest : Reads ts name) : Reads (t :: ts) (u ++ name) := by
  obtain ⟨parts, reads, rfl⟩ := rest
  exact ⟨u :: parts, .cons first reads, rfl⟩

variable {name : Bytes} {ts : List Token}

theorem Reads.uncons {t : Token} (h : Reads (t :: ts) name) :
    ∃ u s, name = u ++ s ∧ t.Reads u ∧ Reads ts s := by
  obtain ⟨parts, reads, rfl⟩ := h
  cases reads with
  | cons first rest => exact ⟨_, _, rfl, first, _, rest, rfl⟩

theorem decodeRune_suffix (b : UInt8) (rest : Bytes) : (decodeRune b rest).2 <:+ rest := by
  have two (c : UInt8) (rest : Bytes) : (decodeRune.decodeTwo b c rest).2 <:+ c :: rest := by
    fun_cases decodeRune.decodeTwo with
    | case1 => exact List.suffix_cons _ _
    | case2 => exact List.suffix_rfl
  have short (c : UInt8) (rest : Bytes) : (decodeRune.decodeShort b c rest).2 <:+ c :: rest := by
    fun_cases decodeRune.decodeShort with
    | case1 => exact (List.suffix_cons _ _).trans (List.suffix_cons _ _)
    | _ => exact two _ _
  fun_cases decodeRune with
  | case1 => exact ((List.suffix_cons _ _).trans (List.suffix_cons _ _)).trans (List.suffix_cons _ _)
  | case2 | case3 => exact short _ _
  | case4 => exact List.suffix_rfl

variable {s : Bytes}

theorem exists_of_firstRune {rest : Bytes} {rune : Char} (h : firstRune s = some (rune, rest)) :
    ∃ u, s = u ++ rest := by
  cases s with
  | nil => cases h
  | cons b s =>
    have suffix : rest <:+ s := by
      rw [firstRune] at h
      split at h
      · cases h
        exact List.suffix_rfl
      · have tail : (decodeRune b s).2 = rest := congrArg Prod.snd (Option.some.inj h)
        exact tail ▸ decodeRune_suffix b s
    obtain ⟨u, rfl⟩ := suffix
    exact ⟨b :: u, rfl⟩

variable {t : Bytes} {chunk : List Token}

theorem matchChunk_sound (h : matchChunk chunk s = some t) (rest : Reads ts t) :
    Reads (chunk ++ ts) s := by
  induction chunk generalizing s with
  | nil =>
    cases h
    exact rest
  | cons token chunk ih =>
    cases s with
    | nil => cases token <;> cases h
    | cons c s =>
      cases token with
      | star => cases h
      | lit b =>
        obtain ⟨same, matched⟩ := Option.ite_none_right_eq_some.mp h
        exact same ▸ .cons (u := [b]) rfl (ih matched)
      | any =>
        obtain ⟨other, h⟩ := Option.ite_none_left_eq_some.mp h
        obtain ⟨⟨rune, s'⟩, read, h⟩ := Option.bind_eq_some_iff.mp h
        obtain ⟨u, split⟩ := exists_of_firstRune read
        rw [split] at read ⊢
        refine .cons ⟨fun slashed => ?_, rune, s', read⟩ (ih h)
        cases u with
        | nil => cases slashed
        | cons b u =>
          cases split
          exact other (Option.some.inj slashed)
      | cls negated ranges =>
        obtain ⟨⟨rune, s'⟩, read, h⟩ := Option.bind_eq_some_iff.mp h
        obtain ⟨inside, h⟩ := Option.ite_none_left_eq_some.mp h
        obtain ⟨u, split⟩ := exists_of_firstRune read
        rw [split] at read ⊢
        exact .cons ⟨rune, s', read, inside⟩ (ih h)

theorem firstMatch_sound {star last : Bool} (h : firstMatch star last chunk name = some t) :
    ∃ u s, name = u ++ s ∧ slash ∉ u ∧ (star = false → u = []) ∧ matchChunk chunk s = some t := by
  induction name with
  | nil =>
    exact ⟨[], [], rfl, List.not_mem_nil, fun _ => rfl, (Option.filter_eq_some_iff.mp h).1⟩
  | cons b name ih =>
    rw [firstMatch] at h
    split at h
    next t' found =>
      cases h
      exact ⟨[], _, rfl, List.not_mem_nil, fun _ => rfl, (Option.filter_eq_some_iff.mp found).1⟩
    · obtain ⟨skip, h⟩ := Option.ite_none_right_eq_some.mp h
      obtain ⟨starred, other⟩ := Bool.and_eq_true_iff.mp skip
      obtain ⟨u, s, rfl, slashless, -, found⟩ := ih h
      refine ⟨b :: u, s, rfl, ?_, fun unstarred => ?_, found⟩
      · exact List.not_mem_cons_of_ne_of_not_mem (Ne.symm (of_decide_eq_true other)) slashless
      · cases starred.symm.trans unstarred

def pieceTokens (piece : Bool × List Token) : List Token :=
  if piece.1 then .star :: piece.2 else piece.2

theorem isChain_chunks (ts : List Token) : (chunks ts).IsChain fun piece _ => piece.2 ≠ [] := by
  fun_induction chunks ts with
  | case1 => exact .nil
  | case2 ts starred chunk rest pieces ih =>
    rw [pieces] at ih
    cases ih with
    | singleton => exact .singleton _
    | cons_cons first rest => exact .cons_cons first rest
  | case3 => exact .singleton _
  | case4 t ts other chunk rest pieces ih =>
    rw [pieces] at ih
    cases ih with
    | singleton => exact .singleton _
    | cons_cons first rest => exact .cons_cons (List.cons_ne_nil _ _) rest
  | case5 t ts other pieces ih =>
    generalize chunks ts = pieces at ih
    cases pieces with
    | nil => exact .singleton _
    | cons => exact .cons_cons (List.cons_ne_nil _ _) ih

theorem matchChunks_sound {pieces : List (Bool × List Token)}
    (proper : pieces.IsChain fun piece _ => piece.2 ≠ []) (h : matchChunks pieces name = true) :
    Reads (pieces.flatMap pieceTokens) name := by
  fun_induction matchChunks pieces name with
  | case1 name =>
    rw [List.isEmpty_iff.mp h]
    exact ⟨[], .nil, rfl⟩
  | case2 star chunk rest name alone =>
    obtain ⟨rfl, empty⟩ := Bool.and_eq_true_iff.mp alone
    cases List.isEmpty_iff.mp empty
    cases proper with
    | singleton =>
      have slashless : slash ∉ name := by simpa using h
      rw [← List.append_nil name]
      exact Reads.cons (t := .star) slashless ⟨[], .nil, rfl⟩
    | cons_cons first => exact absurd rfl first
  | case3 star chunk rest name _ t found ih =>
    obtain ⟨u, s, rfl, slashless, unstarred, matched⟩ := firstMatch_sound found
    have reads := matchChunk_sound matched (ih (List.isChain_of_isChain_cons proper) h)
    cases star with
    | true => exact reads.cons (t := .star) slashless
    | false =>
      rw [unstarred rfl]
      exact reads
  | case4 => cases h

theorem reads_of_chunks (h : Reads ((chunks ts).flatMap pieceTokens) name) : Reads ts name := by
  fun_induction chunks ts generalizing name with
  | case1 => exact h
  -- A star merges with the star of the next piece, any other token with a piece without one.
  | case2 ts starred chunk rest pieces ih =>
    obtain ⟨u, s, rfl, slashless, reads⟩ := Reads.uncons h
    refine (ih ?_).cons (t := .star) slashless
    rw [pieces, List.flatMap_cons]
    cases starred with
    | true => exact reads.cons (t := .star) (u := []) List.not_mem_nil
    | false => exact reads
  | case3 ts pieces ih =>
    obtain ⟨u, s, rfl, slashless, reads⟩ := Reads.uncons h
    exact (ih (by rwa [pieces])).cons (t := .star) slashless
  | case4 t ts other chunk rest pieces ih =>
    obtain ⟨u, s, rfl, first, reads⟩ := Reads.uncons h
    exact (ih (by rwa [pieces, List.flatMap_cons])).cons first
  | case5 t ts other pieces ih =>
    obtain ⟨u, s, rfl, first, reads⟩ := Reads.uncons h
    exact (ih reads).cons first

theorem reads_of_pathMatch {pattern : Bytes} (read : tokens (pattern.length + 1) pattern = some ts)
    (h : pathMatch pattern name = some true) : Reads ts name := by
  unfold pathMatch at h
  rw [read] at h
  exact reads_of_chunks (matchChunks_sound (isChain_chunks ts) (Option.some.inj h))

end Kagenti.Go.Path

namespace Kagenti.AuthBridge

open Go Path

/-! Labels -/

def labelDot : UInt8 := 0x2E

def hostLabels (host : Bytes) : List Bytes := host.splitOn labelDot

def patternLabels (ts : List Token) : List (List Token) := ts.splitOn (.lit labelDot)

theorem length_splitOn {α : Type*} [DecidableEq α] (a : α) (xs : List α) :
    (xs.splitOn a).length = xs.count a + 1 := by
  induction xs with
  | nil => rfl
  | cons x xs ih =>
    rw [List.splitOn_cons_eq_if_modifyHead, List.count_cons]
    split
    · rw [List.length_cons, ih]
    · rw [List.length_modifyHead, ih]

theorem hostLabels_append {u : Bytes} (whole : labelDot ∉ u) (s : Bytes) :
    hostLabels (u ++ s) = (hostLabels s).modifyHead (u ++ ·) := by
  unfold hostLabels
  induction u with
  | nil => exact (List.modifyHead_id ▸ rfl)
  | cons b u ih =>
    obtain ⟨other, whole⟩ := not_or.mp fun mem => whole (List.mem_cons.mpr mem)
    rw [List.cons_append, List.splitOn_cons_eq_if_modifyHead, if_neg (by simpa using Ne.symm other),
      ih whole, List.modifyHead_modifyHead]
    rfl

variable {ts : List Token} {parts : List Bytes}

theorem count_le_of_forall₂ (h : List.Forall₂ Token.Reads ts parts) :
    ts.count (.lit labelDot) ≤ parts.flatten.count labelDot := by
  induction h with
  | nil => exact Nat.le_refl _
  | @cons t u ts parts first rest ih =>
    rw [List.flatten_cons, List.count_append, List.count_cons]
    split
    next same =>
      obtain rfl := eq_of_beq same
      obtain rfl : u = [labelDot] := first
      rw [List.count_singleton_self]
      omega
    · omega

theorem forall₂_labels (h : List.Forall₂ Token.Reads ts parts)
    (dots : parts.flatten.count labelDot ≤ ts.count (.lit labelDot)) :
    List.Forall₂ Reads (patternLabels ts) (hostLabels parts.flatten) := by
  induction h with
  | nil => exact .cons ⟨[], .nil, rfl⟩ .nil
  | @cons t u ts parts first rest ih =>
    have fewer := count_le_of_forall₂ rest
    rw [List.flatten_cons, List.count_append, List.count_cons] at dots
    rw [patternLabels, List.splitOn_cons_eq_if_modifyHead, List.flatten_cons]
    split at dots
    next same =>
      obtain rfl := eq_of_beq same
      obtain rfl : u = [labelDot] := first
      rw [List.count_singleton_self] at dots
      rw [if_pos same, hostLabels, List.singleton_append, List.splitOn_cons_eq_if_modifyHead,
        if_pos (beq_self_eq_true _)]
      exact .cons ⟨[], .nil, rfl⟩ (ih (by omega))
    next other =>
      have whole : labelDot ∉ u := List.count_eq_zero.mp (by omega)
      have labels := ih (by omega)
      rw [if_neg other, hostLabels_append whole]
      change List.Forall₂ Reads ((patternLabels ts).modifyHead (t :: ·)) _
      generalize patternLabels ts = patterns, hostLabels parts.flatten = hosts at labels
      cases labels with
      | nil => exact .nil
      | cons head tail => exact .cons (head.cons first) tail

def bareHost (host : String) : Bytes := bytes (String.ofList (host.toList.takeWhile (· ≠ ':')))

def acceptsHost (pattern host : String) : Bool :=
  Path.pathMatch (bytes pattern) (bareHost host) = some true

def patternTokens (pattern : String) : List Token :=
  (tokens ((bytes pattern).length + 1) (bytes pattern)).getD []

def ReadsByLabel (pattern host : String) : Prop :=
  List.Forall₂ Reads (patternLabels (patternTokens pattern)) (hostLabels (bareHost host))

def LabelSafe (patterns : List String) (host : String) : Prop :=
  matchesAnyHost patterns host = true →
    ∃ p ∈ patterns, acceptsHost p host = true ∧ ReadsByLabel p host

theorem readsByLabel_iff {pattern host : String} (accepted : acceptsHost pattern host = true) :
    ReadsByLabel pattern host ↔
      (bareHost host).count labelDot ≤ (patternTokens pattern).count (.lit labelDot) := by
  have matched : Path.pathMatch (bytes pattern) (bareHost host) = some true :=
    of_decide_eq_true accepted
  constructor
  · intro labels
    have same := labels.length_eq
    rw [patternLabels, hostLabels, length_splitOn, length_splitOn] at same
    omega
  · intro dots
    have read : tokens ((bytes pattern).length + 1) (bytes pattern) =
        some (patternTokens pattern) := by
      obtain ⟨ts, found, -⟩ := Option.map_eq_some_iff.mp matched
      rw [patternTokens, found]
      rfl
    obtain ⟨parts, reads, whole⟩ := reads_of_pathMatch read matched
    rw [ReadsByLabel, ← whole]
    exact forall₂_labels reads (by rwa [whole])

/-- The labels are kept exactly if a pattern that accepts the host has as many dots as the host. -/
theorem labelSafe_iff (patterns : List String) (host : String) :
    LabelSafe patterns host ↔
      (matchesAnyHost patterns host = true → ∃ p ∈ patterns, acceptsHost p host = true ∧
        (bareHost host).count labelDot ≤ (patternTokens p).count (.lit labelDot)) := by
  refine imp_congr_right fun _ => exists_congr fun p => and_congr_right fun _ => ?_
  exact and_congr_right readsByLabel_iff

/-- The default patterns pass the check, and their stars read hosts of any domain. -/
theorem keycloak_reads_any_domain :
    (∀ format, defaultBypassHosts.forM
      (IbacConfig.checkBypassPattern format "bypass_hosts" [] ["", "*"]) = .ok ()) ∧
    matchesAnyHost defaultBypassHosts "keycloak.attacker.example:8080" = true ∧
    ∀ p ∈ defaultBypassHosts, ¬ ReadsByLabel p "keycloak.attacker.example:8080" := by
  refine ⟨fun format => rfl, by decide +kernel, fun p mem labels => ?_⟩
  have counts : ∀ p ∈ defaultBypassHosts, (patternLabels (patternTokens p)).length ≠
      (hostLabels (bareHost "keycloak.attacker.example:8080")).length := by decide +kernel
  exact counts p mem labels.length_eq

end Kagenti.AuthBridge
