import Kagenti.Operator.BundleService.Bundle
import Kagenti.Operator.BundleService.Service

/-!
What the ETag of a bundle identifies. `ContentHash` puts a NUL byte after each path and each
content, and sorts by path alone.
-/

namespace Kagenti.Operator.BundleService

open Go AgentRuntime

/-! Sorting -/

def TieFree (l : List Policy) : Prop :=
  ∀ p ∈ l, ∀ q ∈ l, p.path = q.path → p.content = q.content

namespace PathSort

variable (S : PathSort) {l l' : List Policy}

theorem sort_eq_of_perm (h : TieFree l) (perm : l.Perm l') : S.sort l = S.sort l' := by
  have sorted : (S.sort l).Perm (S.sort l') :=
    (S.sort_perm l).trans (perm.trans (S.sort_perm l').symm)
  refine sorted.eq_of_pairwise ?_ (S.sort_sorted l) (S.sort_sorted l')
  intro p q hp hq hle hge
  have hp : p ∈ l := (S.sort_perm l).mem_iff.mp hp
  have hq : q ∈ l := perm.mem_iff.mpr ((S.sort_perm l').mem_iff.mp hq)
  have path : p.path = q.path := List.le_antisymm hle hge
  have content := h p hp q hq path
  cases p
  cases q
  simp_all

theorem perm_of_sort_eq (same : S.sort l = S.sort l') : l.Perm l' := by
  have sorted := S.sort_perm l
  rw [same] at sorted
  exact sorted.symm.trans (S.sort_perm l')

theorem sort_exchange_ne {p q : Policy} (path : p.path = q.path) (differ : p ≠ q)
    (front middle back : List Policy) :
    S.sort (front ++ p :: (middle ++ q :: back)) ≠
      S.sort (front ++ q :: (middle ++ p :: back)) := by
  intro same
  unfold sort at same
  rw [show (front ++ p :: (middle ++ q :: back)).map (·.path) =
    (front ++ q :: (middle ++ p :: back)).map (·.path) by simp [path]] at same
  have moved := List.map_inj_left.mp same front.length
    ((S.perm _).mem_iff.mpr (by simp))
  simp at moved
  exact differ moved

theorem exchange_perm (p q : Policy) (front middle back : List Policy) :
    (front ++ p :: (middle ++ q :: back)).Perm (front ++ q :: (middle ++ p :: back)) := by
  rw [List.perm_iff_count]
  intro a
  simp only [List.count_append, List.count_cons]
  omega

theorem exists_perm_sort_ne (h : ¬TieFree l) : ∃ l', l.Perm l' ∧ S.sort l ≠ S.sort l' := by
  unfold TieFree at h
  push Not at h
  obtain ⟨p, hp, q, hq, path, content⟩ := h
  have differ : p ≠ q := fun same => content (by rw [same])
  obtain ⟨front, rest, rfl⟩ := List.append_of_mem hp
  rcases List.mem_append.mp hq with inFront | inRest
  · obtain ⟨front, middle, rfl⟩ := List.append_of_mem inFront
    refine ⟨front ++ p :: (middle ++ q :: rest), ?_, ?_⟩
    · simpa using exchange_perm q p front middle rest
    · simpa using S.sort_exchange_ne path.symm differ.symm front middle rest
  · obtain ⟨middle, back, rfl⟩ := List.append_of_mem
      ((List.mem_cons.mp inRest).resolve_left differ.symm)
    exact ⟨front ++ q :: (middle ++ p :: back), exchange_perm p q front middle back,
      S.sort_exchange_ne path differ front middle back⟩

end PathSort

/-! The bytes that are hashed -/

def Policy.NulFree (p : Policy) : Prop := 0 ∉ p.path ∧ 0 ∉ p.content

instance (p : Policy) : Decidable p.NulFree := inferInstanceAs (Decidable (_ ∧ _))

namespace Policy

variable {p : Policy}

theorem written_append_inj {q : Policy} (hp : p.NulFree) (hq : q.NulFree) {r r' : Bytes}
    (h : p.written ++ r = q.written ++ r') : p = q ∧ r = r' := by
  simp only [written, List.append_assoc, List.cons_append, List.nil_append] at h
  obtain ⟨path, rest⟩ := append_separator_inj hp.1 hq.1 h
  obtain ⟨content, rest⟩ := append_separator_inj hp.2 hq.2 rest
  cases p
  cases q
  simp_all

variable {l : List Policy}

theorem flatMap_written_inj {l' : List Policy} (hl : ∀ p ∈ l, p.NulFree) (hl' : ∀ p ∈ l', p.NulFree)
    (h : l.flatMap written = l'.flatMap written) : l = l' := by
  induction l generalizing l' with
  | nil => cases l' <;> simp_all [written]
  | cons p l ih =>
    cases l' with
    | nil => simp [written] at h
    | cons q l' =>
      obtain ⟨rfl, rest⟩ := written_append_inj (hl p (by simp)) (hl' q (by simp)) h
      rw [ih (fun p hp => hl p (by simp [hp])) (fun p hp => hl' p (by simp [hp])) rest]

theorem count_written (p : Policy) :
    p.written.count 0 = p.path.count 0 + p.content.count 0 + 2 := by
  simp [written]
  omega

theorem length_le_count_flatMap_written (l : List Policy) :
    2 * l.length ≤ (l.flatMap written).count 0 := by
  induction l with
  | nil => simp
  | cons p l ih =>
    rw [List.flatMap_cons, List.count_append, count_written, List.length_cons]
    omega

theorem eq_singleton_of_flatMap_written (hp : p.NulFree) (h : l.flatMap written = p.written) :
    l = [p] := by
  have nuls : (l.flatMap written).count 0 = 2 := by
    rw [h, count_written, List.count_eq_zero.mpr hp.1, List.count_eq_zero.mpr hp.2]
  have length := length_le_count_flatMap_written l
  match l, length with
  | [], _ => simp at nuls
  | [q], _ =>
    rw [List.flatMap_singleton, count_written] at nuls
    have hq : q.NulFree :=
      ⟨List.count_eq_zero.mp (by omega), List.count_eq_zero.mp (by omega)⟩
    refine flatMap_written_inj (by simpa using hq) (by simpa using hp) ?_
    simpa using h
  | _ :: _ :: _, length =>
    simp only [List.length_cons] at length
    omega

theorem exists_init_flatMap_written (h : l ≠ []) : ∃ init, l.flatMap written = init ++ [0] := by
  obtain ⟨front, last, rfl⟩ := (List.eq_nil_or_concat l).resolve_left h
  exact ⟨front.flatMap written ++ (last.path ++ 0 :: last.content), by simp [written]⟩

theorem exists_written_eq_flatMap (p : Policy) {rest : List Policy} (h : rest ≠ []) :
    ∃ q : Policy, q.written = (p :: rest).flatMap written := by
  obtain ⟨init, split⟩ := exists_init_flatMap_written h
  exact ⟨⟨p.path, p.content ++ 0 :: init⟩, by simp [written, split]⟩

theorem exists_written_eq (h : ¬p.NulFree) : ∃ q : Policy, q ≠ p ∧ q.written = p.written := by
  rcases not_and_or.mp h with inPath | inContent
  · obtain ⟨a, c, split⟩ := List.append_of_mem (not_not.mp inPath)
    refine ⟨⟨a, c ++ 0 :: p.content⟩, ?_, ?_⟩
    · intro same
      have path := congrArg Policy.path same
      rw [split] at path
      simp at path
    · simp [written, split]
  · obtain ⟨a, c, split⟩ := List.append_of_mem (not_not.mp inContent)
    refine ⟨⟨p.path ++ 0 :: a, c⟩, ?_, ?_⟩
    · intro same
      simpa using congrArg Policy.path same
    · simp [written, split]

end Policy

/-! The hash -/

theorem length_hexEncode (data : Bytes) : (hexEncode data).length = 2 * data.length := by
  rw [hexEncode, String.length_ofList]
  induction data with
  | nil => rfl
  | cons x data ih =>
    simp only [List.flatMap_cons, List.length_append, List.length_cons, List.length_nil, ih]
    omega

theorem hexEncode_ne_empty (data : Bytes) : hexEncode data ≠ "empty" := by
  intro same
  have length := congrArg String.length same
  rw [length_hexEncode, show "empty".length = 5 from rfl] at length
  omega

theorem sha256_text_inj {s t : String} (h : "sha256:" ++ s = "sha256:" ++ t) : s = t := by
  have chars := congrArg String.toList h
  rw [String.toList_append, String.toList_append] at chars
  exact String.toList_injective (List.append_cancel_left chars)

namespace Builder

variable (b : Builder) {l l' : List Policy}

def hashed (l : List Policy) : Bytes := (b.sort.sort l).flatMap Policy.written

theorem hashed_eq_nil : b.hashed l = [] ↔ l = [] := by
  rw [← b.sort.sort_eq_nil, hashed]
  cases b.sort.sort l <;> simp [Policy.written]

theorem contentHash_of_ne_nil (h : l ≠ []) :
    b.contentHash l = "sha256:" ++ hexEncode (b.sha256 (b.hashed l)) := by
  rw [contentHash, BundleService.contentHash, if_neg h, hashed]

theorem contentHash_eq_empty : b.contentHash l = b.contentHash [] ↔ l = [] := by
  constructor
  · intro same
    by_contra h
    rw [b.contentHash_of_ne_nil h] at same
    exact hexEncode_ne_empty _ (sha256_text_inj same)
  · rintro rfl
    rfl

theorem contentHash_eq_iff (collisionFree : Function.Injective b.sha256) :
    b.contentHash l = b.contentHash l' ↔ b.hashed l = b.hashed l' := by
  by_cases hl : l = []
  · subst hl
    rw [eq_comm, contentHash_eq_empty, b.hashed_eq_nil.mpr rfl, ← b.hashed_eq_nil]
    exact eq_comm
  by_cases hl' : l' = []
  · subst hl'
    rw [contentHash_eq_empty, b.hashed_eq_nil.mpr rfl, hashed_eq_nil]
  rw [b.contentHash_of_ne_nil hl, b.contentHash_of_ne_nil hl']
  constructor
  · intro same
    exact collisionFree (hexEncode_injective (sha256_text_inj same))
  · intro same
    rw [same]

/-! The bundle -/

def Valid (l : List Policy) : Prop := ∀ p ∈ l, validatePath p.path = .ok ()

theorem forM_validatePath : (l.forM fun p => validatePath p.path) = .ok () ↔ Valid l := by
  induction l with
  | nil => simp [Valid, pure, Except.pure]
  | cons p l ih =>
    rw [Valid, List.forall_mem_cons, ← Valid, ← ih, List.forM]
    cases h : validatePath p.path with
    | error e => simp [bind, Except.bind]
    | ok u => simp [bind, Except.bind]

theorem build_of_not_valid (h : ¬Valid l) : (b.build l).toOption = none := by
  rw [← forM_validatePath] at h
  unfold build writePolicies
  cases hvalidate : l.forM fun p => validatePath p.path with
  | error e => rfl
  | ok u => exact absurd hvalidate h

theorem writePolicies_of_valid (h : Valid l) :
    b.writePolicies l = (b.sort.sort l).foldlM b.writePolicy .empty := by
  rw [writePolicies, forM_validatePath.mpr h]
  rfl

theorem build_eq_of_sort_eq (same : b.sort.sort l = b.sort.sort l') :
    (b.build l).toOption = (b.build l').toOption := by
  have perm := b.sort.perm_of_sort_eq same
  have valid : Valid l ↔ Valid l' := by simp only [Valid, perm.mem_iff]
  by_cases hl : Valid l
  · rw [build, build, b.writePolicies_of_valid hl, b.writePolicies_of_valid (valid.mp hl), same]
  · rw [b.build_of_not_valid hl, b.build_of_not_valid (mt valid.mpr hl)]

/-! Soundness -/

def AnswersNotModified (l l' : List Policy) : Prop :=
  ∃ s c s' etag, c.state = .begun ∧ c.ifNoneMatch = b.contentHash l ∧
    s.etags.lookup c.id = some (b.contentHash l') ∧
    Service.stepCall s c = some (s', .returned (.notModified etag))

theorem contentHash_eq_of_answersNotModified (h : b.AnswersNotModified l l') :
    b.contentHash l = b.contentHash l' := by
  obtain ⟨s, c, s', etag, begun, given, cached, answer⟩ := h
  rw [Service.stepCall, begun] at answer
  simp only [cached, given] at answer
  split at answer
  · next matched => exact matched.2
  · simp at answer

structure Identifies (l l' : List Policy) : Prop where
  hash_eq_iff : b.contentHash l = b.contentHash l' ↔ l.Perm l'
  notModified : b.AnswersNotModified l l' → (b.build l).toOption = (b.build l').toOption
  build_eq : l.Perm l' → (b.build l).toOption = (b.build l').toOption

variable {b}

theorem Identifies.of_sort_eq_iff (hash : b.contentHash l = b.contentHash l' ↔ l.Perm l')
    (sorted : l.Perm l' → b.sort.sort l = b.sort.sort l') : b.Identifies l l' where
  hash_eq_iff := hash
  notModified answers :=
    b.build_eq_of_sort_eq (sorted (hash.mp (b.contentHash_eq_of_answersNotModified answers)))
  build_eq perm := b.build_eq_of_sort_eq (sorted perm)

theorem hashed_inj (hl : ∀ p ∈ l, p.NulFree) (hl' : ∀ p ∈ l', p.NulFree) :
    b.hashed l = b.hashed l' ↔ b.sort.sort l = b.sort.sort l' := by
  constructor
  · intro same
    refine Policy.flatMap_written_inj (fun p hp => hl p ?_) (fun p hp => hl' p ?_) same
    · exact (b.sort.sort_perm l).mem_iff.mp hp
    · exact (b.sort.sort_perm l').mem_iff.mp hp
  · intro same
    rw [hashed, hashed, same]

theorem hashed_singleton (b : Builder) (p : Policy) : b.hashed [p] = p.written := by
  rw [hashed, b.sort.sort_singleton, List.flatMap_singleton]

theorem exists_hashed_eq (hl : l ≠ []) (h : ∀ p, l = [p] → ¬p.NulFree) :
    ∃ l', b.hashed l = b.hashed l' ∧ ¬l.Perm l' := by
  match hsorted : b.sort.sort l with
  | [] => exact absurd (b.sort.sort_eq_nil.mp hsorted) hl
  | [p] =>
    have single : l = [p] := List.perm_singleton.mp (hsorted ▸ (b.sort.sort_perm l).symm)
    obtain ⟨q, differ, same⟩ := Policy.exists_written_eq (h p single)
    refine ⟨[q], ?_, ?_⟩
    · rw [single, b.hashed_singleton, b.hashed_singleton, same]
    · intro perm
      rw [single] at perm
      exact differ (List.singleton_perm_singleton.mp perm).symm
  | p :: r :: rest =>
    obtain ⟨q, same⟩ := Policy.exists_written_eq_flatMap p (List.cons_ne_nil r rest)
    refine ⟨[q], ?_, ?_⟩
    · rw [b.hashed_singleton, hashed, hsorted, same]
    · intro perm
      have length := ((b.sort.sort_perm l).trans perm).length_eq
      simp [hsorted] at length

section CollisionFree

variable (collisionFree : Function.Injective b.sha256)
include collisionFree

theorem identifies_of_nulFree (hl : ∀ p ∈ l, p.NulFree) (hl' : ∀ p ∈ l', p.NulFree)
    (sorted : l.Perm l' → b.sort.sort l = b.sort.sort l') : b.Identifies l l' := by
  refine .of_sort_eq_iff ?_ sorted
  rw [b.contentHash_eq_iff collisionFree, hashed_inj hl hl']
  exact ⟨b.sort.perm_of_sort_eq, sorted⟩

theorem identifies_iff_of_nulFree (hl : ∀ p ∈ l, p.NulFree) :
    (∀ l' : List Policy, (∀ p ∈ l', p.NulFree) → b.Identifies l l') ↔ TieFree l := by
  constructor
  · intro h
    by_contra tie
    obtain ⟨l', perm, differ⟩ := b.sort.exists_perm_sort_ne tie
    have hl' : ∀ p ∈ l', p.NulFree := fun p hp => hl p (perm.mem_iff.mpr hp)
    have same := (h l' hl').hash_eq_iff.mpr perm
    rw [b.contentHash_eq_iff collisionFree, hashed_inj hl hl'] at same
    exact differ same
  · intro tieFree l' hl'
    exact identifies_of_nulFree collisionFree hl hl' (b.sort.sort_eq_of_perm tieFree)

theorem identifies_all_iff :
    (∀ l', b.Identifies l l') ↔ l = [] ∨ ∃ p : Policy, l = [p] ∧ p.NulFree := by
  constructor
  · intro h
    by_contra other
    push Not at other
    obtain ⟨l', same, differ⟩ := exists_hashed_eq other.1 other.2
    exact differ ((h l').hash_eq_iff.mp ((b.contentHash_eq_iff collisionFree).mpr same))
  · rintro (rfl | ⟨p, rfl, hp⟩) l'
    · refine .of_sort_eq_iff ?_ (b.sort.sort_eq_of_perm (by simp [TieFree]))
      rw [eq_comm, contentHash_eq_empty, List.nil_perm]
    · refine .of_sort_eq_iff ?_ (b.sort.sort_eq_of_perm (by simp [TieFree]))
      rw [b.contentHash_eq_iff collisionFree, b.hashed_singleton]
      constructor
      · intro same
        have single := Policy.eq_singleton_of_flatMap_written hp same.symm
        exact b.sort.perm_of_sort_eq (by rw [b.sort.sort_singleton, single])
      · intro perm
        rw [List.perm_singleton.mp perm.symm, b.hashed_singleton]

end CollisionFree

/-- A list that only its own permutations agree with is empty or has one entry, without a
NUL byte. Among lists without NUL bytes the ETag identifies every list in which entries with
one path have one content, and no other. -/
theorem contentHash_identifies_iff (b : Builder) (collisionFree : Function.Injective b.sha256)
    (l : List Policy) :
    ((∀ l', b.Identifies l l') ↔ l = [] ∨ ∃ p : Policy, l = [p] ∧ p.NulFree) ∧
      ((∀ p ∈ l, p.NulFree) →
        ((∀ l' : List Policy, (∀ p ∈ l', p.NulFree) → b.Identifies l l') ↔ TieFree l)) :=
  ⟨identifies_all_iff collisionFree, identifies_iff_of_nulFree collisionFree⟩

def rule (path content : String) : Policy := ⟨bytes path, bytes content⟩

/-- Two rules with distinct names. -/
theorem contentHash_identifies_two_rules :
    let l := [rule "deny.rego" "deny", rule "allow.rego" "allow"]
    (∀ p ∈ l, p.NulFree) ∧
      ∀ l' : List Policy, (∀ p ∈ l', p.NulFree) → (uncompressed id).Identifies l l' := by
  have nulFree : ∀ p ∈ [rule "deny.rego" "deny", rule "allow.rego" "allow"], p.NulFree := by
    decide
  have tieFree : TieFree [rule "deny.rego" "deny", rule "allow.rego" "allow"] := by
    unfold TieFree
    decide
  exact ⟨nulFree, ((contentHash_identifies_iff (uncompressed id) Function.injective_id _).2
    nulFree).mpr tieFree⟩

/-- One entry with NUL bytes has the ETag of two entries, and two entries with one path have
two ETags. -/
theorem contentHash_merges_and_orders :
    (∀ sha256, ¬(uncompressed sha256).Identifies [rule "a" "b\x00c\x00d"]
      [rule "a" "b", rule "c" "d"]) ∧
    (∀ sha256, Function.Injective sha256 →
      ¬(uncompressed sha256).Identifies [rule "a" "allow", rule "a" "deny"]
        [rule "a" "deny", rule "a" "allow"]) := by
  constructor
  · intro sha256 h
    have same : (uncompressed sha256).hashed [rule "a" "b\x00c\x00d"] =
        (uncompressed sha256).hashed [rule "a" "b", rule "c" "d"] := by
      change (PathSort.insertion.sort _).flatMap _ = (PathSort.insertion.sort _).flatMap _
      decide
    have perm := h.hash_eq_iff.mp (by
      rw [contentHash_of_ne_nil _ (List.cons_ne_nil _ _),
        contentHash_of_ne_nil _ (List.cons_ne_nil _ _), same])
    exact absurd perm.length_eq (by decide)
  · intro sha256 collisionFree h
    have same := h.hash_eq_iff.mpr (List.Perm.swap _ _ _)
    rw [contentHash_eq_iff _ collisionFree] at same
    change (PathSort.insertion.sort _).flatMap _ = (PathSort.insertion.sort _).flatMap _ at same
    exact absurd same (by decide)

end Builder

end Kagenti.Operator.BundleService
