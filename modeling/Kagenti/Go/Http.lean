import Mathlib.Data.List.AList
import Kagenti.Go.Utf8

/-!
`http.Header` with canonical keys, `strings.TrimSpace` and the cut at the last separator.
-/

namespace Kagenti.Go

/-- The white space `strings.TrimSpace` removes. -/
def isUnicodeSpace (c : Char) : Bool :=
  let n := c.toNat
  decide ((0x09 ≤ n ∧ n ≤ 0x0D) ∨ n = 0x20 ∨ n = 0x85 ∨ n = 0xA0 ∨ n = 0x1680 ∨
    (0x2000 ≤ n ∧ n ≤ 0x200A) ∨ n = 0x2028 ∨ n = 0x2029 ∨ n = 0x202F ∨ n = 0x205F ∨
    n = 0x3000)

def trimSpace (s : String) : String :=
  String.ofList ((s.toList.dropWhile isUnicodeSpace).reverse.dropWhile isUnicodeSpace).reverse

theorem dropWhile_of_forall {α : Type*} {p : α → Bool} {l : List α} (h : ∀ a ∈ l, p a = false) :
    l.dropWhile p = l := by
  cases l with
  | nil => rfl
  | cons a l => rw [List.dropWhile_cons_of_neg (by simp [h a List.mem_cons_self])]

theorem trimSpace_of_forall {s : String} (h : ∀ c ∈ s.toList, isUnicodeSpace c = false) :
    trimSpace s = s := by
  rw [trimSpace, dropWhile_of_forall h, dropWhile_of_forall (by simpa using h), List.reverse_reverse,
    String.ofList_toList]

def isTokenChar (c : Char) : Bool :=
  c.isAlphanum || ("!#$%&'*+-.^_|~".toList.contains c) || decide (c = Char.ofNat 0x60)

def canonicalChars (upper : Bool) : List Char → List Char
  | [] => []
  | c :: cs =>
    (if upper then c.toUpper else c.toLower) :: canonicalChars (decide (c = '-')) cs

/-- `textproto.CanonicalMIMEHeaderKey`. -/
def canonicalHeaderKey (key : String) : String :=
  if key.toList.all isTokenChar then String.ofList (canonicalChars true key.toList) else key

abbrev Header := AList fun _ : String => List String

def headerGet (h : Header) (key : String) : String :=
  match h.lookup (canonicalHeaderKey key) with
  | some (value :: _) => value
  | _ => ""

def headerSet (h : Header) (key value : String) : Header :=
  h.insert (canonicalHeaderKey key) [value]

def headerDel (h : Header) (key : String) : Header := h.erase (canonicalHeaderKey key)

/-- What stands before the last separator, if there is one: `s[:strings.LastIndex(s, sep)]`. -/
def beforeLast (sep : Char) : List Char → Option (List Char)
  | [] => none
  | c :: rest =>
    match beforeLast sep rest with
    | some front => some (c :: front)
    | none => if c = sep then some [] else none

variable {sep : Char} {s front : List Char}

theorem beforeLast_eq_none_iff : beforeLast sep s = none ↔ sep ∉ s := by
  induction s with
  | nil => simp [beforeLast]
  | cons c rest ih =>
    rw [beforeLast, List.mem_cons, not_or, ← ih]
    cases beforeLast sep rest <;> simp [eq_comm]

theorem beforeLast_append {back : List Char} (h : sep ∉ back) (front : List Char) :
    beforeLast sep (front ++ sep :: back) = some front := by
  induction front with
  | nil => rw [List.nil_append, beforeLast, beforeLast_eq_none_iff.mpr h]; exact if_pos rfl
  | cons c front ih => rw [List.cons_append, beforeLast, ih]

theorem exists_of_beforeLast (h : beforeLast sep s = some front) :
    ∃ back, sep ∉ back ∧ s = front ++ sep :: back := by
  induction s generalizing front with
  | nil => cases h
  | cons c rest ih =>
    rw [beforeLast] at h
    split at h
    next found => grind
    next found =>
      obtain ⟨rfl, ⟨⟩⟩ := Option.ite_none_right_eq_some.mp h
      exact ⟨rest, beforeLast_eq_none_iff.mp found, rfl⟩

end Kagenti.Go
