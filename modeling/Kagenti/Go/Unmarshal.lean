import Mathlib.Algebra.Group.Int.Defs
import Mathlib.Algebra.Group.Nat.Defs
import Kagenti.Go.Json

/-!
Decoding of a JSON tree into Go values, as `json.Unmarshal` does it. A decoder takes the value the
destination already holds, and is `none` on an error.
-/

namespace Kagenti.Go

namespace JsonNumber

def ofDigits (ds : List Nat) : Nat := ds.foldl (fun n d => n * 10 + d) 0

/-- The exponent as `strconv.ParseFloat` reads it: it stops adding digits once the
value has reached 10000. -/
def expValue (n : JsonNumber) : Int :=
  match n.exponent with
  | none => 0
  | some (negative, ds) =>
    let e : Nat := ds.foldl (fun e d => if e < 10000 then e * 10 + d else e) 0
    if negative then -(e : Int) else e

def float64Overflow : Nat := (2 ^ 54 - 1) * 2 ^ 970

/-- `strconv.ParseFloat` reports no range error. -/
def inFloat64Range (n : JsonNumber) : Bool :=
  let mantissa := ofDigits (n.intDigits ++ n.fracDigits)
  let exponent := n.expValue - n.fracDigits.length
  if mantissa = 0 then true
  else if 0 ≤ exponent then decide (mantissa * 10 ^ exponent.toNat < float64Overflow)
  else decide (mantissa < float64Overflow * 10 ^ (-exponent).toNat)

/-- `strconv.ParseInt(s, 10, 64)`: no fraction, no exponent, and the value fits. -/
def toInt64 (n : JsonNumber) : Option Int :=
  if n.fracDigits = [] ∧ n.exponent = none then
    let value : Int := ofDigits n.intDigits
    let value := if n.negative then -value else value
    if -(2 ^ 63) ≤ value ∧ value < 2 ^ 63 then some value else none
  else none

end JsonNumber

namespace Json

mutual

/-- Every number of the tree is one that decoding to `float64` accepts. -/
def floatsInRange : Json → Bool
  | .null | .bool _ | .str _ => true
  | .num n => n.inFloat64Range
  | .arr xs => elementsInRange xs
  | .obj ms => membersInRange ms

def elementsInRange : List Json → Bool
  | [] => true
  | x :: xs => floatsInRange x && elementsInRange xs

def membersInRange : List (String × Json) → Bool
  | [] => true
  | (_, x) :: ms => floatsInRange x && membersInRange ms

end

def member (ms : List (String × Json)) (key : String) : Option Json :=
  (ms.reverse.find? fun m => m.1 = key).map Prod.snd

end Json

/-- A decoded `map[string]any` that is not nil. -/
abbrev AnyMap := AList fun _ : String => Json

/-- A decoder into a destination of type `α`. -/
abbrev Into (α : Type*) := α → Json → Option α

namespace Into

/-- A `string` destination. A null leaves it unchanged. -/
def string : Into String
  | old, .null => some old
  | _, .str s => some s
  | _, _ => none

def bool : Into Bool
  | old, .null => some old
  | _, .bool b => some b
  | _, _ => none

def int : Into Int
  | old, .null => some old
  | _, .num n => n.toInt64
  | _, _ => none

/-- An `any` destination, with `null` for the nil interface. -/
def any : Into Json
  | _, j => if j.floatsInRange then some j else none

def raw : Into (Option Json)
  | _, j => some (some j)

/-- A `map[string]any` destination: members are added to the map that is there, and a
null makes it nil. -/
def anyMap : Into (Option AnyMap)
  | _, .null => some none
  | old, .obj ms =>
    (ms.foldlM (fun (m : AnyMap) (key, value) => (any .null value).map fun v => m.insert key v)
      (old.getD ∅)).map some
  | _, _ => none

def pointer {α : Type*} (zero : α) (into : Into α) : Into (Option α)
  | _, .null => some none
  | old, j => (into (old.getD zero) j).map some

/-- A number literal that `float64` accepts. -/
def float64 : Into JsonNumber
  | old, .null => some old
  | _, .num n => if n.inFloat64Range then some n else none
  | _, _ => none

end Into

structure Slice (α : Type*) where
  backing : List α
  length : Nat

namespace Slice

def nil {α : Type*} : Slice α := ⟨[], 0⟩

def toList {α : Type*} (s : Slice α) : List α := s.backing.take s.length

end Slice

namespace Into

/-- Decodes elements one after the other into the backing array. -/
def elements {α : Type*} (zero : α) (into : Into α) : List α → List Json → Option (List α)
  | backing, [] => some backing
  | [], x :: xs => do
      let a ← into zero x
      let rest ← elements zero into [] xs
      return a :: rest
  | old :: backing, x :: xs => do
      let a ← into old x
      let rest ← elements zero into backing xs
      return a :: rest

def slice {α : Type*} (zero : α) (into : Into α) : Into (Slice α)
  | _, .null => some .nil
  | _, .arr [] => some .nil
  | old, .arr xs => (elements zero into old.backing xs).map fun backing => ⟨backing, xs.length⟩
  | _, _ => none

end Into

def foldChar (c : Char) : Char :=
  if c = '\u017f' then 'S' else if c = '\u212a' then 'K' else c.toUpper

def foldName (name : String) : List Char := name.toList.map foldChar

def fieldFor {β : Type*} (fields : List (String × β)) (key : String) : Option β :=
  match fields.find? fun f => f.1 = key with
  | some f => some f.2
  | none => (fields.find? fun f => foldName f.1 = foldName key).map Prod.snd

namespace Into

/-- A struct destination. Members without a field are ignored. -/
def struct {α : Type*} (fields : List (String × Into α)) : Into α
  | old, .null => some old
  | old, .obj ms =>
    ms.foldlM (fun a (key, value) =>
      match fieldFor fields key with
      | some into => into a value
      | none => some a) old
  | _, _ => none

def field {α β : Type*} (get : α → β) (set : α → β → α) (into : Into β) : Into α :=
  fun a j => (into (get a) j).map (set a)

end Into

/-- `json.Unmarshal(data, &v)` with `v` at its zero value. -/
def unmarshal {α : Type*} (into : Into α) (zero : α) (data : Bytes) : Option α :=
  (Json.parse data).bind (into zero)

/-! Two decoders of one value -/

variable {β : Type*} {b : β} {key : String} {fields : List (String × β)}

theorem foldName_of_fieldFor (h : fieldFor fields key = some b) :
    ∃ name, (name, b) ∈ fields ∧ foldName name = foldName key := by
  unfold fieldFor at h
  split at h
  next f found => grind
  · obtain ⟨f, found, rfl⟩ := Option.map_eq_some_iff.mp h
    exact ⟨f.1, List.mem_of_find?_eq_some found, by simpa using List.find?_some found⟩

theorem fieldFor_of_foldName (distinct : (fields.map fun f => foldName f.1).Nodup) {name : String}
    (member : (name, b) ∈ fields) (same : foldName name = foldName key) :
    fieldFor fields key = some b := by
  have unique {f : String × β} (found : f ∈ fields) (folded : foldName f.1 = foldName key) :
      f = (name, b) :=
    List.inj_on_of_nodup_map distinct found member (folded.trans same.symm)
  unfold fieldFor
  cases exactly : fields.find? fun f => f.1 = key with
  | some f =>
    have folded : f.1 = key := by simpa using List.find?_some exactly
    rw [unique (List.mem_of_find?_eq_some exactly) (by rw [folded])]
  | none =>
    cases folding : fields.find? fun f => foldName f.1 = foldName key with
    | some f =>
      rw [unique (List.mem_of_find?_eq_some folding) (by simpa using List.find?_some folding)]
      rfl
    | none =>
      have missed := List.find?_eq_none.mp folding _ member
      simp [same] at missed

namespace Into

variable {α β γ : Type*} {R : α → β → Prop}

def Keeps (R : α → β → Prop) (into : Into α) (into' : Into β) : Prop :=
  ∀ ⦃a b value a' b'⦄, R a b → into a value = some a' → into' b value = some b' → R a' b'

def member (fields : List (String × Into α)) (key : String) : Into α := fun a value =>
  match fieldFor fields key with
  | some into => into a value
  | none => some a

variable {fields : List (String × Into α)} {fields' : List (String × Into β)} {key : String}
  {into : Into α}

theorem member_of_foldName (distinct : (fields.map fun f => foldName f.1).Nodup) {name : String}
    (mem : (name, into) ∈ fields) (same : foldName name = foldName key) :
    member fields key = into := by
  unfold member
  rw [fieldFor_of_foldName distinct mem same]

theorem struct_cons {m : String × Json} {ms : List (String × Json)} {a a' : α}
    (decoded : struct fields a (.obj (m :: ms)) = some a') :
    ∃ a₁, member fields m.1 a m.2 = some a₁ ∧ struct fields a₁ (.obj ms) = some a' :=
  Option.bind_eq_some_iff.mp decoded

theorem keeps_struct (h : ∀ key, Keeps R (member fields key) (member fields' key)) :
    Keeps R (struct fields) (struct fields') := by
  intro a b value a' b' related decoded decoded'
  cases value with
  | null =>
    cases decoded
    cases decoded'
    exact related
  | obj ms =>
    induction ms generalizing a b with
    | nil =>
      cases decoded
      cases decoded'
      exact related
    | cons m ms ih =>
      obtain ⟨a₁, first, rest⟩ := struct_cons decoded
      obtain ⟨b₁, first', rest'⟩ := struct_cons decoded'
      exact ih (h m.1 related first first') rest rest'
  | _ => cases decoded

theorem keeps_member_of_forall₂
    (h : List.Forall₂ (fun f f' => f.1 = f'.1 ∧ Keeps R f.2 f'.2) fields fields') (key : String) :
    Keeps R (member fields key) (member fields' key) := by
  -- Both structs look for a field by its name only, so they find a pair of related ones.
  have find (test : String → Bool) :
      Option.Rel (fun f f' => Keeps R f.2 f'.2) (fields.find? fun f => test f.1)
        (fields'.find? fun f => test f.1) := by
    induction h with
    | nil => exact .none
    | @cons f f' _ _ first rest ih =>
      rw [List.find?_cons, List.find?_cons, ← first.1]
      cases test f.1 with
      | true => exact .some first.2
      | false => exact ih
  intro a b value a' b' related decoded decoded'
  unfold member fieldFor at decoded decoded'
  have exactly := find fun name => name = key
  have folding := find fun name => foldName name = foldName key
  generalize (fields.find? fun f => decide (f.1 = key)) = named at exactly decoded
  generalize (fields'.find? fun f => decide (f.1 = key)) = named' at exactly decoded'
  generalize (fields.find? fun f => decide (foldName f.1 = foldName key)) = folded at folding decoded
  generalize (fields'.find? fun f => decide (foldName f.1 = foldName key)) = folded'
    at folding decoded'
  cases exactly with
  | some keeps => exact keeps related decoded decoded'
  | none =>
    cases folding with
    | some keeps => exact keeps related decoded decoded'
    | none =>
      cases decoded
      cases decoded'
      exact related

variable {get : α → γ} {set : α → γ → α}

theorem keeps_field {get' : β → γ} {set' : β → γ → β} (into : Into γ)
    (same : ∀ a b, R a b → get a = get' b) (keeps : ∀ a b v, R a b → R (set a v) (set' b v)) :
    Keeps R (field get set into) (field get' set' into) := by
  intro a b value a' b' related decoded decoded'
  obtain ⟨v, found, rfl⟩ := Option.map_eq_some_iff.mp decoded
  obtain ⟨v', found', rfl⟩ := Option.map_eq_some_iff.mp decoded'
  rw [same a b related, found'] at found
  obtain rfl := Option.some.inj found
  exact keeps a b v' related

/-- A decoder that leaves one projection of its destination alone. -/
def Preserves (p : α → γ) (into : Into α) : Prop :=
  ∀ ⦃a value a'⦄, into a value = some a' → p a' = p a

theorem preserves_field {δ : Type*} {p : α → δ} (into : Into γ) (kept : ∀ a v, p (set a v) = p a) :
    Preserves p (field get set into) := by
  intro a value a' decoded
  obtain ⟨v, -, rfl⟩ := Option.map_eq_some_iff.mp decoded
  exact kept a v

variable {p : α → γ}

theorem preserves_member (h : ∀ f ∈ fields, foldName f.1 = foldName key → Preserves p f.2) :
    Preserves p (member fields key) := by
  intro a value a' decoded
  unfold member at decoded
  split at decoded
  next into found =>
    obtain ⟨name, mem, same⟩ := foldName_of_fieldFor found
    exact h _ mem same decoded
  · cases decoded
    rfl

theorem keeps_of_preserves {q : β → γ} {into' : Into β} (h : Preserves p into)
    (h' : Preserves q into') : Keeps (fun a b => p a = q b) into into' :=
  fun _ _ _ _ _ related decoded decoded' => (h decoded).trans (related.trans (h' decoded').symm)

theorem preserves_struct (h : ∀ f ∈ fields, Preserves p f.2) : Preserves p (struct fields) := by
  intro a value a' decoded
  cases value with
  | null =>
    cases decoded
    rfl
  | obj ms =>
    induction ms generalizing a with
    | nil =>
      cases decoded
      rfl
    | cons m ms ih =>
      obtain ⟨a₁, first, rest⟩ := struct_cons decoded
      exact (ih rest).trans (preserves_member (fun f mem _ => h f mem) first)
  | _ => cases decoded

end Into

end Kagenti.Go
