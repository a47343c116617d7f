import Kagenti.Go.FloatFormat
import Kagenti.Operator.Signature.Canonical

/-!
What a canonical payload says. Every decoded JSON value has a meaning in which numbers are binary64
values and maps are functions of their keys, and one in which, besides, what counts as empty is
absent.
-/

namespace Kagenti.Operator.Signature

open Go

inductive Value where
  | null
  | bool (value : Bool)
  | num (negative : Bool) (magnitude : Float64)
  | str (value : String)
  | arr (elements : List Value)
  | obj (fields : String → Option Value)

mutual

def whole : Json → Value
  | .null => .null
  | .bool b => .bool b
  | .num n => .num n.negative n.toFloat64
  | .str s => .str s
  | .arr xs => .arr (wholeElements xs)
  | .obj ms => .obj (lastMember (wholeMembers ms))

def wholeElements : List Json → List Value
  | [] => []
  | x :: xs => whole x :: wholeElements xs

def wholeMembers : List (String × Json) → List (String × Value)
  | [] => []
  | (key, x) :: ms => (key, whole x) :: wholeMembers ms

end

/-- An object with the given fields, absent if it has none. -/
noncomputable def record (fields : String → Option Value) : Option Value :=
  open Classical in if ∀ key, fields key = none then none else some (.obj fields)

/-- An array with the given elements, absent if it has none. -/
def sequence : List Value → Option Value
  | [] => none
  | vs => some (.arr vs)

mutual

noncomputable def present : Json → Option Value
  | .null => none
  | .bool b => some (.bool b)
  | .num n => some (.num n.negative n.toFloat64)
  | .str s => if s = "" then none else some (.str s)
  | .arr xs => sequence (presentElements xs)
  | .obj ms => record fun key => (lastMember (presentMembers ms) key).join

noncomputable def presentElements : List Json → List Value
  | [] => []
  | .arr xs :: rest => whole (.arr xs) :: presentElements rest
  | x :: rest => (present x).toList ++ presentElements rest

noncomputable def presentMembers : List (String × Json) → List (String × Option Value)
  | [] => []
  | (key, x) :: ms => (key, present x) :: presentMembers ms

end

/-! The recursions over elements and members -/

theorem wholeElements_eq (xs : List Json) : wholeElements xs = xs.map whole := by
  induction xs with
  | nil => rfl
  | cons x xs ih => rw [wholeElements, ih, List.map_cons]

theorem wholeMembers_eq (ms : List (String × Json)) :
    wholeMembers ms = ms.map fun m => (m.1, whole m.2) := by
  induction ms with
  | nil => rfl
  | cons m ms ih => rw [wholeMembers, ih, List.map_cons]

theorem presentMembers_eq (ms : List (String × Json)) :
    presentMembers ms = ms.map fun m => (m.1, present m.2) := by
  induction ms with
  | nil => rfl
  | cons m ms ih => rw [presentMembers, ih, List.map_cons]

theorem cleanMembers_eq (ms : List (String × Json)) :
    cleanMembers ms = ms.map fun m => (m.1, cleanField m.2) := by
  induction ms with
  | nil => rfl
  | cons m ms ih => rw [cleanMembers, ih, List.map_cons]

theorem marshalElements_eq (xs : List Json) : marshalElements xs = xs.map marshalValue := by
  induction xs with
  | nil => rfl
  | cons x xs ih => rw [marshalElements, ih, List.map_cons]

theorem marshalMembers_eq (ms : List (String × Json)) :
    marshalMembers ms = ms.map fun m => (m.1, marshalValue m.2) := by
  induction ms with
  | nil => rfl
  | cons m ms ih => rw [marshalMembers, ih, List.map_cons]

/-! The text of a value -/

def startOf (c : Char) : Nat :=
  if c = 'n' then 0
  else if c = 't' then 1
  else if c = 'f' then 2
  else if c = '"' then 4
  else if c = '[' then 5
  else if c = '\x7b' then 6
  else 3

def kindOf : Json → Nat
  | .null => 0
  | .bool true => 1
  | .bool false => 2
  | .num _ => 3
  | .str _ => 4
  | .arr _ => 5
  | .obj _ => 6

theorem startOf_numeral {c : Char} (h : numeralChar c = true) : startOf c = 3 := by
  have hne : ∀ d, numeralChar d = false → c ≠ d := by
    rintro d hd rfl
    rw [h] at hd
    cases hd
  unfold startOf
  rw [if_neg (hne _ (by decide)), if_neg (hne _ (by decide)), if_neg (hne _ (by decide)),
    if_neg (hne _ (by decide)), if_neg (hne _ (by decide)), if_neg (hne _ (by decide))]

theorem marshalValue_start (j : Json) :
    ∃ c cs, marshalValue j = c :: cs ∧ startOf c = kindOf j ∧ ¬ Follows (c :: cs) := by
  cases j with
  | null => exact ⟨_, _, rfl, rfl, by simp [Follows]⟩
  | bool b => cases b <;> exact ⟨_, _, rfl, rfl, by simp [Follows]⟩
  | num n =>
    obtain ⟨c, cs, hstart⟩ := List.exists_cons_of_ne_nil
      (formatFloat_ne_nil n.negative n.toFloat64)
    have hc : numeralChar c = true :=
      formatFloat_numeral n.negative n.toFloat64 c (by rw [hstart]; exact List.mem_cons_self)
    refine ⟨c, cs, hstart, startOf_numeral hc, ?_⟩
    rintro (rfl | rfl | rfl) <;> cases hc
  | str s => exact ⟨_, _, rfl, rfl, by simp [Follows]⟩
  | arr xs => exact ⟨_, _, rfl, rfl, by simp [Follows]⟩
  | obj ms => exact ⟨_, _, rfl, rfl, by simp [Follows]⟩

inductive SameKind : Json → Json → Prop where
  | null : SameKind .null .null
  | bool (b : Bool) : SameKind (.bool b) (.bool b)
  | num (n n' : JsonNumber) : SameKind (.num n) (.num n')
  | str (s s' : String) : SameKind (.str s) (.str s')
  | arr (xs xs' : List Json) : SameKind (.arr xs) (.arr xs')
  | obj (ms ms' : List (String × Json)) : SameKind (.obj ms) (.obj ms')

variable {j j' : Json}

theorem sameKind_of_kindOf (h : kindOf j = kindOf j') : SameKind j j' := by
  obtain _ | (_ | _) | n | s | xs | ms := j <;>
    obtain _ | (_ | _) | n' | s' | xs' | ms' := j' <;>
      first
        | constructor
        | cases h

variable {r r' : List Char}

theorem sameKind_of_text (h : marshalValue j ++ r = marshalValue j' ++ r') : SameKind j j' := by
  obtain ⟨c, cs, hc, hkind, -⟩ := marshalValue_start j
  obtain ⟨c', cs', hc', hkind', -⟩ := marshalValue_start j'
  rw [hc, hc'] at h
  refine sameKind_of_kindOf ?_
  rw [← hkind, ← hkind', (List.cons.inj h).1]

theorem numeral_append_inj {cs cs' : List Char} (hcs : ∀ c ∈ cs, numeralChar c = true)
    (hcs' : ∀ c ∈ cs', numeralChar c = true) (hr : Follows r) (hr' : Follows r')
    (h : cs ++ r = cs' ++ r') : cs = cs' ∧ r = r' := by
  have hend : ∀ {r}, Follows r → r.takeWhile numeralChar = [] := by
    intro r hr
    cases r with
    | nil => rfl
    | cons c r => rcases hr with rfl | rfl | rfl <;> rfl
  have htake := congrArg (List.takeWhile numeralChar) h
  rw [List.takeWhile_append_of_pos hcs, List.takeWhile_append_of_pos hcs', hend hr, hend hr',
    List.append_nil, List.append_nil] at htake
  subst htake
  exact ⟨rfl, List.append_cancel_left h⟩

def Delimits (j : Json) : Prop := ReadsBack id (Set.range marshalValue) (marshalValue j)

variable {xs : List Json}

theorem arrText_append_inj {ys : List Json} (hxs : ∀ x ∈ xs, Delimits x)
    (h : marshalValue (.arr xs) ++ r = marshalValue (.arr ys) ++ r') :
    xs.map marshalValue = ys.map marshalValue ∧ r = r' := by
  simp only [marshalValue, marshalElements_eq, List.cons_append, List.append_assoc, List.nil_append,
    List.cons.injEq, true_and] at h
  have htexts : ∀ zs : List Json, ∀ t ∈ zs.map marshalValue, t ∈ Set.range marshalValue := by grind
  have hlists : commaList ((xs.map marshalValue).map id) ++ ']' :: r =
      commaList ((ys.map marshalValue).map id) ++ ']' :: r' := by
    rw [List.map_id, List.map_id]
    exact h
  refine commaList_append_inj (S := Set.range marshalValue) (by decide) ?_ ?_ ?_ (htexts xs)
    (htexts ys) hlists
  · exact fun _ => .inr (.inl rfl)
  · rintro t ⟨j, rfl⟩ r hfollows
    obtain ⟨c, cs, hstart, -, hnot⟩ := marshalValue_start j
    rw [id, hstart] at hfollows
    exact hnot hfollows
  · intro t ht
    obtain ⟨x, hx, rfl⟩ := List.mem_map.mp ht
    exact hxs x hx

variable {ms ms' : List (String × Json)}

theorem objText_append_inj (hms : ∀ m ∈ ms, Delimits m.2)
    (h : marshalValue (.obj ms) ++ r = marshalValue (.obj ms') ++ r') :
    sortMembers (marshalMembers ms) = sortMembers (marshalMembers ms') ∧ r = r' := by
  have hsource : ∀ {ms : List (String × Json)} {m : String × List Char},
      m ∈ sortMembers (marshalMembers ms) → ∃ m' ∈ ms, m.2 = marshalValue m'.2 := by
    intro ms m hm
    have hmem := mem_of_lastMember (mem_sortMembers_iff.mp hm)
    rw [marshalMembers_eq] at hmem
    obtain ⟨m', hm', heq⟩ := List.mem_map.mp hmem
    exact ⟨m', hm', (Prod.mk.inj heq).2.symm⟩
  have hobjects : objectText id (sortMembers (marshalMembers ms)) ++ r =
      objectText id (sortMembers (marshalMembers ms')) ++ r' := h
  refine objectText_append_inj (S := Set.range marshalValue) ?_ ?_ ?_ hobjects
  · intro m hm
    obtain ⟨m', hm', heq⟩ := hsource hm
    rw [heq]
    exact hms m' hm'
  · grind
  · grind

theorem delimits (j : Json) : Delimits j := by
  induction j using Json.induct with
  | null | bool b =>
    rintro _ ⟨j', rfl⟩ r r' - - h
    cases sameKind_of_text h
    exact ⟨rfl, List.append_cancel_left h⟩
  | num n =>
    rintro _ ⟨j', rfl⟩ r r' hr hr' h
    cases sameKind_of_text h with
    | num _ n' =>
      exact numeral_append_inj (formatFloat_numeral n.negative n.toFloat64)
        (formatFloat_numeral n'.negative n'.toFloat64) hr hr' h
  | str s =>
    rintro _ ⟨j', rfl⟩ r r' - - h
    cases sameKind_of_text h with
    | str _ s' =>
      obtain ⟨rfl, hrest⟩ := quoteText_append_inj h
      exact ⟨rfl, hrest⟩
  | arr xs ih =>
    rintro _ ⟨j', rfl⟩ r r' - - h
    cases sameKind_of_text h with
    | arr _ ys =>
      obtain ⟨hlists, hrest⟩ := arrText_append_inj ih h
      simp only [marshalValue, marshalElements_eq, hlists, hrest, true_and]
  | obj ms ih =>
    rintro _ ⟨j', rfl⟩ r r' - - h
    cases sameKind_of_text h with
    | obj _ ms' =>
      obtain ⟨hmembers, hrest⟩ := objText_append_inj ih h
      simp only [marshalValue, hmembers, hrest, true_and]

/-! Numbers in range -/

theorem floatsInRange_arr_iff :
    (Json.arr xs).floatsInRange = true ↔ ∀ x ∈ xs, x.floatsInRange = true := by
  rw [Json.floatsInRange]
  induction xs with
  | nil => simp [Json.elementsInRange]
  | cons x xs ih => rw [Json.elementsInRange, Bool.and_eq_true, List.forall_mem_cons, ih]

theorem floatsInRange_obj_iff :
    (Json.obj ms).floatsInRange = true ↔ ∀ m ∈ ms, m.2.floatsInRange = true := by
  rw [Json.floatsInRange]
  induction ms with
  | nil => simp [Json.membersInRange]
  | cons m ms ih => rw [Json.membersInRange, Bool.and_eq_true, List.forall_mem_cons, ih]

/-! The text and the meaning -/

theorem sameKind_of_whole (h : whole j = whole j') : SameKind j j' := by
  obtain _ | (_ | _) | n | s | xs | ms := j <;>
    obtain _ | (_ | _) | n' | s' | xs' | ms' := j' <;>
      first
        | constructor
        | cases h

variable {α β γ : Type} {f : α → β} {g : α → γ}

theorem map_eq_map_congr {xs ys : List α} (h : ∀ x ∈ xs, ∀ y ∈ ys, (f x = f y ↔ g x = g y)) :
    xs.map f = ys.map f ↔ xs.map g = ys.map g := by
  induction xs generalizing ys with
  | nil => cases ys <;> simp
  | cons x xs ih =>
    cases ys with
    | nil => simp
    | cons y ys => grind

private theorem optionMap_eq_congr {o o' : Option α}
    (h : ∀ x, o = some x → ∀ y, o' = some y → (f x = f y ↔ g x = g y)) :
    o.map f = o'.map f ↔ o.map g = o'.map g := by
  cases o with
  | none => cases o' <;> simp
  | some x =>
    cases o' with
    | none => simp
    | some y => simp only [Option.map_some, Option.some.injEq, h x rfl y rfl]

theorem whole_obj_eq_iff : whole (.obj ms) = whole (.obj ms') ↔
      ∀ key, (lastMember ms key).map whole = (lastMember ms' key).map whole := by
  simp only [whole, Value.obj.injEq, funext_iff, wholeMembers_eq, lastMember_map]

private theorem iff_of_sameKind
    (h : SameKind j j' → (marshalValue j = marshalValue j' ↔ whole j = whole j')) :
    marshalValue j = marshalValue j' ↔ whole j = whole j' := by
  constructor
  · intro htext
    exact (h (sameKind_of_text (congrArg (· ++ []) htext))).mp htext
  · intro hwhole
    exact (h (sameKind_of_whole hwhole)).mpr hwhole

theorem marshalValue_eq_iff (hj : j.floatsInRange = true) (hj' : j'.floatsInRange = true) :
    marshalValue j = marshalValue j' ↔ whole j = whole j' := by
  induction j using Json.induct generalizing j' with
  | null | bool b =>
    refine iff_of_sameKind fun hkind => ?_
    cases hkind
    exact ⟨fun _ => rfl, fun _ => rfl⟩
  | num n =>
    refine iff_of_sameKind fun hkind => ?_
    cases hkind with
    | num _ n' =>
      rw [whole, whole, Value.num.injEq, marshalValue, marshalValue]
      constructor
      · exact formatFloat_injective (JsonNumber.isBinary64_toFloat64 hj)
          (JsonNumber.isBinary64_toFloat64 hj')
      · rintro ⟨hsign, hmagnitude⟩
        rw [hsign, hmagnitude]
  | str s =>
    refine iff_of_sameKind fun hkind => ?_
    cases hkind with
    | str _ s' =>
      rw [whole, whole, Value.str.injEq, marshalValue, marshalValue]
      constructor
      · intro h
        exact (quoteText_append_inj (congrArg (· ++ []) h)).1
      · rintro rfl
        rfl
  | arr xs ih =>
    refine iff_of_sameKind fun hkind => ?_
    cases hkind with
    | arr _ ys =>
      rw [floatsInRange_arr_iff] at hj hj'
      rw [whole, whole, Value.arr.injEq, wholeElements_eq, wholeElements_eq,
        ← map_eq_map_congr fun x hx y hy => ih x hx (hj x hx) (hj' y hy)]
      constructor
      · intro h
        exact (arrText_append_inj (fun x _ => delimits x) (congrArg (· ++ []) h)).1
      · intro h
        rw [marshalValue, marshalValue, marshalElements_eq, marshalElements_eq, h]
  | obj ms ih =>
    refine iff_of_sameKind fun hkind => ?_
    cases hkind with
    | obj _ ms' =>
      rw [floatsInRange_obj_iff] at hj hj'
      have hkeys : sortMembers (marshalMembers ms) = sortMembers (marshalMembers ms') ↔
          whole (.obj ms) = whole (.obj ms') := by
        rw [sortMembers_eq_iff, whole_obj_eq_iff]
        refine forall_congr' fun key => ?_
        rw [marshalMembers_eq, marshalMembers_eq, lastMember_map, lastMember_map]
        refine optionMap_eq_congr fun x hx y hy => ?_
        exact ih (key, x) (mem_of_lastMember hx) (hj _ (mem_of_lastMember hx))
          (hj' _ (mem_of_lastMember hy))
      rw [← hkeys]
      constructor
      · intro h
        exact (objText_append_inj (fun m _ => delimits m.2) (congrArg (· ++ []) h)).1
      · intro h
        rw [marshalValue, marshalValue, h]

/-! The removal of empty fields -/

theorem mem_keptMembers_iff {ms : List (String × Option Json)} {key : String} :
    (key, j) ∈ keptMembers ms ↔ lastMember ms key = some (some j) := by
  rw [keptMembers, List.mem_filterMap, ← mem_sortMembers_iff]
  constructor
  · simp_all
  · intro hmem
    exact ⟨(key, some j), hmem, rfl⟩

theorem nodup_keptMembers (ms : List (String × Option Json)) :
    ((keptMembers ms).map Prod.fst).Nodup := by
  rw [List.Nodup, List.pairwise_map, keptMembers, List.pairwise_filterMap]
  refine (sortMembers_pairwise ms).imp ?_
  rintro a b hlt m hm m' hm' heq
  obtain ⟨j, -, rfl⟩ := Option.map_eq_some_iff.mp hm
  obtain ⟨j', -, rfl⟩ := Option.map_eq_some_iff.mp hm'
  exact String.lt_irrefl _ (heq ▸ hlt)

theorem lastMember_keptMembers (ms : List (String × Option Json)) (key : String) :
    lastMember (keptMembers ms) key = (lastMember ms key).join := by
  refine Option.ext fun j => ?_
  rw [Option.join_eq_some_iff, ← mem_keptMembers_iff]
  constructor
  · exact mem_of_lastMember
  · exact lastMember_of_mem (nodup_keptMembers ms)

noncomputable def presentFields (ms : List (String × Json)) (key : String) : Option Value :=
  (lastMember ms key).bind present

theorem present_obj (ms : List (String × Json)) :
    present (.obj ms) = record (presentFields ms) := by
  rw [present]
  congr 1
  funext key
  rw [presentMembers_eq, lastMember_map, presentFields]
  cases lastMember ms key <;> rfl

theorem lastMember_removeEmptyFields (ms : List (String × Json)) (key : String) :
    lastMember (removeEmptyFields ms) key = (lastMember ms key).bind cleanField := by
  rw [removeEmptyFields, lastMember_keptMembers, cleanMembers_eq, lastMember_map]
  cases lastMember ms key <;> rfl

theorem cleanField_obj (ms : List (String × Json)) :
    cleanField (.obj ms) =
      if removeEmptyFields ms = [] then none else some (.obj (removeEmptyFields ms)) := by
  rw [cleanField, removeEmptyFields]
  split
  next hnil => rw [if_pos hnil]
  next hsome => rw [if_neg hsome]

theorem removeEmptyFields_eq_nil_iff (ms : List (String × Json)) :
    removeEmptyFields ms = [] ↔ ∀ key, lastMember (removeEmptyFields ms) key = none := by
  constructor
  · intro h key
    rw [h]
    rfl
  · intro h
    rw [List.eq_nil_iff_forall_not_mem]
    rintro ⟨key, j⟩ hmem
    have hlast := lastMember_of_mem (nodup_keptMembers _) hmem
    rw [removeEmptyFields] at h
    rw [h key] at hlast
    cases hlast

theorem cleanElements_cons (x : Json) (xs : List Json) :
    cleanElements (x :: xs) =
      (match x with
        | .arr ys => [Json.arr ys]
        | x => (cleanField x).toList) ++ cleanElements xs := by
  cases x with
  | null => rfl
  | bool b => cases b <;> rfl
  | num n => rfl
  | str s =>
    rw [cleanElements]
    dsimp only
    rw [cleanField]
    split <;> rfl
  | arr ys => rfl
  | obj ms =>
    rw [cleanElements]
    dsimp only
    rw [cleanField]
    split <;> rfl

theorem presentElements_cons (x : Json) (xs : List Json) :
    presentElements (x :: xs) =
      (match x with
        | .arr ys => [whole (.arr ys)]
        | x => (present x).toList) ++ presentElements xs := by
  cases x <;> rfl

private theorem lastMember_clean (h : ∀ m ∈ ms, (cleanField m.2).map whole = present m.2)
    (key : String) : (lastMember (removeEmptyFields ms) key).map whole = presentFields ms key := by
  rw [lastMember_removeEmptyFields, presentFields]
  cases hlast : lastMember ms key with
  | none => rfl
  | some j => exact h (key, j) (mem_of_lastMember hlast)

theorem cleanField_whole (j : Json) : (cleanField j).map whole = present j := by
  induction j using Json.induct with
  | null => rfl
  | bool b => cases b <;> rfl
  | num n => rfl
  | str s =>
    rw [cleanField, present]
    split <;> rfl
  | arr xs ih =>
    have helements : (cleanElements xs).map whole = presentElements xs := by
      induction xs with
      | nil => rfl
      | cons x xs ihxs =>
        rw [cleanElements_cons, presentElements_cons, List.map_append,
          ihxs fun y hy => ih y (List.mem_cons_of_mem x hy)]
        congr 1
        have hx := ih x List.mem_cons_self
        cases x with
        | arr ys => rfl
        | _ =>
          dsimp only
          rw [← hx, ← Option.toList_map]
    rw [cleanField, present, ← helements]
    cases cleanElements xs with
    | nil => rfl
    | cons y ys => rw [Option.map_some, whole, wholeElements_eq]; rfl
  | obj ms ih =>
    have hfields := lastMember_clean ih
    rw [present_obj, cleanField_obj, record]
    have hempty : (∀ key, presentFields ms key = none) ↔ removeEmptyFields ms = [] := by
      rw [removeEmptyFields_eq_nil_iff]
      refine forall_congr' fun key => ?_
      rw [← hfields, Option.map_eq_none_iff]
    by_cases hnil : removeEmptyFields ms = []
    · rw [if_pos hnil, if_pos (hempty.mpr hnil)]
      rfl
    · rw [if_neg hnil, if_neg fun h => hnil (hempty.mp h), Option.map_some, whole]
      congr 2
      funext key
      rw [wholeMembers_eq, lastMember_map, hfields]

theorem whole_removeEmptyFields (ms : List (String × Json)) :
    whole (.obj (removeEmptyFields ms)) = .obj (presentFields ms) := by
  rw [whole]
  congr 1
  funext key
  rw [wholeMembers_eq, lastMember_map, lastMember_clean fun m _ => cleanField_whole m.2]

theorem mem_cleanElements {y : Json} (h : y ∈ cleanElements xs) :
    ∃ x ∈ xs, y = x ∨ cleanField x = some y := by
  induction xs with
  | nil => cases h
  | cons x xs ih => grind [cleanElements_cons]

theorem mem_removeEmptyFields {m : String × Json} (h : m ∈ removeEmptyFields ms) :
    ∃ m' ∈ ms, cleanField m'.2 = some m.2 := by
  have hlast := mem_of_lastMember (mem_keptMembers_iff.mp h)
  rw [cleanMembers_eq] at hlast
  obtain ⟨m', hm', heq⟩ := List.mem_map.mp hlast
  exact ⟨m', hm', (Prod.mk.inj heq).2⟩

theorem floatsInRange_cleanField (hj : j.floatsInRange = true) {c : Json}
    (hc : cleanField j = some c) : c.floatsInRange = true := by
  induction j using Json.induct generalizing c with
  | null => cases hc
  | bool _ | num _ =>
    obtain rfl := Option.some.inj hc
    exact hj
  | str s => grind [cleanField]
  | arr xs ih => grind [cleanField, floatsInRange_arr_iff, Option.some.inj, mem_cleanElements]
  | obj ms ih =>
    grind [floatsInRange_obj_iff, cleanField_obj, Option.some.inj, mem_removeEmptyFields]

theorem marshalCanonical_eq_iff (hms : Json.membersInRange ms = true)
    (hms' : Json.membersInRange ms' = true) :
    marshalCanonical (removeEmptyFields ms) = marshalCanonical (removeEmptyFields ms') ↔
      presentFields ms = presentFields ms' := by
  have hclean : ∀ {ms : List (String × Json)}, Json.membersInRange ms = true →
      (Json.obj (removeEmptyFields ms)).floatsInRange = true := by
    intro ms hms
    have hall := floatsInRange_obj_iff.mp (show (Json.obj ms).floatsInRange = true from hms)
    rw [floatsInRange_obj_iff]
    intro m hm
    obtain ⟨m', hm', hm'c⟩ := mem_removeEmptyFields hm
    exact floatsInRange_cleanField (hall m' hm') hm'c
  rw [marshalCanonical, marshalCanonical, marshalValue_eq_iff (hclean hms) (hclean hms'),
    whole_removeEmptyFields, whole_removeEmptyFields, Value.obj.injEq]

end Kagenti.Operator.Signature
