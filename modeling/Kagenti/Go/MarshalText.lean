import Kagenti.Go.Marshal

/-!
The texts that `json.Marshal` writes can be read off again from the front.
-/

namespace Kagenti.Go

/-! Quoted strings -/

def hexVal (c : Char) : Nat := if c.isDigit then c.toNat - 0x30 else c.toNat - 0x57

theorem hexVal_hexChar : ∀ n < 16, hexVal (hexChar n) = n := by decide

def unescapeAfter : List Char → Option (Char × List Char)
  | 'u' :: a :: b :: c :: d :: rest =>
    some (Char.ofNat (((hexVal a * 16 + hexVal b) * 16 + hexVal c) * 16 + hexVal d), rest)
  | 'n' :: rest => some ('\n', rest)
  | 'r' :: rest => some ('\r', rest)
  | 't' :: rest => some ('\t', rest)
  | 'b' :: rest => some ('\x08', rest)
  | 'f' :: rest => some ('\x0c', rest)
  | c :: rest => some (c, rest)
  | [] => none

def unescapeChar : List Char → Option (Char × List Char)
  | c :: rest => if c = '\\' then unescapeAfter rest else some (c, rest)
  | [] => none

def shortEscapes : List Char := ['"', '\\', '\n', '\r', '\t', '\x08', '\x0c']

variable {c : Char}

theorem escapeChar_of_not_short (h : c ∉ shortEscapes) : escapeChar c =
      if c.toNat < 0x20 ∨ c = '<' ∨ c = '>' ∨ c = '&' then
        ['\\', 'u', '0', '0', hexChar (c.toNat / 16), hexChar (c.toNat % 16)]
      else if c = '\u2028' then ['\\', 'u', '2', '0', '2', '8']
      else if c = '\u2029' then ['\\', 'u', '2', '0', '2', '9']
      else [c] := by
  simp only [shortEscapes, List.mem_cons, not_or] at h
  obtain ⟨hquote, hslash, hn, hr, ht, hb, hf, -⟩ := h
  rw [escapeChar, if_neg hquote, if_neg hslash, if_neg hn, if_neg hr, if_neg ht, if_neg hb,
    if_neg hf]

theorem unescapeChar_code (h : c.toNat < 128) (rest : List Char) :
    unescapeChar ('\\' :: 'u' :: '0' :: '0' :: hexChar (c.toNat / 16) ::
      hexChar (c.toNat % 16) :: rest) = some (c, rest) := by
  have hhigh := hexVal_hexChar (c.toNat / 16) (by omega)
  have hlow := hexVal_hexChar (c.toNat % 16) (by omega)
  have hzero : hexVal '0' = 0 := by decide
  have hsum : ((0 * 16 + 0) * 16 + c.toNat / 16) * 16 + c.toNat % 16 = c.toNat := by omega
  rw [unescapeChar, if_pos rfl, unescapeAfter, hhigh, hlow, hzero, hsum, Char.ofNat_toNat]

theorem unescapeChar_escapeChar (c : Char) (rest : List Char) :
    unescapeChar (escapeChar c ++ rest) = some (c, rest) := by
  by_cases hshort : c ∈ shortEscapes
  · simp only [shortEscapes, List.mem_cons, List.not_mem_nil, or_false] at hshort
    rcases hshort with rfl | rfl | rfl | rfl | rfl | rfl | rfl <;> rfl
  · rw [escapeChar_of_not_short hshort]
    by_cases hcode : c.toNat < 0x20 ∨ c = '<' ∨ c = '>' ∨ c = '&'
    · rw [if_pos hcode]
      refine unescapeChar_code ?_ rest
      rcases hcode with hcontrol | rfl | rfl | rfl
      · exact hcontrol.trans (by decide)
      all_goals decide
    · rw [if_neg hcode]
      by_cases hline : c = '\u2028'
      · subst hline
        rfl
      by_cases hparagraph : c = '\u2029'
      · subst hparagraph
        rfl
      have hplain : c ≠ '\\' := by
        rintro rfl
        exact hshort (by decide)
      rw [if_neg hline, if_neg hparagraph, List.singleton_append, unescapeChar, if_neg hplain]

variable {r r' : List Char}

theorem escapeChar_append_inj {d : Char} (h : escapeChar c ++ r = escapeChar d ++ r') :
    c = d ∧ r = r' := by
  have hread := congrArg unescapeChar h
  rw [unescapeChar_escapeChar, unescapeChar_escapeChar] at hread
  exact Prod.mk.inj (Option.some.inj hread)

theorem escapeChar_append_ne_quote (c : Char) (r r' : List Char) :
    escapeChar c ++ r ≠ '"' :: r' := by
  intro h
  have hread := unescapeChar_escapeChar c r
  rw [h, unescapeChar, if_neg (by decide)] at hread
  obtain rfl := (Prod.mk.inj (Option.some.inj hread)).1
  cases h

variable {cs ds : List Char}

private theorem quoteChars_append_inj
    (h : cs.flatMap escapeChar ++ '"' :: r = ds.flatMap escapeChar ++ '"' :: r') :
    cs = ds ∧ r = r' := by
  induction cs generalizing ds with
  | nil =>
    cases ds with
    | nil => exact ⟨rfl, (List.cons.inj h).2⟩
    | cons d ds =>
      rw [List.flatMap_cons, List.append_assoc] at h
      exact absurd h.symm (escapeChar_append_ne_quote d _ _)
  | cons c cs ih =>
    cases ds with
    | nil =>
      rw [List.flatMap_cons, List.append_assoc] at h
      exact absurd h (escapeChar_append_ne_quote c _ _)
    | cons d ds => grind [List.append_assoc, escapeChar_append_inj]

theorem quoteText_append_inj {s t : String} (h : quoteText s ++ r = quoteText t ++ r') :
    s = t ∧ r = r' := by
  simp only [quoteText, List.append_assoc, List.cons_append, List.nil_append,
    List.cons.injEq, true_and] at h
  obtain ⟨hchars, hrest⟩ := quoteChars_append_inj h
  exact ⟨String.toList_injective hchars, hrest⟩

theorem utf8_injective (h : cs.flatMap String.utf8EncodeChar = ds.flatMap String.utf8EncodeChar) :
    cs = ds := by
  have hbytes : bytes (String.ofList cs) = bytes (String.ofList ds) := by
    rw [bytes, bytes, String.toList_ofList, String.toList_ofList, h]
  exact String.ofList_injective (bytes_inj hbytes)

/-! Lists of texts -/

def Follows : List Char → Prop
  | [] => True
  | c :: _ => c = ',' ∨ c = ']' ∨ c = '\x7d'

def commaList (parts : List (List Char)) : List Char := (parts.intersperse [',']).flatten

theorem commaList_cons (part : List Char) (parts : List (List Char)) :
    commaList (part :: parts) = part ++ parts.flatMap fun p => ',' :: p := by
  induction parts generalizing part with
  | nil => simp [commaList]
  | cons p parts ih =>
    have hsplit : commaList (part :: p :: parts) = part ++ ',' :: commaList (p :: parts) := by
      simp [commaList]
    rw [hsplit, ih p, List.flatMap_cons, List.cons_append]

section Lists

variable {α : Type*} {enc : α → List Char} {S : Set α} {close : Char}

def ReadsBack (enc : α → List Char) (S : Set α) (a : α) : Prop :=
  ∀ b ∈ S, ∀ r r', Follows r → Follows r' → enc a ++ r = enc b ++ r' → a = b ∧ r = r'

variable {r : List Char}

theorem follows_flatMap (xs : List α) (hr : Follows (close :: r)) :
    Follows ((xs.flatMap fun x => ',' :: enc x) ++ close :: r) := by
  cases xs with
  | nil => exact hr
  | cons x xs => exact .inl rfl

variable {xs ys : List α}

private theorem commaTail_append_inj (hclose : close ≠ ',') (hr : ∀ r, Follows (close :: r))
    (henc : ∀ a ∈ xs, ReadsBack enc S a) (hys : ∀ b ∈ ys, b ∈ S)
    (h : (xs.flatMap fun x => ',' :: enc x) ++ close :: r =
      (ys.flatMap fun x => ',' :: enc x) ++ close :: r') : xs = ys ∧ r = r' := by
  induction xs generalizing ys with
  | nil =>
    cases ys with
    | nil => exact ⟨rfl, (List.cons.inj h).2⟩
    | cons y ys => exact absurd (List.cons.inj h).1 hclose
  | cons x xs ih =>
    cases ys with
    | nil => exact absurd (List.cons.inj h).1.symm hclose
    | cons y ys =>
      simp only [List.flatMap_cons, List.cons_append, List.append_assoc, List.cons.injEq,
        true_and] at h
      obtain ⟨rfl, htail⟩ := henc x List.mem_cons_self y (hys y List.mem_cons_self) _ _
        (follows_flatMap xs (hr r)) (follows_flatMap ys (hr r')) h
      obtain ⟨rfl, hrest⟩ := ih (fun a ha => henc a (List.mem_cons_of_mem _ ha))
        (fun b hb => hys b (List.mem_cons_of_mem _ hb)) htail
      exact ⟨rfl, hrest⟩

theorem commaList_append_inj (hclose : close ≠ ',') (hr : ∀ r, Follows (close :: r))
    (hstart : ∀ a ∈ S, ∀ r, ¬ Follows (enc a ++ r)) (henc : ∀ a ∈ xs, ReadsBack enc S a)
    (hxs : ∀ a ∈ xs, a ∈ S) (hys : ∀ b ∈ ys, b ∈ S)
    (h : commaList (xs.map enc) ++ close :: r = commaList (ys.map enc) ++ close :: r') :
    xs = ys ∧ r = r' := by
  cases xs with
  | nil =>
    cases ys with
    | nil => exact ⟨rfl, (List.cons.inj h).2⟩
    | cons y ys =>
      rw [List.map_cons, commaList_cons, List.append_assoc] at h
      have hnil : close :: r = enc y ++ _ := h
      exact absurd (hnil ▸ hr r) (hstart y (hys y List.mem_cons_self) _)
  | cons x xs =>
    cases ys with
    | nil =>
      rw [List.map_cons, commaList_cons, List.append_assoc] at h
      have hnil : close :: r' = enc x ++ _ := h.symm
      exact absurd (hnil ▸ hr r') (hstart x (hxs x List.mem_cons_self) _)
    | cons y ys =>
      -- with a comma in front, both are lists of continuations
      refine commaTail_append_inj hclose hr henc hys ?_
      simpa [commaList_cons, List.flatMap_map] using h

end Lists

/-! Members -/

def memberText {β : Type*} (enc : β → List Char) (m : String × β) : List Char :=
  quoteText m.1 ++ ':' :: enc m.2

theorem not_follows_quoteText (s : String) (r : List Char) : ¬ Follows (quoteText s ++ r) := by
  simp [quoteText, Follows]

variable {β : Type*} {S : Set β} {enc : β → List Char}

theorem memberText_readsBack {m : String × β} (henc : ReadsBack enc S m.2) :
    ReadsBack (memberText enc) {m | m.2 ∈ S} m := by
  intro m' hm' r r' hr hr' h
  simp only [memberText, List.append_assoc, List.cons_append] at h
  obtain ⟨hkey, htail⟩ := quoteText_append_inj h
  obtain ⟨hvalue, hrest⟩ := henc m'.2 hm' r r' hr hr' (List.cons.inj htail).2
  exact ⟨Prod.ext hkey hvalue, hrest⟩

theorem quoteText_readsBack (s : String) : ReadsBack quoteText Set.univ s :=
  fun _ _ _ _ _ _ h => quoteText_append_inj h

/-- The text of an object with the members in the given order. -/
def objectText {β : Type*} (enc : β → List Char) (ms : List (String × β)) : List Char :=
  '\x7b' :: (commaList (ms.map (memberText enc)) ++ ['\x7d'])

theorem objectText_append_inj {ms ms' : List (String × β)} (henc : ∀ m ∈ ms, ReadsBack enc S m.2)
    (hms : ∀ m ∈ ms, m.2 ∈ S) (hms' : ∀ m ∈ ms', m.2 ∈ S)
    (h : objectText enc ms ++ r = objectText enc ms' ++ r') : ms = ms' ∧ r = r' := by
  simp only [objectText, List.cons_append, List.append_assoc, List.nil_append, List.cons.injEq,
    true_and] at h
  refine commaList_append_inj (by decide) (fun r => .inr (.inr rfl)) (fun m _ r => ?_)
    (fun m hm => memberText_readsBack (henc m hm)) hms hms' h
  rw [memberText, List.append_assoc]
  exact not_follows_quoteText _ _

/-! The members a map keeps -/

section Members

variable {β : Type*}

def lastMember (ms : List (String × β)) (key : String) : Option β :=
  (ms.reverse.find? fun m => m.1 = key).map Prod.snd

variable {value : β} {key : String} {ms : List (String × β)}

theorem mem_of_lastMember (h : lastMember ms key = some value) : (key, value) ∈ ms := by
  rw [lastMember, Option.map_eq_some_iff] at h
  obtain ⟨⟨key', _⟩, hfind, rfl⟩ := h
  have hkey : key' = key := by simpa using List.find?_some hfind
  subst hkey
  exact List.mem_reverse.mp (List.mem_of_find?_eq_some hfind)

theorem lastMember_of_mem (hkeys : (ms.map Prod.fst).Nodup) (h : (key, value) ∈ ms) :
    lastMember ms key = some value := by
  cases hlast : lastMember ms key with
  | none =>
    rw [lastMember, Option.map_eq_none_iff, List.find?_eq_none] at hlast
    exact absurd (decide_eq_true rfl) (hlast _ (List.mem_reverse.mpr h))
  | some value' =>
    have hsame := List.inj_on_of_nodup_map hkeys (mem_of_lastMember hlast) h rfl
    rw [(Prod.mk.inj hsame).2]

theorem lastMember_cons (m : String × β) (ms : List (String × β)) (key : String) :
    lastMember (m :: ms) key = (lastMember ms key).or (if m.1 = key then some m.2 else none) := by
  rw [lastMember, lastMember, List.reverse_cons, List.find?_append, Option.map_or]
  by_cases hkey : m.1 = key <;> simp [hkey]

theorem lastMember_map {γ : Type*} (f : β → γ) (ms : List (String × β)) (key : String) :
    lastMember (ms.map fun m => (m.1, f m.2)) key = (lastMember ms key).map f := by
  rw [lastMember, lastMember, ← List.map_reverse, List.find?_map, Option.map_map, Option.map_map]
  rfl

/-- The fold of `sortMembers`: members whose key was not met yet are put in front. -/
private def keepNew (kept : List (String × β)) (m : String × β) : List (String × β) :=
  if kept.any fun k => k.1 = m.1 then kept else m :: kept

private theorem nodup_foldl_keepNew (ms kept : List (String × β))
    (h : (kept.map Prod.fst).Nodup) : ((ms.foldl keepNew kept).map Prod.fst).Nodup := by
  induction ms generalizing kept with
  | nil => exact h
  | cons m ms ih =>
    refine ih _ ?_
    unfold keepNew
    split
    · exact h
    next hnew => grind

private theorem mem_foldl_keepNew (ms kept : List (String × β)) (e : String × β) :
    e ∈ ms.foldl keepNew kept ↔
      e ∈ kept ∨ (∀ k ∈ kept, k.1 ≠ e.1) ∧ ms.find? (fun m => m.1 = e.1) = some e := by
  induction ms generalizing kept with
  | nil => simp
  | cons m ms ih =>
    rw [List.foldl_cons, ih, List.find?_cons, keepNew]
    by_cases hkey : m.1 = e.1
    · grind
    · have hne : e ≠ m := fun h => hkey (by rw [h])
      split <;> simp [hkey, hne]

private theorem sortMembers_eq (ms : List (String × β)) :
    sortMembers ms = (ms.reverse.foldl keepNew []).insertionSort fun a b => a.1 ≤ b.1 := rfl

theorem mem_sortMembers_iff : (key, value) ∈ sortMembers ms ↔ lastMember ms key = some value := by
  rw [sortMembers_eq, List.mem_insertionSort, mem_foldl_keepNew, lastMember, Option.map_eq_some_iff]
  constructor
  · grind
  · grind

theorem sortMembers_pairwise (ms : List (String × β)) :
    (sortMembers ms).Pairwise fun a b => a.1 < b.1 := by
  have htotal : Std.Total fun a b : String × β => a.1 ≤ b.1 :=
    ⟨fun a b => String.le_total a.1 b.1⟩
  have htrans : IsTrans (String × β) fun a b => a.1 ≤ b.1 := ⟨fun _ _ _ => String.le_trans⟩
  have hsorted := List.pairwise_insertionSort (fun a b : String × β => a.1 ≤ b.1)
    (ms.reverse.foldl keepNew [])
  have hkeys : ((sortMembers ms).map Prod.fst).Nodup :=
    ((List.perm_insertionSort _ _).map Prod.fst).nodup_iff.mpr
      (nodup_foldl_keepNew ms.reverse [] List.nodup_nil)
  rw [List.Nodup, List.pairwise_map] at hkeys
  refine (hsorted.and hkeys).imp fun h => ?_
  exact String.not_le.mp fun hge => h.2 (String.le_antisymm h.1 hge)

theorem sortMembers_eq_iff {ms' : List (String × β)} :
    sortMembers ms = sortMembers ms' ↔ ∀ key, lastMember ms key = lastMember ms' key := by
  constructor
  · intro h key
    refine Option.ext fun value => ?_
    rw [← mem_sortMembers_iff, h, mem_sortMembers_iff]
  · intro h
    have hanti : Std.Antisymm fun a b : String × β => a.1 < b.1 :=
      ⟨fun _ _ hab hba => absurd hba (String.lt_asymm hab)⟩
    have hnodup : ∀ ms : List (String × β), (sortMembers ms).Nodup := by
      intro ms
      refine (sortMembers_pairwise ms).imp ?_
      rintro a b hab rfl
      exact String.lt_irrefl _ hab
    refine List.Perm.eq_of_pairwise' (sortMembers_pairwise ms) (sortMembers_pairwise ms') ?_
    rw [List.perm_ext_iff_of_nodup (hnodup ms) (hnodup ms')]
    rintro ⟨key, value⟩
    rw [mem_sortMembers_iff, mem_sortMembers_iff, h key]

end Members

end Kagenti.Go
