import Kagenti.Operator.Signature.Meaning

/-!
What a signature over `CreateCanonicalCardJSON` binds: the signed content of a card, field by field.
-/

namespace Kagenti.Operator.Signature

open Go

/-! Records -/

theorem record_injective {fields fields' : String → Option Value}
    (h : record fields = record fields') : fields = fields' := by
  unfold record at h
  split at h
  next hnone => grind
  · split at h
    · cases h
    · exact Value.obj.inj (Option.some.inj h)

variable {ms : List (String × Json)}

theorem present_obj_eq_iff {ms' : List (String × Json)} :
    present (.obj ms) = present (.obj ms') ↔ presentFields ms = presentFields ms' := by
  rw [present_obj, present_obj]
  exact ⟨record_injective, fun h => by rw [h]⟩

def layout (fs : List (String × Option Json)) : List (String × Json) :=
  fs.filterMap fun f => f.2.map fun j => (f.1, j)

theorem layout_append (fs gs : List (String × Option Json)) :
    layout (fs ++ gs) = layout fs ++ layout gs := List.filterMap_append

variable {j : Json} {name : String} {fs : List (String × Option Json)}

theorem mem_layout_iff : (name, j) ∈ layout fs ↔ (name, some j) ∈ fs := by
  rw [layout, List.mem_filterMap]
  constructor
  · simp_all
  · intro hmem
    exact ⟨(name, some j), hmem, rfl⟩

theorem lastMember_layout_of_not_mem (h : name ∉ fs.map Prod.fst) :
    lastMember (layout fs) name = none := by
  cases hlast : lastMember (layout fs) name with
  | none => rfl
  | some j =>
    have hmem := mem_layout_iff.mp (mem_of_lastMember hlast)
    exact absurd (List.mem_map_of_mem hmem) h

theorem presentFields_layout_of_not_mem (h : name ∉ fs.map Prod.fst) :
    presentFields (layout fs) name = none := by
  rw [presentFields, lastMember_layout_of_not_mem h]
  rfl

theorem presentFields_layout_cons (h : name ∉ fs.map Prod.fst) (o : Option Json) :
    presentFields (layout ((name, o) :: fs)) =
      Function.update (presentFields (layout fs)) name (o.bind present) := by
  cases o with
  | none =>
    refine (Function.update_eq_self_iff.mpr ?_).symm
    exact (presentFields_layout_of_not_mem h).symm
  | some j =>
    funext key
    have hlast : lastMember (layout ((name, some j) :: fs)) key =
        (lastMember (layout fs) key).or (if name = key then some j else none) := lastMember_cons _ _ _
    rw [presentFields, hlast, Function.update_apply]
    by_cases hkey : key = name
    · subst hkey
      rw [lastMember_layout_of_not_mem h, if_pos rfl, if_pos rfl]
      rfl
    · rw [if_neg (Ne.symm hkey), if_neg hkey, Option.or_none, presentFields]

variable {gs : List (String × Option Json)}

theorem presentFields_layout_eq_iff (hnames : fs.map Prod.fst = gs.map Prod.fst)
    (hnodup : (fs.map Prod.fst).Nodup) : presentFields (layout fs) = presentFields (layout gs) ↔
      List.Forall₂ (fun f g => f.2.bind present = g.2.bind present) fs gs := by
  induction fs generalizing gs with
  | nil =>
    cases gs with
    | nil => simp
    | cons g gs => cases hnames
  | cons f fs ih =>
    cases gs with
    | nil => cases hnames
    | cons g gs =>
      obtain ⟨name, o⟩ := f
      obtain ⟨name', o'⟩ := g
      simp only [List.map_cons, List.cons.injEq] at hnames
      obtain ⟨rfl, htail⟩ := hnames
      rw [List.map_cons, List.nodup_cons] at hnodup
      have hnew' : name ∉ gs.map Prod.fst := htail ▸ hnodup.1
      rw [List.forall₂_cons, ← ih htail hnodup.2, presentFields_layout_cons hnodup.1,
        presentFields_layout_cons hnew', Function.update_eq_iff, Function.update_self]
      refine and_congr_right fun _ => ⟨fun h => funext fun key => ?_, fun h key hkey => ?_⟩
      · grind [presentFields_layout_of_not_mem]
      · rw [Function.update_of_ne hkey, h]

/-! Fields -/

theorem stringField_eq (name s : String) :
    stringField name s = layout [(name, if s = "" then none else some (.str s))] := by
  unfold stringField
  split <;> rfl

theorem boolField_eq (name : String) (b : Option Bool) :
    boolField name b = layout [(name, b.map Json.bool)] := by
  cases b <;> rfl

theorem sliceField_eq (name : String) (xs : List Json) :
    sliceField name xs = layout [(name, if xs.isEmpty then none else some (.arr xs))] := by
  unfold sliceField
  split <;> rfl

theorem pointerField_eq (name : String) (o : Option Json) :
    pointerField name o = layout [(name, o)] := by
  cases o <;> rfl

theorem string_present (s : String) :
    (if s = "" then none else some (Json.str s)).bind present = present (.str s) := by
  by_cases hs : s = ""
  · rw [if_pos hs, present, if_pos hs]
    rfl
  · rw [if_neg hs]
    rfl

theorem string_present_inj {s t : String} : present (.str s) = present (.str t) ↔ s = t := by
  constructor
  · intro h
    rw [present, present] at h
    split at h <;> split at h <;> simp_all
  · rintro rfl
    rfl

theorem bool_present_inj {b b' : Option Bool} :
    (b.map Json.bool).bind present = (b'.map Json.bool).bind present ↔ b = b' := by
  cases b <;> cases b' <;> simp [present]

theorem slice_present (xs : List Json) :
    (if xs.isEmpty then none else some (Json.arr xs)).bind present = present (.arr xs) := by
  cases xs <;> rfl

theorem slice_present_inj {xs ys : List Json} :
    present (.arr xs) = present (.arr ys) ↔ presentElements xs = presentElements ys := by
  rw [present, present]
  constructor
  · intro h
    cases hxs : presentElements xs <;> cases hys : presentElements ys <;>
      simp_all [sequence]
  · intro h
    rw [h]

variable {α : Type} {toJson : α → Json}

theorem presentElements_map (hobj : ∀ x, ∃ ms, toJson x = .obj ms) (xs : List α) :
    presentElements (xs.map toJson) = xs.filterMap fun x => present (toJson x) := by
  induction xs with
  | nil => rfl
  | cons x xs ih =>
    obtain ⟨ms, hms⟩ := hobj x
    rw [List.map_cons, presentElements_cons, ih, List.filterMap_cons, hms]
    dsimp only
    cases present (.obj ms) <;> rfl

def nonEmpty (ss : List String) : List String := ss.filter (· ≠ "")

theorem presentElements_strings (ss : List String) :
    presentElements (ss.map Json.str) = (nonEmpty ss).map Value.str := by
  induction ss with
  | nil => rfl
  | cons s ss ih =>
    rw [List.map_cons, presentElements_cons, ih, nonEmpty, nonEmpty, List.filter_cons]
    by_cases hs : s = "" <;> simp [present, hs]

theorem strings_present_inj {ss ts : List String} :
    present (.arr (ss.map Json.str)) = present (.arr (ts.map Json.str)) ↔
      nonEmpty ss = nonEmpty ts := by
  rw [slice_present_inj, presentElements_strings, presentElements_strings]
  exact (List.map_injective_iff.mpr fun _ _ h => Value.str.inj h).eq_iff

variable {β : Type} {f : α → Option β} {γ : Type}

theorem filterMap_eq_iff [DecidableEq γ] {g : α → γ} {empty : γ}
    (hsame : ∀ x y, f x = f y ↔ g x = g y) (hempty : ∀ x, f x = none ↔ g x = empty)
    (xs ys : List α) : xs.filterMap f = ys.filterMap f ↔
      (xs.map g).filter (· ≠ empty) = (ys.map g).filter (· ≠ empty) := by
  have hkept : (Option.isSome ∘ f) = ((fun c => decide (c ≠ empty)) ∘ g) := by
    funext x
    rw [Function.comp_apply, Function.comp_apply, Bool.eq_iff_iff, decide_eq_true_iff, ne_eq,
      ← hempty, Option.isSome_iff_ne_none]
  rw [← (List.map_injective_iff.mpr (Option.some_injective β)).eq_iff,
    List.map_filterMap_some_eq_filter_map_isSome, List.map_filterMap_some_eq_filter_map_isSome,
    List.filter_map, List.filter_map, List.filter_map, List.filter_map, hkept]
  exact map_eq_map_congr fun x _ y _ => hsame x y

/-! Structs -/

def AgentProvider.empty : AgentProvider := ⟨"", ""⟩

theorem struct_present_inj (hnames : fs.map Prod.fst = gs.map Prod.fst)
    (hnodup : (fs.map Prod.fst).Nodup) : present (.obj (layout fs)) = present (.obj (layout gs)) ↔
      List.Forall₂ (fun f g => f.2.bind present = g.2.bind present) fs gs := by
  rw [present_obj_eq_iff, presentFields_layout_eq_iff hnames hnodup]

theorem AgentProvider.present_inj {p q : AgentProvider} :
    present p.toJson = present q.toJson ↔ p = q := by
  simp only [AgentProvider.toJson, stringField_eq, ← layout_append, List.cons_append, List.nil_append]
  rw [struct_present_inj]
  · simp only [List.forall₂_cons, List.forall₂_nil_left_iff, string_present, string_present_inj,
      and_true, AgentProvider.ext_iff]
  · rfl
  · simp

def SkillParameter.empty : SkillParameter := ⟨"", "", "", none, ""⟩

theorem SkillParameter.present_inj {p q : SkillParameter} :
    present p.toJson = present q.toJson ↔ p = q := by
  simp only [SkillParameter.toJson, stringField_eq, boolField_eq, ← layout_append,
    List.cons_append, List.nil_append]
  rw [struct_present_inj]
  · simp only [List.forall₂_cons, List.forall₂_nil_left_iff, string_present, string_present_inj,
      bool_present_inj, and_true, SkillParameter.ext_iff]
  · rfl
  · simp

theorem structs_present_inj [DecidableEq γ] {signed : α → γ} {empty : γ}
    (hobj : ∀ x, ∃ ms, toJson x = .obj ms)
    (hinj : ∀ x y, present (toJson x) = present (toJson y) ↔ signed x = signed y)
    (hempty : ∃ x, present (toJson x) = none ∧ signed x = empty) (xs ys : List α) :
    present (.arr (xs.map toJson)) = present (.arr (ys.map toJson)) ↔
      (xs.map signed).filter (· ≠ empty) = (ys.map signed).filter (· ≠ empty) := by
  obtain ⟨x₀, hnone, rfl⟩ := hempty
  rw [slice_present_inj, presentElements_map hobj, presentElements_map hobj]
  refine filterMap_eq_iff hinj (fun x => ?_) xs ys
  rw [← hnone, hinj]

theorem present_obj_nil : present (.obj []) = none := by
  rw [present_obj, record, if_pos]
  exact fun _ => rfl

theorem pointer_present {empty : α} (hempty : present (toJson empty) = none) (p : Option α) :
    (p.map toJson).bind present = present (toJson (p.getD empty)) := by
  cases p with
  | none => exact hempty.symm
  | some x => rfl

def signedParameters (ps : List SkillParameter) : List SkillParameter :=
  ps.filter (· ≠ SkillParameter.empty)

theorem parameters_present_inj {ps qs : List SkillParameter} :
    present (.arr (ps.map SkillParameter.toJson)) = present (.arr (qs.map SkillParameter.toJson)) ↔
      signedParameters ps = signedParameters qs := by
  have hempty : ∃ p, present (SkillParameter.toJson p) = none ∧ id p = SkillParameter.empty :=
    ⟨SkillParameter.empty, present_obj_nil, rfl⟩
  have hstructs := structs_present_inj (fun p => ⟨_, rfl⟩)
    (fun _ _ => SkillParameter.present_inj) hempty ps qs
  rwa [List.map_id', List.map_id'] at hstructs

def AgentSkill.signed (s : AgentSkill) : AgentSkill :=
  { s with
    tags := nonEmpty s.tags
    examples := nonEmpty s.examples
    inputModes := nonEmpty s.inputModes
    outputModes := nonEmpty s.outputModes
    parameters := signedParameters s.parameters }

def AgentSkill.empty : AgentSkill := ⟨"", "", "", [], [], [], [], []⟩

theorem AgentSkill.present_inj {s t : AgentSkill} :
    present s.toJson = present t.toJson ↔ s.signed = t.signed := by
  simp only [AgentSkill.toJson, stringField_eq, stringsField, sliceField_eq, ← layout_append,
    List.cons_append, List.nil_append]
  rw [struct_present_inj]
  · simp only [List.forall₂_cons, List.forall₂_nil_left_iff, string_present, string_present_inj,
      slice_present, strings_present_inj, parameters_present_inj, and_true, AgentSkill.ext_iff,
      AgentSkill.signed]
  · rfl
  · simp

def signedSkills (skills : List AgentSkill) : List AgentSkill :=
  (skills.map AgentSkill.signed).filter (· ≠ AgentSkill.empty)

theorem skills_present_inj {ss ts : List AgentSkill} :
    present (.arr (ss.map AgentSkill.toJson)) = present (.arr (ts.map AgentSkill.toJson)) ↔
      signedSkills ss = signedSkills ts := by
  have hempty : ∃ s, present (AgentSkill.toJson s) = none ∧ s.signed = AgentSkill.empty :=
    ⟨AgentSkill.empty, present_obj_nil, rfl⟩
  exact structs_present_inj (fun s => ⟨_, rfl⟩) (fun _ _ => AgentSkill.present_inj)
    hempty ss ts

/-! Extensions, whose parameters are arbitrary JSON values -/

@[ext]
structure SignedExtension where
  uri : String
  description : String
  required : Option Bool
  params : String → Option Value

noncomputable instance : DecidableEq SignedExtension := Classical.decEq _

def SignedExtension.empty : SignedExtension := ⟨"", "", none, fun _ => none⟩

noncomputable def AgentExtension.signed (e : AgentExtension) : SignedExtension where
  uri := e.uri
  description := e.description
  required := e.required
  params key := ((e.params.lookup key).bind rawToJson).bind present

def AgentExtension.decoded (e : AgentExtension) : List (String × Json) :=
  e.params.entries.filterMap fun p => (rawToJson p.2).map fun j => (p.1, j)

theorem AgentExtension.lastMember_decoded (e : AgentExtension) (key : String) :
    lastMember e.decoded key = (e.params.lookup key).bind rawToJson := by
  have hmem : ∀ {key j}, (key, j) ∈ e.decoded ↔
      ∃ raw, e.params.lookup key = some raw ∧ rawToJson raw = some j := by
    intro key j
    rw [decoded, List.mem_filterMap]
    constructor
    · rintro ⟨⟨key', raw⟩, hraw, hsome⟩
      obtain ⟨j', hj, heq⟩ := Option.map_eq_some_iff.mp hsome
      obtain ⟨rfl, rfl⟩ := Prod.mk.inj heq
      exact ⟨raw, AList.mem_lookup_iff.mpr hraw, hj⟩
    · rintro ⟨raw, hraw, hj⟩
      exact ⟨⟨key, raw⟩, AList.mem_lookup_iff.mp hraw, by rw [hj]; rfl⟩
  have hkeys : (e.decoded.map Prod.fst).Nodup := by
    rw [List.Nodup, List.pairwise_map, decoded, List.pairwise_filterMap]
    refine (List.pairwise_map.mp e.params.nodupKeys).imp ?_
    rintro a b hne m hm m' hm' heq
    obtain ⟨j, -, rfl⟩ := Option.map_eq_some_iff.mp hm
    obtain ⟨j', -, rfl⟩ := Option.map_eq_some_iff.mp hm'
    exact hne heq
  refine Option.ext fun j => ?_
  rw [Option.bind_eq_some_iff, ← hmem]
  exact ⟨mem_of_lastMember, lastMember_of_mem hkeys⟩

/-- The struct of an extension whose parameters can all be decoded. -/
def AgentExtension.object (e : AgentExtension) : Json := .obj (layout
  [("uri", if e.uri = "" then none else some (.str e.uri)),
    ("description", if e.description = "" then none else some (.str e.description)),
    ("required", e.required.map Json.bool),
    ("params", if e.decoded.isEmpty then none else some (.obj e.decoded))])

variable {xs : List α} {ys : List β}

private theorem filterMap_of_mapM (h : xs.mapM f = some ys) : xs.filterMap f = ys := by
  induction xs generalizing ys with
  | nil =>
    exact Option.some.inj h
  | cons x xs ih => grind [Option.bind_eq_some_iff]

variable {e : AgentExtension}

theorem AgentExtension.toJson_some (h : e.toJson = some j) : j = e.object := by
  simp only [AgentExtension.toJson, Option.bind_eq_bind, Option.bind_eq_some_iff, Option.pure_def,
    Option.some.injEq] at h
  obtain ⟨params, hparams, rfl⟩ := h
  have hdecoded : e.decoded = params := filterMap_of_mapM hparams
  have hmap : (if params.isEmpty then [] else [("params", Json.obj params)]) =
      layout [("params", if params.isEmpty then none else some (.obj params))] := by
    cases params <;> rfl
  rw [object, hdecoded, hmap, stringField_eq, stringField_eq, boolField_eq, ← layout_append,
    ← layout_append, ← layout_append]
  rfl

theorem AgentExtension.present_inj {e' : AgentExtension} :
    present e.object = present e'.object ↔ e.signed = e'.signed := by
  have hparams : ∀ e : AgentExtension,
      (if e.decoded.isEmpty then none else some (Json.obj e.decoded)).bind present =
        present (.obj e.decoded) := by
    intro e
    cases hdecoded : e.decoded with
    | nil => exact present_obj_nil.symm
    | cons p ps => rfl
  have hfields : ∀ e : AgentExtension, presentFields e.decoded = e.signed.params := by
    intro e
    funext key
    rw [presentFields, e.lastMember_decoded]
    rfl
  rw [object, object, struct_present_inj]
  · simp only [List.forall₂_cons, List.forall₂_nil_left_iff, string_present, string_present_inj,
      bool_present_inj, hparams, present_obj_eq_iff, hfields, and_true, SignedExtension.ext_iff]
    rfl
  · rfl
  · simp

noncomputable def signedExtensions (es : List AgentExtension) : List SignedExtension :=
  (es.map AgentExtension.signed).filter (· ≠ SignedExtension.empty)

theorem extensions_present_inj {es es' : List AgentExtension} :
    present (.arr (es.map AgentExtension.object)) = present (.arr (es'.map AgentExtension.object)) ↔
      signedExtensions es = signedExtensions es' := by
  have hempty : ∃ e, present (AgentExtension.object e) = none ∧ e.signed = SignedExtension.empty :=
    ⟨⟨"", "", none, ∅⟩, present_obj_nil, rfl⟩
  exact structs_present_inj (fun e => ⟨_, rfl⟩) (fun _ _ => AgentExtension.present_inj) hempty es es'

/-! The card -/

@[ext]
structure SignedCapabilities where
  streaming : Option Bool
  pushNotifications : Option Bool
  extensions : List SignedExtension

noncomputable def AgentCapabilities.signed (c : AgentCapabilities) : SignedCapabilities where
  streaming := c.streaming
  pushNotifications := c.pushNotifications
  extensions := signedExtensions c.extensions

def AgentCapabilities.empty : AgentCapabilities := ⟨none, none, []⟩

def AgentCapabilities.object (c : AgentCapabilities) : Json := .obj (layout
  [("streaming", c.streaming.map Json.bool),
    ("pushNotifications", c.pushNotifications.map Json.bool),
    ("extensions", if (c.extensions.map AgentExtension.object).isEmpty then none
      else some (.arr (c.extensions.map AgentExtension.object)))])

private theorem map_of_mapM {g : α → β} (hf : ∀ {x y}, f x = some y → y = g x)
    (h : xs.mapM f = some ys) : ys = xs.map g := by
  induction xs generalizing ys with
  | nil =>
    exact (Option.some.inj h).symm
  | cons x xs ih => grind [Option.bind_eq_some_iff]

variable {c : AgentCapabilities}

theorem AgentCapabilities.toJson_some (h : c.toJson = some j) : j = c.object := by
  simp only [AgentCapabilities.toJson, Option.bind_eq_bind, Option.bind_eq_some_iff,
    Option.pure_def, Option.some.injEq] at h
  obtain ⟨extensions, hextensions, rfl⟩ := h
  obtain rfl := map_of_mapM AgentExtension.toJson_some hextensions
  rw [object, boolField_eq, boolField_eq, sliceField_eq, ← layout_append, ← layout_append]
  rfl

theorem AgentCapabilities.present_inj {d : AgentCapabilities} :
    present c.object = present d.object ↔ c.signed = d.signed := by
  rw [object, object, struct_present_inj]
  · simp only [List.forall₂_cons, List.forall₂_nil_left_iff, bool_present_inj, slice_present,
      extensions_present_inj, and_true, SignedCapabilities.ext_iff]
    rfl
  · rfl
  · simp

@[ext]
structure SignedCard where
  name : String
  description : String
  version : String
  url : String
  documentationUrl : String
  iconUrl : String
  provider : AgentProvider
  capabilities : SignedCapabilities
  defaultInputModes : List String
  defaultOutputModes : List String
  skills : List AgentSkill
  supportsAuthenticatedExtendedCard : Option Bool

noncomputable def AgentCardData.signed (card : AgentCardData) : SignedCard where
  name := card.name
  description := card.description
  version := card.version
  url := card.url
  documentationUrl := card.documentationUrl
  iconUrl := card.iconUrl
  provider := card.provider.getD AgentProvider.empty
  capabilities := (card.capabilities.getD AgentCapabilities.empty).signed
  defaultInputModes := nonEmpty card.defaultInputModes
  defaultOutputModes := nonEmpty card.defaultOutputModes
  skills := signedSkills card.skills
  supportsAuthenticatedExtendedCard := card.supportsAuthenticatedExtendedCard

def signedFields (card : AgentCardData) : List (String × Option Json) :=
  [("name", if card.name = "" then none else some (.str card.name)),
    ("description", if card.description = "" then none else some (.str card.description)),
    ("version", if card.version = "" then none else some (.str card.version)),
    ("url", if card.url = "" then none else some (.str card.url)),
    ("documentationUrl", if card.documentationUrl = "" then none
      else some (.str card.documentationUrl)),
    ("iconUrl", if card.iconUrl = "" then none else some (.str card.iconUrl)),
    ("provider", card.provider.map AgentProvider.toJson),
    ("capabilities", card.capabilities.map AgentCapabilities.object),
    ("defaultInputModes", if (card.defaultInputModes.map Json.str).isEmpty then none
      else some (.arr (card.defaultInputModes.map Json.str))),
    ("defaultOutputModes", if (card.defaultOutputModes.map Json.str).isEmpty then none
      else some (.arr (card.defaultOutputModes.map Json.str))),
    ("skills", if (card.skills.map AgentSkill.toJson).isEmpty then none
      else some (.arr (card.skills.map AgentSkill.toJson))),
    ("supportsAuthenticatedExtendedCard", card.supportsAuthenticatedExtendedCard.map Json.bool)]

theorem filter_layout (fs : List (String × Option Json)) (name : String) :
    (layout fs).filter (fun m => m.1 ≠ name) = layout (fs.filter fun f => f.1 ≠ name) := by
  induction fs with
  | nil => rfl
  | cons f fs ih =>
    obtain ⟨name', o⟩ := f
    cases o with
    | none =>
      have hskip : layout ((name', none) :: fs) = layout fs := rfl
      rw [hskip, ih, List.filter_cons]
      split <;> rfl
    | some j =>
      have hcons : layout ((name', some j) :: fs) = (name', j) :: layout fs := rfl
      rw [hcons, List.filter_cons, List.filter_cons, ih]
      split <;> rfl

variable {card : AgentCardData}

theorem members_signed (h : card.members = some ms) :
    ms.filter (fun m => m.1 ≠ "signatures") = layout (signedFields card) := by
  simp only [AgentCardData.members, Option.bind_eq_bind, Option.bind_eq_some_iff, Option.pure_def,
    Option.some.injEq] at h
  obtain ⟨capabilities, hcapabilities, rfl⟩ := h
  have hobject : capabilities = card.capabilities.map AgentCapabilities.object := by
    cases hcard : card.capabilities with
    | none =>
      rw [hcard] at hcapabilities
      exact (Option.some.inj hcapabilities).symm
    | some c =>
      rw [hcard, Option.mapM_some] at hcapabilities
      obtain ⟨j, hj, rfl⟩ := Option.map_eq_some_iff.mp hcapabilities
      rw [AgentCapabilities.toJson_some hj, Option.map_some]
  simp only [stringField_eq, pointerField_eq, stringsField, sliceField_eq, boolField_eq,
    ← layout_append, filter_layout, hobject]
  rfl

theorem signedFields_eq_iff {card' : AgentCardData} :
    presentFields (layout (signedFields card)) = presentFields (layout (signedFields card')) ↔
      card.signed = card'.signed := by
  have hnoProvider : present AgentProvider.empty.toJson = none := present_obj_nil
  have hnoCapabilities : present AgentCapabilities.empty.object = none := present_obj_nil
  rw [presentFields_layout_eq_iff]
  · simp only [signedFields, List.forall₂_cons, List.forall₂_nil_left_iff, string_present,
      string_present_inj, pointer_present hnoProvider, AgentProvider.present_inj,
      pointer_present hnoCapabilities, AgentCapabilities.present_inj, slice_present, strings_present_inj, skills_present_inj,
      bool_present_inj, and_true, SignedCard.ext_iff, AgentCardData.signed]
  · rfl
  · simp [signedFields]

theorem canonical_of_some {payload : Bytes} (h : createCanonicalCardJSON card = some payload) :
    Json.membersInRange (layout (signedFields card)) = true ∧
      payload = (marshalCanonical (removeEmptyFields (layout (signedFields card)))).flatMap
        String.utf8EncodeChar := by
  rw [createCanonicalCardJSON, Option.map_eq_some_iff] at h
  obtain ⟨ms, hgeneric, rfl⟩ := h
  rw [AgentCardData.generic, Option.filter_eq_some_iff, Bool.and_eq_true] at hgeneric
  obtain ⟨hmembers, hrange, -⟩ := hgeneric
  rw [← members_signed hmembers]
  refine ⟨?_, rfl⟩
  have hall := floatsInRange_obj_iff.mp (show (Json.obj ms).floatsInRange = true from hrange)
  exact floatsInRange_obj_iff.mpr fun m hm => hall m (List.mem_of_mem_filter hm)

/-- Two cards for which a payload can be built have the same payload exactly if they have the same
signed content. -/
theorem canonical_payload_binds (card card' : AgentCardData) (payload payload' : Bytes)
    (h : createCanonicalCardJSON card = some payload)
    (h' : createCanonicalCardJSON card' = some payload') :
    payload = payload' ↔ card.signed = card'.signed := by
  obtain ⟨hrange, rfl⟩ := canonical_of_some h
  obtain ⟨hrange', rfl⟩ := canonical_of_some h'
  rw [← signedFields_eq_iff, ← marshalCanonical_eq_iff hrange hrange']
  exact ⟨utf8_injective, fun heq => by rw [heq]⟩

def cardWithLimit (limit : String) : AgentCardData where
  name := "agent"
  capabilities := some ⟨none, none, [⟨"", "", none, AList.singleton "limit" (bytes limit)⟩]⟩

def limitPayload (limit : String) : Bytes :=
  bytes ("\x7b\"capabilities\":\x7b\"extensions\":[\x7b\"params\":\x7b\"limit\":" ++ limit ++
    "\x7d\x7d]\x7d,\"name\":\"agent\"\x7d")

/-- Cards with an extension limit of 1 and of 2. -/
theorem canonical_payload_binds_limits :
    createCanonicalCardJSON (cardWithLimit "1") = some (limitPayload "1") ∧
      createCanonicalCardJSON (cardWithLimit "2") = some (limitPayload "2") ∧
        (limitPayload "1" = limitPayload "2" ↔
          (cardWithLimit "1").signed = (cardWithLimit "2").signed) := by
  have h1 : createCanonicalCardJSON (cardWithLimit "1") = some (limitPayload "1") := by
    decide +kernel
  have h2 : createCanonicalCardJSON (cardWithLimit "2") = some (limitPayload "2") := by
    decide +kernel
  exact ⟨h1, h2, canonical_payload_binds _ _ _ _ h1 h2⟩

def AgentCardData.limits (card : AgentCardData) : List (Option Bytes) :=
  (card.capabilities.toList.flatMap AgentCapabilities.extensions).map (·.params.lookup "limit")

/-- Two cards whose parameters differ by one have the same payload: 2^53 + 1 is no binary64
value. -/
theorem limits_share_payload :
    cardWithLimit "9007199254740993" ≠ cardWithLimit "9007199254740992" ∧
      createCanonicalCardJSON (cardWithLimit "9007199254740993") =
        some (limitPayload "9007199254740992") ∧
      createCanonicalCardJSON (cardWithLimit "9007199254740992") =
        some (limitPayload "9007199254740992") := by
  refine ⟨fun same => ?_, by decide +kernel, by decide +kernel⟩
  have limits := congrArg AgentCardData.limits same
  revert limits
  decide +kernel

end Kagenti.Operator.Signature
