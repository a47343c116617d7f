import Kagenti.Go.Http

/-!
The audiences that jwt-validation accepts (`Configure`, `Init` and the background poll in
`plugins/jwtvalidation/plugin.go`). The other fields of its configuration are left out.
-/

namespace Kagenti.AuthBridge.Audiences

open Go

structure JwtValidationConfig where
  audience : String
  audienceFile : String
  audienceMode : String
  allowedAudiences : List String

def JwtValidationConfig.applyDefaults (c : JwtValidationConfig) : JwtValidationConfig :=
  let c := { c with audienceMode := if c.audienceMode = "" then "static" else c.audienceMode }
  if c.audienceMode = "static" ∧ c.audience = "" ∧ c.audienceFile = "" ∧ c.allowedAudiences = [] then
    { c with audienceFile := "/shared/client-id.txt" }
  else c

/-- `add` in `expectedAudiences`. -/
def addAudience (out : List String) (s : String) : List String :=
  if trimSpace s = "" ∨ trimSpace s ∈ out then out else out ++ [trimSpace s]

def expectedAudiences (c : JwtValidationConfig) (audienceFromFile : String) : List String :=
  (c.allowedAudiences ++ [c.audience, audienceFromFile]).foldl addAudience []

/-- When the file becomes readable. -/
inductive Appears where
  | beforeConfigure
  | beforeInit
  | afterInit
  deriving DecidableEq

/-- The audiences behind `Configure`. -/
def configured (c : JwtValidationConfig) (appears : Appears) (file : String) : List String :=
  expectedAudiences c
    (if c.audience = "" ∧ c.audienceFile ≠ "" ∧ appears = .beforeConfigure then file else "")

/-- `Init` starts the poll unless the identity is `Ready`. -/
def polls (c : JwtValidationConfig) (appears : Appears) (file : String) : Bool :=
  !(c.audienceFile = "" || c.audience ≠ "" || configured c appears file ≠ [])

/-- The audiences once the file is readable and the poll, if any, has returned. -/
def accepted (c : JwtValidationConfig) (appears : Appears) (file : String) : List String :=
  if polls c appears file then expectedAudiences c file else configured c appears file

def sources (c : JwtValidationConfig) (file : String) : List String :=
  c.allowedAudiences ++ [c.audience] ++ if c.audienceFile = "" then [] else [file]

/-- The audiences that are configured, other than blank ones. -/
def Union (c : JwtValidationConfig) (file a : String) : Prop :=
  a ≠ "" ∧ ∃ s ∈ sources c file, trimSpace s = a

theorem mem_foldl_addAudience (l out : List String) (a : String) :
    a ∈ l.foldl addAudience out ↔ a ∈ out ∨ (a ≠ "" ∧ ∃ s ∈ l, trimSpace s = a) := by
  induction l generalizing out with
  | nil => simp
  | cons s l ih =>
    have step : a ∈ addAudience out s ↔ a ∈ out ∨ (a ≠ "" ∧ trimSpace s = a) := by
      unfold addAudience
      split <;> grind
    rw [List.foldl_cons, ih, step]
    grind

variable {c : JwtValidationConfig} {appears : Appears} {file : String}

theorem mem_expectedAudiences (fromFile a : String) : a ∈ expectedAudiences c fromFile ↔
    a ≠ "" ∧ ∃ s ∈ c.allowedAudiences ++ [c.audience, fromFile], trimSpace s = a := by
  rw [expectedAudiences, mem_foldl_addAudience]
  simp

/-- `Configure` or the poll gets to the value of the file. -/
def Reads (c : JwtValidationConfig) (appears : Appears) : Prop :=
  c.audience = "" ∧ (appears = .beforeConfigure ∨ ∀ s ∈ c.allowedAudiences, trimSpace s = "")

theorem trimSpace_empty : trimSpace "" = "" := by decide

theorem accepted_eq (c : JwtValidationConfig) (appears : Appears) (file : String)
    (used : c.audienceFile ≠ "") :
    (Reads c appears → accepted c appears file = expectedAudiences c file) ∧
      (¬Reads c appears → accepted c appears file = expectedAudiences c "") := by
  have nobody : expectedAudiences c "" = [] ↔
      trimSpace c.audience = "" ∧ ∀ s ∈ c.allowedAudiences, trimSpace s = "" := by
    simp only [List.eq_nil_iff_forall_not_mem, mem_expectedAudiences]
    have := trimSpace_empty
    grind
  have := trimSpace_empty
  constructor
  · rintro ⟨literal, early⟩
    by_cases first : appears = .beforeConfigure
    · simp [accepted, polls, configured, literal, used, first]
    · have blank := early.resolve_left first
      have := nobody.mpr (by grind)
      simp [accepted, polls, configured, literal, used, first, this]
  · intro late
    by_cases literal : c.audience = ""
    · have first : appears ≠ .beforeConfigure := fun first => late ⟨literal, .inl first⟩
      have filled : expectedAudiences c "" ≠ [] := fun empty =>
        late ⟨literal, .inr (nobody.mp empty).2⟩
      simp [accepted, polls, configured, literal, used, first, filled]
    · simp [accepted, polls, configured, literal]

/-- Whenever the file becomes readable, the accepted audiences are the configured ones exactly if
the file is not used or adds nothing, or there is no literal audience and either `Configure` reads
the file or there is no other audience. -/
theorem accepted_eq_union_iff (c : JwtValidationConfig) (appears : Appears) (file : String) :
    (∀ a, a ∈ accepted c appears file ↔ Union c file a) ↔
      c.audienceFile = "" ∨ trimSpace file = "" ∨
        trimSpace file ∈ (c.allowedAudiences ++ [c.audience]).map trimSpace ∨
        (c.audience = "" ∧
          (appears = .beforeConfigure ∨ ∀ s ∈ c.allowedAudiences, trimSpace s = "")) := by
  have listed (f a : String) : a ∈ expectedAudiences c f ↔ a ≠ "" ∧
      (a ∈ (c.allowedAudiences ++ [c.audience]).map trimSpace ∨ trimSpace f = a) := by
    rw [mem_expectedAudiences, List.mem_map]
    grind
  have union (a : String) : Union c file a ↔ a ≠ "" ∧
      (a ∈ (c.allowedAudiences ++ [c.audience]).map trimSpace ∨
        c.audienceFile ≠ "" ∧ trimSpace file = a) := by
    rw [Union, sources, List.mem_map]
    grind
  have blank := trimSpace_empty
  by_cases used : c.audienceFile = ""
  · have unread : accepted c appears file = expectedAudiences c "" := by
      simp [accepted, polls, configured, used]
    grind
  · have ⟨read, unread⟩ := accepted_eq c appears file used
    have missed := listed "" (trimSpace file)
    have meant := union (trimSpace file)
    constructor
    · intro same
      have := same (trimSpace file)
      grind [Reads]
    · intro reached a
      by_cases reads : Reads c appears
      · grind
      · have : c.audience ≠ "" ∨ _ := not_and_or.mp reads
        rw [unread reads, listed, union]
        grind

/-- An allowed audience makes the identity ready, so the file that came late is never read. -/
theorem allowed_audience_stops_poll :
    let c : JwtValidationConfig := ⟨"", "/shared/client-id.txt", "static", ["portal"]⟩
    c.applyDefaults = c ∧ accepted c .beforeInit "agent" = ["portal"] ∧ Union c "agent" "agent" := by
  refine ⟨rfl, by decide +kernel, by decide, "agent", by decide, by decide +kernel⟩

end Kagenti.AuthBridge.Audiences
