import Kagenti.Go.Utf8
import Mathlib.Data.List.DropRight

/-!
The plugin templates that `abctl` appends to the pipeline text it opens in an editor, and
their removal on save (`cmd/abctl/edit/templates.go`).
-/

namespace Kagenti.AuthBridge.Templates

open Go

def newline : UInt8 := 0x0A

def fenceMarker : Bytes := bytes "# === ABCTL TEMPLATES BELOW (stripped on save) ==="

def templatesBanner : Bytes := bytes <| "\n".intercalate
  ["# ====================================================================",
    "#",
    "# Reference: every plugin in the catalog.",
    "#",
    "# To use a template, copy a plugin block from below, paste it above the",
    "# fence into your inbound: or outbound: chain, strip the leading \"# \"",
    "# from each line, then adjust indentation (the templates use a 6-space",
    "# \"- name:\" indent -- match whatever your existing plugins use).",
    "#",
    "# This entire section -- from the fence line down -- is stripped before",
    "# the edited buffer is written back to the ConfigMap.",
    "#",
    "# ===================================================================="]

section Render

variable {Plugin : Type} (renderPluginTemplate : Plugin → Bytes)

/-- The blocks of the plugins stand below the fence; their text is left open. -/
def renderTemplates (plugins : List Plugin) : Bytes :=
  if plugins.isEmpty then []
  else
    newline :: newline :: fenceMarker ++
      newline :: (templatesBanner ++ newline :: plugins.flatMap renderPluginTemplate)

end Render

/-- Leading blanks and tabs and one trailing carriage return are tolerated. -/
def isFenceLine (line : Bytes) : Bool :=
  let content := line.dropWhile fun b => b = 0x20 || b = 0x09
  let content := if content.getLast? = some 0x0D then content.dropLast else content
  content == fenceMarker

def isBlankLine (line : Bytes) : Bool := line.all fun b => b = 0x20 || b = 0x09 || b = 0x0D

/-- What stands after the last newline of `out`. -/
def lastLine (out : Bytes) : Bytes := out.rtakeWhile (· ≠ newline)

def trimTrailingBlankLines (out : Bytes) : Bytes :=
  if out.getLast? = some newline then
    if isBlankLine (lastLine out.dropLast) then
      trimTrailingBlankLines (out.dropLast.rdropWhile (· ≠ newline))
    else out
  else out
termination_by out.length
decreasing_by
  have shorter := (List.rdropWhile_prefix (· ≠ newline) (l := out.dropLast)).length_le
  have : out ≠ [] := by rintro rfl; simp at *
  have := List.length_pos_iff.mpr this
  rw [List.length_dropLast] at shorter
  omega

/-- The walk over the lines: `before` are the lines passed, `line` is what the current line
holds so far. The result is what stands before the first fence line. -/
def beforeFence (before line : Bytes) : Bytes → Option Bytes
  | [] => if isFenceLine line then some before else none
  | b :: rest =>
    if b = newline then
      if isFenceLine line then some before else beforeFence (before ++ line ++ [newline]) [] rest
    else beforeFence before (line ++ [b]) rest

def stripTemplates (edited : Bytes) : Bytes :=
  match beforeFence [] [] edited with
  | some kept => trimTrailingBlankLines kept
  | none => edited

/-! The walk -/

def Unfenced (text : Bytes) : Prop := ∀ line ∈ text.splitOn newline, isFenceLine line = false

instance (text : Bytes) : Decidable (Unfenced text) :=
  inferInstanceAs (Decidable (∀ line ∈ text.splitOn newline, isFenceLine line = false))

variable {before line s : Bytes}

theorem unfenced_line (inLine : newline ∉ line) : Unfenced line ↔ isFenceLine line = false := by
  have single : line.splitOn newline = [line] :=
    List.splitOnP_eq_singleton fun b mem => by simp; rintro rfl; exact inLine mem
  simp [Unfenced, single]

theorem unfenced_cons (inLine : newline ∉ line) :
    Unfenced (line ++ newline :: s) ↔ isFenceLine line = false ∧ Unfenced s := by
  have split : (line ++ newline :: s).splitOn newline = line :: s.splitOn newline :=
    List.splitOnP_append_cons_of_forall_mem
      (fun b mem => by simp; rintro rfl; exact inLine mem) newline (by simp) s
  simp [Unfenced, split]

/-- A text without a fence line is passed, whatever stands on the lines below it. -/
theorem beforeFence_append (inLine : newline ∉ line) (unfenced : Unfenced (line ++ s))
    (below : Bytes) : beforeFence before line (s ++ newline :: below) =
      beforeFence (before ++ line ++ s ++ [newline]) [] below := by
  induction s generalizing before line with
  | nil =>
    rw [List.append_nil, unfenced_line inLine] at unfenced
    simp [beforeFence, unfenced]
  | cons b s ih =>
    rw [List.cons_append, beforeFence]
    split
    case isTrue h =>
      subst h
      obtain ⟨plain, unfenced⟩ := (unfenced_cons inLine).mp unfenced
      simp [plain, ih List.not_mem_nil unfenced]
    case isFalse h =>
      rw [ih (by simp [inLine, Ne.symm h]) (by simpa using unfenced)]
      simp

theorem beforeFence_unfenced (inLine : newline ∉ line) (unfenced : Unfenced (line ++ s)) :
    beforeFence before line s = none := by
  induction s generalizing before line with
  | nil =>
    rw [List.append_nil, unfenced_line inLine] at unfenced
    simp [beforeFence, unfenced]
  | cons b s ih =>
    rw [beforeFence]
    split
    case isTrue h =>
      subst h
      obtain ⟨plain, unfenced⟩ := (unfenced_cons inLine).mp unfenced
      simp [plain, ih List.not_mem_nil unfenced]
    case isFalse h => exact ih (by simp [inLine, Ne.symm h]) (by simpa using unfenced)

theorem beforeFence_line (text below : Bytes) (inText : newline ∉ text) :
    beforeFence before line (text ++ below) = beforeFence before (line ++ text) below := by
  induction text generalizing line with
  | nil => simp
  | cons b text ih =>
    rw [List.mem_cons, not_or] at inText
    rw [List.cons_append, beforeFence, if_neg (Ne.symm inText.1), ih inText.2]
    simp

theorem beforeFence_render (unfenced : Unfenced s) (below : Bytes) :
    beforeFence [] [] (s ++ newline :: newline :: (fenceMarker ++ newline :: below)) =
      some (s ++ [newline] ++ [newline]) := by
  rw [beforeFence_append List.not_mem_nil unfenced, beforeFence, if_pos rfl,
    if_neg (by decide), beforeFence_line _ _ (by decide), beforeFence, if_pos rfl,
    if_pos (by decide)]
  simp

/-! The blank lines -/

theorem trim_concat (out : Bytes) : trimTrailingBlankLines (out ++ [newline]) =
    if isBlankLine (lastLine out) then trimTrailingBlankLines (out.rdropWhile (· ≠ newline))
    else out ++ [newline] := by
  rw [trimTrailingBlankLines]
  simp

theorem trim_length_le (out : Bytes) : (trimTrailingBlankLines out).length ≤ out.length := by
  fun_induction trimTrailingBlankLines out with
  | case1 out _ _ ih =>
    have shorter := (List.rdropWhile_prefix (· ≠ newline) (l := out.dropLast)).length_le
    rw [List.length_dropLast] at shorter
    omega
  | _ => exact le_rfl

/-- A text is shorter once its last line is dropped. -/
theorem trim_rdropWhile_ne (out : Bytes) (b : UInt8) :
    trimTrailingBlankLines (out.rdropWhile (· ≠ newline)) ≠ out ++ [b] := by
  intro kept
  have shorter := (trim_length_le _).trans (List.rdropWhile_prefix (· ≠ newline) out).length_le
  rw [kept, List.length_append, List.length_singleton] at shorter
  omega

theorem trim_blank_line (out : Bytes) : trimTrailingBlankLines (out ++ [newline] ++ [newline]) =
    trimTrailingBlankLines (out ++ [newline]) := by
  rw [trim_concat, lastLine, List.rtakeWhile_concat_neg _ _ _ (by simp),
    List.rdropWhile_concat_neg _ _ _ (by simp)]
  exact if_pos (by decide)

/-- The padding above the fence goes and nothing else does, exactly when the text is empty
or its last line is terminated and is not blank. -/
theorem trim_padding : trimTrailingBlankLines (s ++ [newline] ++ [newline]) = s ↔
    s = [] ∨ ∃ t, s = t ++ [newline] ∧ isBlankLine (lastLine t) = false := by
  rw [trim_blank_line]
  rcases List.eq_nil_or_concat' s with rfl | ⟨t, b, rfl⟩
  · simp [lastLine, isBlankLine, trimTrailingBlankLines]
  · have dropped := trim_rdropWhile_ne t b
    rcases eq_or_ne b newline with rfl | ne
    · rw [trim_blank_line, trim_concat]
      split
      case isTrue blank => simpa [blank] using dropped
      case isFalse content => simp [content]
    · rw [trim_concat, List.rdropWhile_concat_pos _ _ _ (by simpa using ne)]
      split
      · simpa [ne] using dropped
      · simp [ne]

/-! The round trip -/

/-- Stripping gives the text back exactly when its last line has content and is terminated, apart
from the empty text and the empty catalog. -/
theorem stripTemplates_renderTemplates_iff {Plugin : Type} (renderPluginTemplate : Plugin → Bytes)
    (catalog : List Plugin) (s : Bytes) (unfenced : Unfenced s) :
    stripTemplates (s ++ renderTemplates renderPluginTemplate catalog) = s ↔
      catalog = [] ∨ s = [] ∨ ∃ t, s = t ++ [newline] ∧ isBlankLine (lastLine t) = false := by
  cases catalog with
  | nil => simp [renderTemplates, stripTemplates, beforeFence_unfenced List.not_mem_nil unfenced]
  | cons plugin plugins =>
    simp only [renderTemplates, List.isEmpty_cons, Bool.false_eq_true, if_false,
      List.cons_append, stripTemplates, beforeFence_render unfenced, reduceCtorEq, false_or]
    exact trim_padding

/-- A pipeline whose last line is terminated. -/
theorem stripTemplates_renderTemplates_terminated :
    stripTemplates (bytes "pipeline:\n" ++ renderTemplates bytes ["opa"]) = bytes "pipeline:\n" :=
  (stripTemplates_renderTemplates_iff bytes ["opa"] _ (by decide)).mpr
    (.inr (.inr ⟨bytes "pipeline:", by decide, by decide⟩))

/-- The blank line between the pipeline and the next key of the file is lost. -/
theorem stripTemplates_blank_line : Unfenced (bytes "pipeline:\n\n") ∧
    stripTemplates (bytes "pipeline:\n\n" ++ renderTemplates bytes ["opa"]) ≠
      bytes "pipeline:\n\n" := by
  decide +kernel

end Kagenti.AuthBridge.Templates
