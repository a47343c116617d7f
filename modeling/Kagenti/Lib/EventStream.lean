import Mathlib.Data.List.Basic

/-!
A line-based stream of events. A line ends with LF, CR or CRLF; the values of the data lines between
two empty lines, joined by LF, are one event.
-/

namespace Kagenti.Lib.EventStream

abbrev Line := List UInt8

def lf : UInt8 := 0x0A

def cr : UInt8 := 0x0D

def colon : UInt8 := 0x3A

def space : UInt8 := 0x20

/-! Lines -/

def unifyBreaks (behindCr : Bool) : List UInt8 → List UInt8
  | [] => []
  | b :: rest =>
    if b = cr then lf :: unifyBreaks true rest
    else if b = lf ∧ behindCr then unifyBreaks false rest
    else b :: unifyBreaks false rest

/-- The lines of a stream without other breaks; `line` is the part of the first that stands
before it. The last line needs no break. -/
def linesFrom (line : Line) : List UInt8 → List Line
  | [] => if line = [] then [] else [line]
  | b :: rest => if b = lf then line :: linesFrom [] rest else linesFrom (line ++ [b]) rest

def lines (s : List UInt8) : List Line := linesFrom [] (unifyBreaks false s)

def BreakFree (line : Line) : Prop := lf ∉ line ∧ cr ∉ line

theorem unifyBreaks_cons {b : UInt8} (h : b ≠ cr) (rest : List UInt8) :
    unifyBreaks false (b :: rest) = b :: unifyBreaks false rest := by
  rw [unifyBreaks, if_neg h, if_neg (by simp)]

theorem unifyBreaks_behindCr {b : UInt8} (h : b ≠ lf) (rest : List UInt8) :
    unifyBreaks true (b :: rest) = unifyBreaks false (b :: rest) := by
  simp only [unifyBreaks, h, false_and, if_false]

variable {line : Line}

theorem unifyBreaks_append (h : cr ∉ line) (rest : List UInt8) :
    unifyBreaks false (line ++ rest) = line ++ unifyBreaks false rest := by
  induction line with
  | nil => rfl
  | cons b line ih =>
    obtain ⟨other, tail⟩ := List.ne_and_not_mem_of_not_mem_cons h
    rw [List.cons_append, unifyBreaks_cons (Ne.symm other), ih tail, List.cons_append]

theorem cr_notMem_unifyBreaks (behindCr : Bool) (s : List UInt8) :
    cr ∉ unifyBreaks behindCr s := by
  induction s generalizing behindCr with
  | nil => exact List.not_mem_nil
  | cons b rest ih =>
    rw [unifyBreaks]
    split
    · exact List.not_mem_cons_of_ne_of_not_mem (by decide) (ih true)
    next other => grind

theorem linesFrom_append (h : lf ∉ line) (front : Line) (rest : List UInt8) :
    linesFrom front (line ++ lf :: rest) = (front ++ line) :: linesFrom [] rest := by
  induction line generalizing front with
  | nil => rw [List.nil_append, linesFrom, if_pos rfl, List.append_nil]
  | cons b line ih =>
    obtain ⟨other, tail⟩ := List.ne_and_not_mem_of_not_mem_cons h
    rw [List.cons_append, linesFrom, if_neg (Ne.symm other), ih tail, List.append_assoc,
      List.singleton_append]

theorem lines_cons (h : BreakFree line) (rest : List UInt8) :
    lines (line ++ lf :: rest) = line :: lines rest := by
  unfold lines
  rw [unifyBreaks_append h.2, unifyBreaks_cons (by decide), linesFrom_append h.1, List.nil_append]

variable {s : List UInt8}

theorem breakFree_of_mem_linesFrom {front : Line} (hfront : BreakFree front) (hs : cr ∉ s) :
    ∀ line ∈ linesFrom front s, BreakFree line := by
  induction s generalizing front with
  | nil => grind [linesFrom]
  | cons b rest ih =>
    obtain ⟨other, tail⟩ := List.ne_and_not_mem_of_not_mem_cons hs
    rw [linesFrom]
    split
    · exact List.forall_mem_cons.mpr ⟨hfront, ih ⟨List.not_mem_nil, List.not_mem_nil⟩ tail⟩
    next inner =>
      refine ih ⟨?_, ?_⟩ tail
      · simpa [hfront.1] using Ne.symm inner
      · simpa [hfront.2] using other

theorem breakFree_of_mem_lines : ∀ line ∈ lines s, BreakFree line :=
  breakFree_of_mem_linesFrom ⟨List.not_mem_nil, List.not_mem_nil⟩ (cr_notMem_unifyBreaks false s)

theorem exists_mem_linesFrom {front : Line} (nonempty : front ≠ []) (s : List UInt8) :
    ∃ line ∈ linesFrom front s, front <+: line := by
  induction s generalizing front with
  | nil =>
    rw [linesFrom, if_neg nonempty]
    exact ⟨front, List.mem_singleton_self front, List.prefix_rfl⟩
  | cons b rest ih =>
    rw [linesFrom]
    split
    · exact ⟨front, List.mem_cons_self, List.prefix_rfl⟩
    · obtain ⟨line, member, begins⟩ := ih (List.append_ne_nil_of_left_ne_nil nonempty [b])
      exact ⟨line, member, (List.prefix_append front [b]).trans begins⟩

/-! Events -/

def dataName : Line := [0x64, 0x61, 0x74, 0x61]

/-- The value of a data line, without one space in front of it. -/
def dataValue (line : Line) : Option Line :=
  match line.dropWhile (· ≠ colon) with
  | [] => if line = dataName then some [] else none
  | _ :: value =>
    if line.takeWhile (· ≠ colon) = dataName then
      some (if value.head? = some space then value.tail else value)
    else none

def dispatch (event : List Line) : List (List Line) := if event = [] then [] else [event]

/-- The events of a list of lines; `event` has the values of the first that stand before
them. -/
def eventsFrom (event : List Line) : List Line → List (List Line)
  | [] => dispatch event
  | line :: rest =>
    if line = [] then dispatch event ++ eventsFrom [] rest
    else
      match dataValue line with
      | none => eventsFrom event rest
      | some value => eventsFrom (event ++ [value]) rest

def events (s : List UInt8) : List (List Line) := eventsFrom [] (lines s)

def payload (event : List Line) : List UInt8 := [lf].intercalate event

theorem payload_singleton (value : Line) : payload [value] = value := by
  simp [payload, List.intercalate]

variable {event : List Line}

theorem payload_cons (h : event ≠ []) (value : Line) :
    payload (value :: event) = value ++ lf :: payload event := by
  cases event with
  | nil => contradiction
  | cons next rest => simp [payload, List.intercalate, List.intersperse]

theorem payload_concat (h : event ≠ []) (value : Line) :
    payload (event ++ [value]) = payload event ++ lf :: value := by
  induction event with
  | nil => contradiction
  | cons first rest ih =>
    cases rest with
    | nil => simp [payload_cons, payload_singleton]
    | cons second rest =>
      rw [List.cons_append, payload_cons (by simp), ih (List.cons_ne_nil second rest),
        payload_cons (List.cons_ne_nil second rest), List.append_assoc, List.cons_append]

theorem payload_ne_nil (nonempty : event ≠ []) (h : event.getLast? ≠ some []) :
    payload event ≠ [] := by
  obtain ⟨front, value, rfl⟩ : ∃ front value, event = front ++ [value] :=
    ⟨_, _, (List.dropLast_append_getLast nonempty).symm⟩
  by_cases single : front = []
  · subst front
    rw [List.nil_append, payload_singleton]
    exact fun empty => h (congrArg some empty)
  · rw [payload_concat single]
    exact List.append_ne_nil_of_right_ne_nil _ (List.cons_ne_nil lf value)

theorem length_payload_le_concat (event : List Line) (value : Line) :
    (payload event).length ≤ (payload (event ++ [value])).length := by
  by_cases empty : event = []
  · subst event
    exact Nat.zero_le _
  · rw [payload_concat empty, List.length_append]
    omega

theorem length_payload_le {more : List Line} (h : event <+: more) :
    (payload event).length ≤ (payload more).length := by
  obtain ⟨rest, rfl⟩ := h
  induction rest generalizing event with
  | nil => exact Nat.le_of_eq (congrArg (List.length ∘ payload) (List.append_nil event).symm)
  | cons value rest ih =>
    have longer : (payload (event ++ [value])).length ≤ (payload (event ++ [value] ++ rest)).length :=
      ih
    rw [List.append_assoc, List.singleton_append] at longer
    exact Nat.le_trans (length_payload_le_concat event value) longer

variable {front : List Line}

theorem mem_dispatch (h : event ∈ dispatch front) : event = front ∧ event ≠ [] := by
  unfold dispatch at h
  split at h
  · cases h
  · obtain rfl := List.mem_singleton.mp h
    exact ⟨rfl, ‹_›⟩

theorem forall_mem_eventsFrom {P : Line → Prop} {lines : List Line}
    (hfront : ∀ value ∈ front, P value)
    (hlines : ∀ line ∈ lines, ∀ value, dataValue line = some value → P value) :
    ∀ event ∈ eventsFrom front lines, event ≠ [] ∧ ∀ value ∈ event, P value := by
  have hdispatch {front : List Line} (hfront : ∀ value ∈ front, P value) :
      ∀ event ∈ dispatch front, event ≠ [] ∧ ∀ value ∈ event, P value := by
    intro event member
    obtain ⟨rfl, nonempty⟩ := mem_dispatch member
    exact ⟨nonempty, hfront⟩
  induction lines generalizing front with
  | nil => exact hdispatch hfront
  | cons line rest ih =>
    obtain ⟨hline, hrest⟩ := List.forall_mem_cons.mp hlines
    rw [eventsFrom]
    split
    · exact List.forall_mem_append.mpr ⟨hdispatch hfront, ih (by simp) hrest⟩
    · split
      · exact ih hfront hrest
      next value found =>
        refine ih (List.forall_mem_append.mpr ⟨hfront, ?_⟩) hrest
        exact List.forall_mem_singleton.mpr (hline value found)

theorem exists_mem_eventsFrom (nonempty : front ≠ []) (lines : List Line) :
    ∃ event ∈ eventsFrom front lines, front <+: event := by
  have counts : front ∈ dispatch front := by
    rw [dispatch, if_neg nonempty]
    exact List.mem_singleton_self front
  induction lines generalizing front with
  | nil => exact ⟨front, counts, List.prefix_rfl⟩
  | cons line rest ih =>
    rw [eventsFrom]
    split
    · exact ⟨front, List.mem_append_left _ counts, List.prefix_rfl⟩
    · split
      · exact ih nonempty counts
      next value _ =>
        have more := List.append_ne_nil_of_left_ne_nil nonempty [value]
        obtain ⟨event, member, begins⟩ := ih more (by simp [dispatch])
        exact ⟨event, member, (List.prefix_append front [value]).trans begins⟩

def dataPrefix : Line := dataName ++ [colon, space]

theorem dataValue_cases {value : Line} (h : dataValue line = some value) :
    (line = dataName ∧ value = []) ∨ line = dataName ++ colon :: value ∨
      line = dataPrefix ++ value := by
  have parts := List.takeWhile_append_dropWhile (p := (· ≠ colon)) (l := line)
  unfold dataValue at h
  split at h
  · obtain ⟨rfl, rfl⟩ : line = dataName ∧ [] = value := by simpa using h
    exact .inl ⟨rfl, rfl⟩
  next b rest found =>
    have first : b = colon := by
      have head := List.head?_dropWhile_not (· ≠ colon) line
      rw [found] at head
      simpa using head
    obtain ⟨name, eq⟩ := Option.ite_none_right_eq_some.mp h
    rw [name, found, first] at parts
    obtain rfl := Option.some.inj eq
    split
    next spaced =>
      obtain ⟨tail, rfl⟩ := List.head?_eq_some_iff.mp spaced
      exact .inr (.inr parts.symm)
    · exact .inr (.inl parts.symm)

theorem subset_of_dataValue {value : Line} (h : dataValue line = some value) : value ⊆ line := by
  rcases dataValue_cases h with ⟨-, rfl⟩ | rfl | rfl
  · exact List.nil_subset line
  · exact List.Subset.trans (List.subset_cons_self colon value) (List.subset_append_right dataName _)
  · exact List.subset_append_right dataPrefix value

theorem BreakFree.value {value : Line} (h : BreakFree line) (found : dataValue line = some value) :
    BreakFree value :=
  ⟨fun member => h.1 (subset_of_dataValue found member),
    fun member => h.2 (subset_of_dataValue found member)⟩

theorem mem_events : ∀ event ∈ events s,
    event ≠ [] ∧ ∀ value ∈ event, BreakFree value :=
  forall_mem_eventsFrom (by simp) fun line member _ found =>
    (breakFree_of_mem_lines line member).value found

/-! Printing -/

def print (event : List Line) : List UInt8 :=
  (event.flatMap fun value => dataPrefix ++ value ++ [lf]) ++ [lf]

theorem print_cons (value : Line) (event : List Line) :
    print (value :: event) = dataPrefix ++ value ++ lf :: print event := by
  simp [print]

theorem dataValue_dataPrefix (value : Line) : dataValue (dataPrefix ++ value) = some value := by
  rfl

theorem breakFree_dataPrefix {value : Line} (h : BreakFree value) :
    BreakFree (dataPrefix ++ value) := by
  have lfFree : lf ∉ dataPrefix := by decide
  have crFree : cr ∉ dataPrefix := by decide
  exact ⟨by simp [lfFree, h.1], by simp [crFree, h.2]⟩

theorem lines_print_append (h : ∀ value ∈ event, BreakFree value) (s : List UInt8) :
    lines (print event ++ s) = event.map (dataPrefix ++ ·) ++ [] :: lines s := by
  induction event with
  | nil => exact lines_cons ⟨List.not_mem_nil, List.not_mem_nil⟩ s
  | cons value rest ih =>
    obtain ⟨hvalue, hrest⟩ := List.forall_mem_cons.mp h
    rw [print_cons, List.append_assoc, List.cons_append,
      lines_cons (breakFree_dataPrefix hvalue), ih hrest, List.map_cons, List.cons_append]

theorem eventsFrom_dataLines (front event : List Line) (rest : List Line) :
    eventsFrom front (event.map (dataPrefix ++ ·) ++ [] :: rest) =
      dispatch (front ++ event) ++ eventsFrom [] rest := by
  induction event generalizing front with
  | nil => rw [List.map_nil, List.nil_append, eventsFrom, if_pos rfl, List.append_nil]
  | cons value event ih =>
    rw [List.map_cons, List.cons_append, eventsFrom, if_neg (by simp [dataPrefix, dataName])]
    simp only [dataValue_dataPrefix]
    rw [ih, List.append_assoc, List.singleton_append]

variable {evs : List (List Line)}

theorem lines_flatMap_print (h : ∀ event ∈ evs, ∀ value ∈ event, BreakFree value) :
    lines (evs.flatMap print) = evs.flatMap fun event => event.map (dataPrefix ++ ·) ++ [[]] := by
  induction evs with
  | nil => rfl
  | cons event evs ih => grind [lines_print_append]

theorem events_flatMap_print (h : ∀ event ∈ evs, ∀ value ∈ event, BreakFree value) :
    events (evs.flatMap print) = evs.filter (· ≠ []) := by
  induction evs with
  | nil => rfl
  | cons event evs ih =>
    obtain ⟨hevent, hevs⟩ := List.forall_mem_cons.mp h
    unfold events at ih ⊢
    rw [List.flatMap_cons, lines_print_append hevent, eventsFrom_dataLines, ih hevs,
      List.nil_append, List.filter_cons, dispatch]
    split <;> simp_all

end Kagenti.Lib.EventStream
