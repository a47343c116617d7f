import Kagenti.AuthBridge.Finalization
import Kagenti.Lib.EventStream

/-!
What a reader of an event stream sees behind the proxies, which read it frame by frame and print
each frame again.
-/

namespace Kagenti.AuthBridge

open Go Lib.EventStream

namespace Sse

/-! The reader -/

def Fits (maxSize : Nat) (s : Bytes) : Prop :=
  (∀ line ∈ lines s, line.length ≤ maxSize) ∧ ∀ event ∈ events s, (payload event).length ≤ maxSize

variable {maxSize : Nat} {s : Bytes} {line : Bytes}

theorem readLines_eq (fits : ∀ l ∈ linesFrom line (unifyBreaks false s), l.length ≤ maxSize) :
    readLines maxSize false line s = (linesFrom line (unifyBreaks false s), .eof) := by
  have inner {line rest : Bytes} {b : UInt8} (feed : b ≠ lf) (return_ : b ≠ cr) :
      linesFrom line (unifyBreaks false (b :: rest)) =
        linesFrom (line ++ [b]) (unifyBreaks false rest) := by
    rw [unifyBreaks_cons return_, linesFrom]
    exact if_neg feed
  fun_induction readLines maxSize false line s with
  | case1 => contradiction
  | case2 => rfl
  | case3 line _ other => rw [unifyBreaks, linesFrom, if_neg other]
  | case4 line rest _ _ read ih | case5 line _ _ read _ ih =>
    rw [ih (List.forall_mem_cons.mp fits).2] at read
    cases read
    rfl
  | case6 line next rest _ _ read _ ihPair ihAlone =>
    have broken : ∀ l ∈ linesFrom [] (unifyBreaks true (next :: rest)), l.length ≤ maxSize :=
      (List.forall_mem_cons.mp fits).2
    change _ = (line :: linesFrom [] (unifyBreaks true (next :: rest)), _)
    by_cases pair : next = lf
    · subst next
      rw [if_pos rfl, ihPair broken] at read
      cases read
      rfl
    · rw [unifyBreaks_behindCr pair] at broken ⊢
      rw [if_neg pair, ihAlone broken] at read
      cases read
      rfl
  | case7 line b rest feed return_ long =>
    rw [inner feed return_] at fits
    obtain ⟨l, member, begins⟩ := exists_mem_linesFrom
      (List.append_ne_nil_of_right_ne_nil line (List.cons_ne_nil b [])) (unifyBreaks false rest)
    have room := begins.length_le.trans (fits l member)
    rw [List.length_append, List.length_singleton] at room
    omega
  | case8 line b rest feed return_ _ ih =>
    rw [inner feed return_] at fits ⊢
    exact ih fits

theorem dataValue_eq (line : Bytes) : dataValue line =
    if (splitField line).1 = bytes "data" then some (splitField line).2 else none := by
  have name : bytes "data" = dataName := by decide
  unfold dataValue splitField
  rw [name, show colon = Lib.EventStream.colon from rfl, show space = Lib.EventStream.space from rfl]
  rcases line.dropWhile (· ≠ Lib.EventStream.colon) with _ | ⟨b, _ | ⟨c, rest⟩⟩
  · rfl
  · rfl
  · by_cases gap : c = Lib.EventStream.space <;> simp [gap]

def scratchOf (event : List Bytes) : Option Bytes := if event = [] then none else some (payload event)

theorem scratchOf_concat (event : List Bytes) (value : Bytes) :
    ((scratchOf event).elim [] fun data => data ++ [lf]) ++ value = payload (event ++ [value]) := by
  by_cases empty : event = []
  · subst event
    exact (payload_singleton value).symm
  · rw [payload_concat empty, scratchOf, if_neg empty]
    exact List.append_assoc _ _ _

variable {event : List Bytes}

theorem readFrames_eq {lines : List Bytes}
    (fits : ∀ e ∈ eventsFrom event lines, (payload e).length ≤ maxSize) :
    readFrames maxSize .eof (scratchOf event) lines =
      ((eventsFrom event lines).map payload, .eof) := by
  induction lines generalizing event with
  | nil =>
    unfold readFrames eventsFrom scratchOf dispatch
    by_cases empty : event = [] <;> simp [empty]
  | cons line rest ih =>
    unfold readFrames
    rw [eventsFrom] at fits ⊢
    by_cases blank : line = []
    · rw [if_pos blank] at fits ⊢
      have next := ih (List.forall_mem_append.mp fits).2
      by_cases empty : event = []
      · subst event
        rwa [if_pos blank]
      · rw [scratchOf, if_neg empty, dispatch, if_neg empty]
        rw [show (none : Option Bytes) = scratchOf [] from rfl, next, if_pos blank]
        rfl
    · rw [if_neg blank, dataValue_eq] at fits ⊢
      rw [if_neg blank]
      by_cases named : (splitField line).1 = bytes "data"
      · rw [if_pos named] at fits ⊢
        dsimp only at fits ⊢
        have filled : event ++ [(splitField line).2] ≠ [] := by simp
        obtain ⟨e, member, begins⟩ := exists_mem_eventsFrom filled rest
        have room := (length_payload_le begins).trans (fits e member)
        have field : line.head? ≠ some colon := by
          intro comment
          obtain ⟨rest, rfl⟩ := List.head?_eq_some_iff.mp comment
          cases named
        rw [if_neg field, if_neg (not_not.mpr named), scratchOf_concat,
          if_neg (Nat.not_lt.mpr room)]
        have next := ih fits
        rwa [scratchOf, if_neg filled] at next
      · rw [if_neg named] at fits ⊢
        dsimp only
        rw [if_pos named, ite_self]
        exact ih fits

theorem frames_eq (h : Fits maxSize s) :
    frames maxSize ⟨s, false⟩ = ((events s).map payload, .eof) := by
  unfold frames
  rw [readLines_eq h.1]
  exact readFrames_eq (show ∀ e ∈ eventsFrom [] (lines s), _ from h.2)

/-! The writer -/

variable {value : Bytes}

theorem writeLines_begun (h : lf ∉ value) (rest : Bytes) :
    writeLines true (value ++ rest) = value ++ writeLines true rest := by
  induction value with
  | nil => rfl
  | cons b value ih =>
    obtain ⟨other, tail⟩ := List.ne_and_not_mem_of_not_mem_cons h
    rw [List.cons_append, writeLines, if_neg (Ne.symm other), ih tail]
    rfl

theorem writeLines_of_ne_nil (h : s ≠ []) :
    writeLines false s = dataPrefix ++ writeLines true s := by
  have opening : bytes "data: " = dataPrefix := by decide
  cases s with
  | nil => contradiction
  | cons b rest =>
    unfold writeLines
    rw [opening]
    split
    · rfl
    · rfl

theorem writeLines_line (h : lf ∉ value) (rest : Bytes) :
    writeLines false (value ++ lf :: rest) = dataPrefix ++ value ++ lf :: writeLines false rest := by
  rw [writeLines_of_ne_nil (by simp), writeLines_begun h, writeLines, if_pos rfl]
  simp

def keptLines (event : List Bytes) : List Bytes :=
  if event.getLast? = some [] then event.dropLast else event

theorem keptLines_cons (value : Bytes) (h : event ≠ []) :
    keptLines (value :: event) = value :: keptLines event := by
  obtain ⟨next, rest, rfl⟩ := List.exists_cons_of_ne_nil h
  unfold keptLines
  rw [List.getLast?_cons_cons]
  split
  · rfl
  · rfl

theorem writeSSEFrame_payload (nonempty : event ≠ []) (h : ∀ value ∈ event, BreakFree value) :
    writeSSEFrame (payload event) = print (keptLines event) := by
  unfold writeSSEFrame
  induction event with
  | nil => contradiction
  | cons value rest ih =>
    obtain ⟨hvalue, hrest⟩ := List.forall_mem_cons.mp h
    by_cases last : rest = []
    · subst rest
      rw [payload_singleton]
      by_cases empty : value = []
      · subst value
        rfl
      · have kept : keptLines [value] = [value] := if_neg (by simpa using empty)
        have written := writeLines_begun hvalue.1 []
        rw [List.append_nil] at written
        rw [kept, writeLines_of_ne_nil empty, written]
        simp [print, writeLines]
        rfl
    · rw [payload_cons last, keptLines_cons value last]
      rw [print_cons, ← ih last hrest, ← List.cons_append, ← List.append_assoc]
      exact congrArg (· ++ [lf]) (writeLines_line hvalue.1 (payload rest))

/-! What a reader behind the proxy sees -/

def forwarded (s : Bytes) : Bytes := ((events s).map payload).flatMap writeSSEFrame

theorem forwarded_eq (s : Bytes) : forwarded s = ((events s).map keptLines).flatMap print := by
  unfold forwarded
  rw [List.flatMap_map, List.flatMap_map]
  refine List.flatMap_congr fun event member => ?_
  obtain ⟨nonempty, breakFree⟩ := mem_events event member
  exact writeSSEFrame_payload nonempty breakFree

theorem keptLines_isPrefix (event : List Bytes) : keptLines event <+: event := by
  unfold keptLines
  split
  · exact List.dropLast_prefix event
  · exact List.prefix_rfl

theorem subset_keptLines (event : List Bytes) : keptLines event ⊆ event :=
  (keptLines_isPrefix event).subset

theorem breakFree_keptLines (s : Bytes) :
    ∀ event ∈ (events s).map keptLines, ∀ value ∈ event, BreakFree value := by
  intro event member value found
  obtain ⟨event, listed, rfl⟩ := List.mem_map.mp member
  exact (mem_events event listed).2 value (subset_keptLines event found)

theorem events_forwarded (s : Bytes) :
    events (forwarded s) = ((events s).map keptLines).filter (· ≠ []) := by
  rw [forwarded_eq, events_flatMap_print (breakFree_keptLines s)]

theorem fits_forwarded {cap : Nat} (h : Fits maxSize s) (big : 5 ≤ maxSize) (larger : maxSize < cap)
    : Fits cap (forwarded s) := by
  have short : ∀ event ∈ events s, event ≠ [] ∧ ∀ value ∈ event, value.length + 5 ≤ maxSize := by
    refine forall_mem_eventsFrom (by simp) fun line member value found => ?_
    have fits := h.1 line member
    rcases dataValue_cases found with ⟨-, rfl⟩ | rfl | rfl
    · exact big
    · simp [dataName] at fits
      omega
    · simp [dataPrefix, dataName] at fits
      omega
  constructor
  · intro line member
    rw [forwarded_eq, lines_flatMap_print (breakFree_keptLines s)] at member
    obtain ⟨kept, listed, here⟩ := List.mem_flatMap.mp member
    obtain ⟨event, found, rfl⟩ := List.mem_map.mp listed
    rcases List.mem_append.mp here with data | blank
    · obtain ⟨value, among, rfl⟩ := List.mem_map.mp data
      have room := (short event found).2 value (subset_keptLines event among)
      simp only [dataPrefix, dataName, List.length_append, List.length_cons, List.length_nil]
      omega
    · rw [List.mem_singleton.mp blank]
      exact Nat.zero_le cap
  · intro event member
    rw [events_forwarded] at member
    obtain ⟨event, found, rfl⟩ := List.mem_map.mp (List.mem_filter.mp member).1
    have shorter := length_payload_le (keptLines_isPrefix event)
    have fits := h.2 event found
    omega

theorem events_forwarded_iff (s : Bytes) :
    (events (forwarded s)).map payload = (events s).map payload ↔
      ∀ event ∈ events s, event.getLast? ≠ some [] := by
  rw [events_forwarded]
  constructor
  · intro same event member empty
    have mapped : ((events s).map keptLines).length = (events s).length := List.length_map _
    have count := congrArg List.length same
    rw [List.length_map, List.length_map] at count
    have all := List.length_filter_eq_length_iff.mp (count.trans mapped.symm)
    rw [List.filter_eq_self.mpr all, List.map_map] at same
    obtain ⟨front, rfl⟩ := List.getLast?_eq_some_iff.mp empty
    have kept : keptLines (front ++ [[]]) = front := by
      rw [keptLines, if_pos empty, List.dropLast_concat]
    have filled : front ≠ [] := by grind
    have payloads := List.map_inj_left.mp same _ member
    rw [Function.comp_apply, kept, payload_concat filled] at payloads
    have lengths := congrArg List.length payloads
    rw [List.length_append, List.length_singleton] at lengths
    omega
  · intro ended
    have kept : (events s).map keptLines = events s := by
      refine (List.map_congr_left fun event member => ?_).trans (List.map_id _)
      exact if_neg (ended event member)
    rw [kept, List.filter_eq_self.mpr fun event member => ?_]
    exact decide_eq_true (mem_events event member).1

instance (maxSize : Nat) (s : Bytes) : Decidable (Fits maxSize s) :=
  inferInstanceAs (Decidable (_ ∧ _))

end Sse

/-! The proxies -/

namespace Pipeline

variable {W : Type*} {ctxErr : CtxErr W} {p : Pipeline W} {w : W} {pctx : Context}

theorem streamFrames_written {frames : List Bytes}
    (accepted : (p.feed ctxErr frames w pctx).1 = .cont) :
    (streamFrames ctxErr p frames w pctx).1 = frames.flatMap Sse.writeSSEFrame := by
  induction frames generalizing w pctx with
  | nil => rfl
  | cons frame rest ih =>
    unfold feed at accepted
    unfold streamFrames
    rcases answer : p.runResponseFrame ctxErr frame false w pctx with ⟨_ | violation, w', pctx'⟩
      <;> rw [answer] at accepted
    · rw [List.flatMap_cons, ← ih accepted]
    · cases accepted

theorem copy_written {sizes : List Nat} {b : StreamingResponseBody}
    (unfinished : b.finished = false) (accepted : (p.feed ctxErr b.frames w pctx).1 = .cont)
    (drained : (StreamingResponseBody.copy ctxErr p sizes b w pctx).2.1.finished = true) :
    (StreamingResponseBody.copy ctxErr p sizes b w pctx).1 =
      b.pending ++ b.frames.flatMap Sse.writeSSEFrame := by
  induction sizes generalizing b w pctx with
  | nil =>
    rw [StreamingResponseBody.copy, unfinished] at drained
    cases drained
  | cons n sizes ih =>
    unfold StreamingResponseBody.copy StreamingResponseBody.read at drained ⊢
    by_cases waiting : b.pending = []
    · simp only [waiting, ne_eq, not_true_eq_false, if_false, unfinished,
        Bool.false_eq_true] at drained ⊢
      cases frames : b.frames with
      | nil => simp
      | cons frame rest =>
        rw [frames] at accepted
        unfold feed at accepted
        simp only [frames] at drained ⊢
        rcases answer : p.runResponseFrame ctxErr frame false w pctx with
          ⟨_ | violation, w', pctx'⟩ <;> rw [answer] at accepted
        · grind [List.take_append_drop]
        · cases accepted
    · grind [List.take_append_drop]

/-- A stream that fits the reader and that no plugin rejects comes out of either proxy with the
same frames, none of them empty, if and only if no event ends with an empty data line. -/
theorem forwarding_transparent_iff (ctxErr : CtxErr W) (p : Pipeline W) {body : Bytes}
    (fits : Sse.Fits maxResponseBody body) (w : W) (pctx : Context)
    (accepted :
      (p.feed ctxErr (Sse.frames maxResponseBody ⟨body, false⟩).1 w pctx).1 = .cont)
    (sizes : List Nat)
    (drained : (StreamingResponseBody.copy ctxErr p sizes (.opened ⟨body, false⟩) w
      pctx).2.1.finished = true) :
    let upstream := (Sse.frames maxResponseBody ⟨body, false⟩).1
    let forward := (streamFrames ctxErr p upstream w pctx).1
    let reverse := (StreamingResponseBody.copy ctxErr p sizes (.opened ⟨body, false⟩) w pctx).1
    ((∀ cap, maxResponseBody < cap →
        Sse.frames cap ⟨forward, false⟩ = (upstream, .eof) ∧
          Sse.frames cap ⟨reverse, false⟩ = (upstream, .eof)) ∧
      ∀ frame ∈ upstream, frame ≠ []) ↔
    ∀ event ∈ events body, event.getLast? ≠ some [] := by
  intro upstream forward reverse
  have read : upstream = (events body).map payload := congrArg Prod.fst (Sse.frames_eq fits)
  have forwards : forward = Sse.forwarded body := by
    rw [Sse.forwarded, ← read]
    exact streamFrames_written accepted
  have reverses : reverse = Sse.forwarded body := by
    rw [Sse.forwarded, ← read]
    exact copy_written rfl accepted drained
  have reread {cap : Nat} (larger : maxResponseBody < cap) :
      Sse.frames cap ⟨Sse.forwarded body, false⟩ =
        ((events (Sse.forwarded body)).map payload, .eof) :=
    Sse.frames_eq (Sse.fits_forwarded fits (by decide) larger)
  rw [forwards, reverses, ← Sse.events_forwarded_iff, ← read]
  constructor
  · rintro ⟨same, -⟩
    have again := (same (maxResponseBody + 1) (Nat.lt_succ_self _)).1
    rw [reread (Nat.lt_succ_self _)] at again
    exact congrArg Prod.fst again
  · intro same
    refine ⟨fun cap larger => ?_, ?_⟩
    · rw [reread larger, same]
      exact ⟨rfl, rfl⟩
    · intro frame member
      have ends := (Sse.events_forwarded_iff body).mp (same.trans read)
      rw [read] at member
      obtain ⟨event, found, rfl⟩ := List.mem_map.mp member
      exact payload_ne_nil (mem_events event found).1 (ends event found)

theorem feed_empty (ctxErr : CtxErr W) (frames : List Bytes) (w : W) (pctx : Context) :
    feed ctxErr [] frames w pctx = (.cont, w, pctx) := by
  induction frames with
  | nil => rfl
  | cons frame rest ih => exact ih

def twoEvents : Bytes := bytes "data: a\r\n: c\r\ndata:b\r\n\r\ndata: d\n\n"

/-- A stream of two events. -/
theorem forwarding_transparent_twoEvents :
    (∀ event ∈ events twoEvents, event.getLast? ≠ some []) ∧
      Sse.frames (maxResponseBody + 1)
          ⟨(streamFrames (fun w => (false, w)) [] (Sse.frames maxResponseBody ⟨twoEvents, false⟩).1
            () streamRequest).1, false⟩ =
        ((Sse.frames maxResponseBody ⟨twoEvents, false⟩).1, .eof) := by
  have ends : ∀ event ∈ events twoEvents, event.getLast? ≠ some [] := by decide +kernel
  have transparent := forwarding_transparent_iff (fun w : Unit => (false, w)) []
    (by decide +kernel : Sse.Fits maxResponseBody twoEvents) () streamRequest
    (congrArg Prod.fst (feed_empty _ _ _ _)) [64, 64, 64] (by decide +kernel)
  exact ⟨ends, ((transparent.mpr ends).1 _ (Nat.lt_succ_self _)).1⟩

/-- An event with one empty data line is read as an empty frame and gets lost, and an empty
data line at the end of an event gets lost. -/
theorem empty_data_lost :
    Sse.frames maxResponseBody ⟨bytes "data:\n\n", false⟩ = ([[]], .eof) ∧
      Sse.frames maxResponseBody ⟨Sse.writeSSEFrame [], false⟩ = ([], .eof) ∧
      Sse.frames maxResponseBody ⟨bytes "data: a\ndata:\n\n", false⟩ = ([bytes "a\n"], .eof) ∧
      Sse.frames maxResponseBody ⟨Sse.writeSSEFrame (bytes "a\n"), false⟩ =
        ([bytes "a"], .eof) := by
  decide +kernel

end Pipeline

end Kagenti.AuthBridge
