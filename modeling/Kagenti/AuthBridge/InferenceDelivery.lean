import Kagenti.AuthBridge.ResponsePaths
import Mathlib.Data.List.Induction

/-!
What inference-parser records of a response. The request's `stream` flag decides whether it reads
one JSON object or chunks; the listener hands over the whole body or one event at a time.
-/

namespace Kagenti.AuthBridge

open Go

structure Totals where
  completion : String
  finishReason : String
  usage : InferenceUsage
  deriving DecidableEq

def InferenceExtension.totals (ext : InferenceExtension) : Totals :=
  ⟨ext.completion, ext.finishReason, ⟨ext.promptTokens, ext.completionTokens, ext.totalTokens⟩⟩

inductive InferenceReply where
  | object (body : Bytes)
  | stream (events : List Bytes)

/-- How a listener hands on an event stream. -/
inductive StreamMode where
  | whole
  | framed
  deriving DecidableEq

namespace InferenceReply

def isStream : InferenceReply → Bool
  | .object _ => false
  | .stream _ => true

def decodeObject (body : Bytes) : Option InferenceResponse :=
  unmarshal InferenceResponse.into ⟨.nil, 0, 0, 0⟩ body

/-- The chunk of an event. The marker of the end is none. -/
def chunk (data : Bytes) : Option StreamChunk :=
  if data = [] ∨ trimSpaceBytes data = doneMarker then none else StreamChunk.decode data

def Valid : InferenceReply → Prop
  | .object body => (decodeObject body).isSome
  | .stream events => ∀ data ∈ events, OneLine data

def objectTotals (resp : InferenceResponse) : Totals where
  completion := (resp.choices.toList.head?.map RespChoice.content).getD ""
  finishReason := (resp.choices.toList.head?.map RespChoice.finishReason).getD ""
  usage := resp.usage

def streamTotals (chunks : List StreamChunk) : Totals :=
  let choices := chunks.flatMap fun c => c.choices.toList
  { completion := String.join (choices.map StreamChoice.content)
    finishReason := ((choices.map StreamChoice.finishReason).filter (· ≠ "")).getLast?.getD ""
    usage := ((chunks.map StreamChunk.usage).filter (0 < ·.totalTokens)).getLast?.getD ⟨0, 0, 0⟩ }

def totals : InferenceReply → Option Totals
  | .object body => (decodeObject body).map objectTotals
  | .stream events => some (streamTotals (events.filterMap chunk))

/-- The calls of `OnResponseFrame`. Only event streams come in frames. -/
def calls (mode : StreamMode) : InferenceReply → List (Bytes × Bool)
  | .object body => [(body, true)]
  | .stream events =>
    match mode with
    | .whole => [(eventStream events, true)]
    | .framed => events.map (·, false) ++ [([], true)]

end InferenceReply

open InferenceReply

def inferenceRecorded (pctx : Context) (calls : List (Bytes × Bool)) : Option Totals :=
  (calls.foldl (fun pctx call => inferenceParserOnResponseFrame call.1 call.2 pctx)
    pctx).extensions.inference.map InferenceExtension.totals

structure Context.AwaitsInference (pctx : Context) (ext : InferenceExtension) : Prop where
  inference : pctx.extensions.inference = some ext
  totals : ext.totals = ⟨"", "", 0, 0, 0⟩
  stream : pctx.extensions.inferenceStream = none

/-! Chunks -/

variable (chunks : List StreamChunk) (c : StreamChunk)

theorem completion_eq (sofar : String) :
    c.completion sofar = sofar ++ String.join (c.choices.toList.map StreamChoice.content) := by
  unfold StreamChunk.completion
  induction c.choices.toList generalizing sofar with
  | nil => simp
  | cons choice rest ih =>
    rw [List.foldl_cons, ih, List.map_cons, String.join_cons, String.append_assoc]

theorem finishReason_eq (old : String) : c.finishReason old =
    ((c.choices.toList.map StreamChoice.finishReason).filter (· ≠ "")).getLast?.getD old := by
  unfold StreamChunk.finishReason
  induction c.choices.toList using List.reverseRecOn with
  | nil => rfl
  | append_singleton rest choice ih =>
    rw [List.foldl_concat, ih]
    by_cases empty : choice.finishReason = "" <;> simp [empty]

theorem streamTotals_concat :
    streamTotals (chunks ++ [c]) =
      { completion := c.completion (streamTotals chunks).completion
        finishReason := c.finishReason (streamTotals chunks).finishReason
        usage := if 0 < c.usage.totalTokens then c.usage else (streamTotals chunks).usage } := by
  rw [completion_eq, finishReason_eq]
  unfold streamTotals
  simp only [List.flatMap_append, List.flatMap_singleton, List.map_append, List.filter_append,
    String.join_append, List.getLast?_append, Option.getD_or]
  by_cases used : 0 < c.usage.totalTokens <;> simp [used]

def Totals.scratch (t : Totals) : InferenceStreamState :=
  ⟨t.completion, t.usage.promptTokens, t.usage.completionTokens, t.usage.totalTokens⟩

theorem fold_scratch (ext : InferenceExtension) (chunks : List StreamChunk) (frame : Bytes) :
    let before := streamTotals chunks
    let after := streamTotals (chunks ++ (chunk frame).toList)
    before.scratch.fold { ext with finishReason := before.finishReason } frame =
      (after.scratch, { ext with finishReason := after.finishReason }) := by
  unfold InferenceStreamState.fold chunk
  split
  · simp
  · cases StreamChunk.decode frame with
    | none => simp
    | some c =>
      rw [Option.toList_some, streamTotals_concat]
      by_cases used : 0 < c.usage.totalTokens <;> simp [used, Totals.scratch]

structure Folded (ext : InferenceExtension) (seen : Totals) (now : Context) : Prop where
  inference : now.extensions.inference = some { ext with finishReason := seen.finishReason }
  stream : now.extensions.inferenceStream.getD ⟨"", 0, 0, 0⟩ = seen.scratch

variable {ext : InferenceExtension}

theorem Folded.step {chunks : List StreamChunk} {now : Context}
    (h : Folded ext (streamTotals chunks) now) (frame : Bytes) :
    Folded ext (streamTotals (chunks ++ (chunk frame).toList))
      (inferenceParserOnResponseFrame frame false now) := by
  unfold inferenceParserOnResponseFrame
  rw [h.inference]
  dsimp only
  rw [if_neg (by simp), h.stream, fold_scratch]
  exact ⟨rfl, rfl⟩

variable {pctx : Context}

theorem folded_foldl (h : pctx.AwaitsInference ext) (events : List Bytes) :
    Folded ext (streamTotals (events.filterMap chunk))
      ((events.map (·, false)).foldl
        (fun pctx call => inferenceParserOnResponseFrame call.1 call.2 pctx) pctx) := by
  induction events using List.reverseRecOn with
  | nil =>
    have unfinished : ext.finishReason = "" := congrArg Totals.finishReason h.totals
    have same : ext = { ext with finishReason := "" } := by rw [← unfinished]
    exact ⟨h.inference.trans (congrArg some same), congrArg (·.getD ⟨"", 0, 0, 0⟩) h.stream⟩
  | append_singleton events event ih =>
    rw [List.map_append, List.foldl_append, List.filterMap_append]
    have step := ih.step event
    cases found : chunk event <;> simpa [found] using step

theorem usage_streamTotals :
    0 < (streamTotals chunks).usage.totalTokens ∨ (streamTotals chunks).usage = ⟨0, 0, 0⟩ := by
  unfold streamTotals
  cases last : ((chunks.map StreamChunk.usage).filter (0 < ·.totalTokens)).getLast? with
  | none => exact .inr rfl
  | some usage =>
    have member := (List.mem_filter.mp (List.mem_of_getLast? last)).2
    exact .inl (of_decide_eq_true member)

theorem inference_recorded {ext : Option InferenceExtension} (silent : Prop) [Decidable silent]
    (reason reason' : String) : (if silent then (pctx.setInference ext).skip reason
      else (pctx.setInference ext).observe reason').extensions.inference = ext := by
  split
  · exact Context.record_inference ..
  · exact Context.record_inference ..

theorem recorded_framed (h : pctx.AwaitsInference ext) (streams : ext.stream = true)
    (events : List Bytes) : inferenceRecorded pctx ((stream events).calls .framed) =
      (stream events).totals := by
  have folded := folded_foldl h events
  have unused : (⟨ext.promptTokens, ext.completionTokens, ext.totalTokens⟩ : InferenceUsage) =
      ⟨0, 0, 0⟩ := congrArg Totals.usage h.totals
  have used := usage_streamTotals (events.filterMap chunk)
  unfold inferenceRecorded
  rw [calls, totals, List.foldl_append, List.foldl_cons, List.foldl_nil]
  generalize (events.map (·, false)).foldl _ pctx = now at folded ⊢
  generalize streamTotals (events.filterMap chunk) = t at folded used ⊢
  unfold inferenceParserOnResponseFrame
  rw [folded.inference]
  dsimp only
  rw [if_neg (by simp [streams]), if_pos rfl, folded.stream, inference_recorded]
  rcases used with used | unset
  · have scratch : 0 < t.scratch.totalTokens := used
    simp [InferenceStreamState.fold, scratch]
    rfl
  · have scratch : ¬0 < t.scratch.totalTokens := by simp [Totals.scratch, unset]
    simp [InferenceStreamState.fold, scratch, InferenceExtension.totals]
    rw [unused, ← unset]
    rfl

variable {body : Bytes}

theorem totals_parseInferenceJSON (h : ext.totals = ⟨"", "", 0, 0, 0⟩) {resp : InferenceResponse}
    (decoded : decodeObject body = some resp) :
    (parseInferenceJSON body ext).totals = objectTotals resp := by
  have unset : ext.completion = "" ∧ ext.finishReason = "" :=
    ⟨congrArg Totals.completion h, congrArg Totals.finishReason h⟩
  unfold decodeObject at decoded
  unfold parseInferenceJSON objectTotals
  rw [decoded]
  cases found : resp.choices.toList with
  | nil => simp [InferenceExtension.totals, InferenceExtension.setUsage, found, unset]
  | cons c rest => simp [InferenceExtension.totals, InferenceExtension.setUsage, found]

theorem recorded_object (h : pctx.AwaitsInference ext) (single : ext.stream = false)
    (valid : (decodeObject body).isSome) (mode : StreamMode) :
    inferenceRecorded pctx ((object body).calls mode) = (object body).totals := by
  obtain ⟨resp, decoded⟩ := Option.isSome_iff_exists.mp valid
  have nonempty : body ≠ [] := by
    rintro rfl
    exact absurd valid (by decide +kernel)
  have read : inferenceParserOnResponseFrame body true pctx =
      (pctx.setInference (some (parseInferenceJSON body ext))).observe
        ("matched_" ++ ext.model ++ "_response") := by
    unfold inferenceParserOnResponseFrame
    rw [h.inference]
    dsimp only
    rw [if_pos (by simp [single]), if_neg nonempty]
  change Option.map _ (inferenceParserOnResponseFrame body true pctx).extensions.inference = _
  rw [read, Context.observe, Context.record_inference, totals, decoded]
  exact congrArg some (totals_parseInferenceJSON h.totals decoded)

/-! Responses that are lost -/

def chatRequest (stream : Bool) : InferenceExtension where
  model := "m"
  messages := []
  stream := stream
  isAction := true

def chatContext (stream : Bool) : Context :=
  (Context.ofRequest .outbound "POST" "http" "llm" (bytes "/v1/chat/completions") ∅ []).setInference
    (some (chatRequest stream))

def messageObject : Bytes :=
  bytes "\x7b\"choices\":[\x7b\"message\":\x7b\"content\":\"hi\"\x7d\x7d]\x7d"

def deltaChunk : Bytes :=
  bytes "\x7b\"choices\":[\x7b\"delta\":\x7b\"content\":\"hi\"\x7d\x7d]\x7d"

theorem awaits_chatContext (stream : Bool) :
    (chatContext stream).AwaitsInference (chatRequest stream) := ⟨rfl, rfl, rfl⟩

theorem valid_messageObject : (object messageObject).Valid := by
  rw [messageObject, bytes_eq_toByteArray]
  unfold Valid
  decide +kernel

theorem valid_deltaChunk : (stream [deltaChunk]).Valid := by
  rw [deltaChunk, bytes_eq_toByteArray]
  exact List.forall_mem_singleton.mpr ⟨⟨by decide +kernel, by decide +kernel⟩, by decide +kernel⟩

theorem object_lost (mode : StreamMode) :
    inferenceRecorded (chatContext true) ((object messageObject).calls mode) ≠
      (object messageObject).totals := by
  rw [messageObject, bytes_eq_toByteArray]
  cases mode <;> decide +kernel

theorem stream_lost {flag : Bool} {mode : StreamMode} (h : flag = false ∨ mode = .whole) :
    inferenceRecorded (chatContext flag) ((stream [deltaChunk]).calls mode) ≠
      (stream [deltaChunk]).totals := by
  rw [deltaChunk, bytes_eq_toByteArray]
  rcases h with rfl | rfl
  · cases mode <;> decide +kernel
  · cases flag <;> decide +kernel

/-- A kind of response is recorded rightly just if the flag of the request tells its kind, and
streams come in frames. -/
theorem recorded_iff_mode (isStream flag : Bool) (mode : StreamMode) :
    (∀ reply : InferenceReply, reply.Valid → reply.isStream = isStream →
      ∀ pctx ext, pctx.AwaitsInference ext → ext.stream = flag →
        inferenceRecorded pctx (reply.calls mode) = reply.totals) ↔
      flag = isStream ∧ (isStream = true → mode = .framed) := by
  constructor
  · intro h
    cases isStream with
    | false =>
      refine ⟨?_, nofun⟩
      by_contra mismatch
      obtain rfl : flag = true := Bool.eq_true_of_not_eq_false mismatch
      exact object_lost mode (h _ valid_messageObject rfl _ _ (awaits_chatContext true) rfl)
    | true =>
      have right := h _ valid_deltaChunk rfl _ _ (awaits_chatContext flag) rfl
      refine ⟨?_, fun _ => ?_⟩
      · by_contra mismatch
        exact stream_lost (.inl (Bool.eq_false_of_not_eq_true mismatch)) right
      · cases mode with
        | framed => rfl
        | whole => exact absurd right (stream_lost (.inr rfl))
  · rintro ⟨rfl, framed⟩ reply valid kind pctx ext awaits flag
    cases reply with
    | object body => exact recorded_object awaits (flag.trans kind.symm) valid mode
    | stream events =>
      obtain rfl := framed kind.symm
      exact recorded_framed awaits (flag.trans kind.symm) events

/-- An object for a request that asked for a stream, a stream for one that did not, and a stream
in one piece: nothing is kept of the text. -/
theorem replies_lost :
    ((object messageObject).Valid ∧
      inferenceRecorded (chatContext true) ((object messageObject).calls .whole) ≠
        (object messageObject).totals) ∧
    (stream [deltaChunk]).Valid ∧
      inferenceRecorded (chatContext false) ((stream [deltaChunk]).calls .framed) ≠
        (stream [deltaChunk]).totals ∧
      inferenceRecorded (chatContext true) ((stream [deltaChunk]).calls .whole) ≠
        (stream [deltaChunk]).totals :=
  ⟨⟨valid_messageObject, object_lost .whole⟩, valid_deltaChunk, stream_lost (.inl rfl),
    stream_lost (.inr rfl)⟩

end Kagenti.AuthBridge
