import Kagenti.AuthBridge.EventForwarding
import Kagenti.AuthBridge.Turns

/-!
The two ways in which a2a-parser reads a streamed answer: event by event, as the frames arrive, and
line by line from the whole body.
-/

namespace Kagenti.AuthBridge

open Go Lib.EventStream

/-! One event in both decoders -/

def sendResult (data : Bytes) : Option SendResult :=
  unmarshal SendResult.into ⟨"", .nil, .nil, ""⟩ data

def streamEvent (data : Bytes) : Option StreamEvent :=
  unmarshal StreamEvent.into ⟨"", false, "", "", .nil, .nil⟩ data

def SendResult.shared (r : SendResult) : String × Slice TextPart × String :=
  (r.state, r.messageParts, r.taskID)

def StreamEvent.shared (e : StreamEvent) : String × Slice TextPart × String :=
  (e.state, e.messageParts, e.taskID)

open Into in
theorem keeps_shared :
    Keeps (fun r e => r.shared = e.shared) SendResult.into StreamEvent.into := by
  refine keeps_struct (keeps_member_of_forall₂ (.cons ⟨rfl, keeps_struct fun key => ?_⟩ .nil))
  by_cases status : foldName "status" = foldName key
  · rw [member_of_foldName (by decide +kernel) (.head _) status,
      member_of_foldName (by decide +kernel) (.tail _ (.tail _ (.tail _ (.head _)))) status]
    refine keeps_struct (keeps_member_of_forall₂ (.cons ⟨rfl, ?_⟩ (.cons ⟨rfl, ?_⟩ .nil)))
    · exact keeps_field string (fun _ _ same => congrArg (·.1) same)
        fun _ _ v same => congrArg (fun shared => (v, shared.2)) same
    · refine keeps_struct (keeps_member_of_forall₂ (.cons ⟨rfl, ?_⟩ .nil))
      exact keeps_field partsInto (fun _ _ same => congrArg (·.2.1) same)
        fun _ _ v same => congrArg (fun shared => (shared.1, v, shared.2.2)) same
  · by_cases task : foldName "taskId" = foldName key
    · rw [member_of_foldName (by decide +kernel) (.tail _ (.tail _ (.head _))) task,
        member_of_foldName (by decide +kernel) (.tail _ (.tail _ (.head _))) task]
      exact keeps_field string (fun _ _ same => congrArg (·.2.2) same)
        fun _ _ v same => congrArg (fun shared => (shared.1, shared.2.1, v)) same
    -- A member of any other name goes to a field that only one of the decoders has.
    · refine keeps_of_preserves (preserves_member ?_) (preserves_member ?_)
      · simp only [List.forall_mem_cons]
        refine ⟨fun same => absurd same status, fun _ => ?_, fun same => absurd same task, nofun⟩
        exact preserves_field _ fun _ _ => rfl
      · simp only [List.forall_mem_cons]
        refine ⟨fun _ => ?_, fun _ => ?_, fun same => absurd same task,
          fun same => absurd same status, fun _ => ?_, nofun⟩
        · exact preserves_field _ fun _ _ => rfl
        · exact preserves_field _ fun _ _ => rfl
        · refine preserves_struct (List.forall_mem_cons.mpr ⟨?_, nofun⟩)
          exact preserves_field _ fun _ _ => rfl

variable {data : Bytes} {r : SendResult} {e : StreamEvent}

theorem shared_eq (sent : sendResult data = some r) (event : streamEvent data = some e) :
    r.shared = e.shared := by
  obtain ⟨j, parsed, decoded⟩ := Option.bind_eq_some_iff.mp sent
  obtain ⟨j', parsed', decoded'⟩ := Option.bind_eq_some_iff.mp event
  obtain rfl := Option.some.inj (parsed.symm.trans parsed')
  exact keeps_shared rfl decoded decoded'

/-- The state in a status update that is the last one of its stream. -/
def finalState (data : Bytes) : Option String :=
  match streamEvent data with
  | some e => if e.kind = "status-update" ∧ e.final = true then some e.state else none
  | none => none

def StatusIsFinal (data : Bytes) : Prop :=
  ∀ r, sendResult data = some r → r.state ≠ "" →
    (finalState data).isSome ∧ r.artifacts.toList.flatMap partTexts = []

theorem finalStatus_extractStreamEvent (data : Bytes) (ext : A2AExtension) :
    (extractStreamEvent data ext).finalStatus = (finalState data).getD ext.finalStatus := by
  fun_cases extractStreamEvent data ext <;> simp +zetaDelta [finalState, streamEvent, *]

theorem extractStreamEvent_of_final (event : streamEvent data = some e)
    (final : (finalState data).isSome) (ext : A2AExtension) : extractStreamEvent data ext =
      { ext with
        taskID := if ext.taskID = "" ∧ e.taskID ≠ "" then e.taskID else ext.taskID
        finalStatus := e.state
        errorMessage :=
          if e.state = "failed" then ((partTexts e.messageParts).head?).getD ext.errorMessage
          else ext.errorMessage } := by
  unfold finalState at final
  rw [event] at final
  have both : e.kind = "status-update" ∧ e.final = true := by grind
  unfold extractStreamEvent
  unfold streamEvent at event
  rw [event]
  dsimp only
  rw [if_pos both.1, if_pos both.2]

theorem artifact_extractStreamEvent (final : (finalState data).isSome) (ext : A2AExtension) :
    (extractStreamEvent data ext).artifact = ext.artifact := by
  cases event : streamEvent data with
  | none => simp [finalState, event] at final
  | some e => rw [extractStreamEvent_of_final event final]

theorem ne_empty_of_mem_partTexts {parts : Slice TextPart} {t : String} (mem : t ∈ partTexts parts) :
    t ≠ "" := by
  obtain ⟨part, kept, rfl⟩ := List.mem_map.mp mem
  have shown := (List.mem_filter.mp kept).2
  exact (of_decide_eq_true shown).2

def SendResult.applied (r : SendResult) (ext : A2AExtension) : A2AExtension :=
  { ext with
    finalStatus := r.state
    taskID := if ext.taskID = "" ∧ r.taskID ≠ "" then r.taskID else ext.taskID
    artifact := ((r.artifacts.toList.flatMap partTexts).getLast?).getD ext.artifact
    errorMessage :=
      if r.state = "failed" then ((partTexts r.messageParts).head?).getD ext.errorMessage
      else ext.errorMessage }

variable {ext : A2AExtension} {ext' : A2AExtension}

theorem extractSendResponse_eq_some_iff : extractSendResponse data ext = some ext' ↔
      ∃ r, sendResult data = some r ∧ r.state ≠ "" ∧ r.applied ext = ext' := by
  unfold extractSendResponse sendResult
  cases unmarshal SendResult.into ⟨"", .nil, .nil, ""⟩ data with
  | none => simp
  | some r =>
    rw [Option.ite_none_left_eq_some]
    simp [SendResult.applied]

theorem extractSendResponse_eq (h : StatusIsFinal data)
    (sent : extractSendResponse data ext = some ext') : ext' = extractStreamEvent data ext := by
  obtain ⟨r, decoded, stated, rfl⟩ := extractSendResponse_eq_some_iff.mp sent
  obtain ⟨final, texts⟩ := h r decoded stated
  cases event : streamEvent data with
  | none => simp [finalState, event] at final
  | some e =>
    have same := shared_eq decoded event
    have state : r.state = e.state := congrArg (·.1) same
    have parts : r.messageParts = e.messageParts := congrArg (·.2.1) same
    have task : r.taskID = e.taskID := congrArg (·.2.2) same
    unfold SendResult.applied
    rw [extractStreamEvent_of_final event final, texts, state, parts, task]
    rfl

/-! Session ids -/

theorem adoptSessionID_empty (ext : A2AExtension) : ext.adoptSessionID "" = ext :=
  if_neg fun found => found.2 rfl

theorem adoptSessionID_adoptSessionID (ext : A2AExtension) (first second : String) :
    (ext.adoptSessionID first).adoptSessionID second =
      ext.adoptSessionID (if first = "" then second else first) := by
  unfold A2AExtension.adoptSessionID
  grind

theorem finalStatus_adoptSessionID (ext : A2AExtension) (found : String) :
    (ext.adoptSessionID found).finalStatus = ext.finalStatus := by
  unfold A2AExtension.adoptSessionID
  split <;> rfl

theorem artifact_adoptSessionID (ext : A2AExtension) (found : String) :
    (ext.adoptSessionID found).artifact = ext.artifact := by
  unfold A2AExtension.adoptSessionID
  split <;> rfl

theorem extractStreamEvent_setSessionID (data : Bytes) (ext : A2AExtension) (id : String) :
    extractStreamEvent data { ext with sessionID := id } =
      { extractStreamEvent data ext with sessionID := id } := by
  fun_cases extractStreamEvent data ext <;> simp +zetaDelta [extractStreamEvent, *]

theorem extractStreamEvent_adoptSessionID (data : Bytes) (ext : A2AExtension) (id : String) :
    extractStreamEvent data (ext.adoptSessionID id) =
      (extractStreamEvent data ext).adoptSessionID id := by
  unfold A2AExtension.adoptSessionID
  rw [sessionID_extractStreamEvent]
  split
  · exact extractStreamEvent_setSessionID data ext id
  · rfl

def firstSessionID (events : List Bytes) : String :=
  ((events.map sessionIDFromJSON).find? (· ≠ "")).getD ""

theorem firstSessionID_cons (event : Bytes) (rest : List Bytes) :
    firstSessionID (event :: rest) =
      if sessionIDFromJSON event = "" then firstSessionID rest else sessionIDFromJSON event := by
  unfold firstSessionID
  rw [List.map_cons, List.find?_cons]
  grind

/-! Event by event -/

theorem extractStreamEvent_nil (ext : A2AExtension) : extractStreamEvent [] ext = ext := by
  have undecoded : unmarshal StreamEvent.into ⟨"", false, "", "", .nil, .nil⟩ [] = none := by
    decide +kernel
  unfold extractStreamEvent
  rw [undecoded]

theorem foldFrame_eq (h : StatusIsFinal data) (ext : A2AExtension) : ext.foldFrame data =
      (extractStreamEvent data ext).adoptSessionID (sessionIDFromJSON data) := by
  unfold A2AExtension.foldFrame
  split
  next empty => rw [empty, extractStreamEvent_nil, sessionIDFromJSON_nil, adoptSessionID_empty]
  · cases sent : extractSendResponse data ext with
    | none => rfl
    | some ext' => rw [extractSendResponse_eq h sent]; rfl

theorem foldFrame_of_sendResult (decoded : sendResult data = some r) (stated : r.state ≠ "")
    (ext : A2AExtension) :
    ext.foldFrame data = (r.applied ext).adoptSessionID (sessionIDFromJSON data) := by
  have nonempty : data ≠ [] := by
    rintro rfl
    have undecoded : Json.parse [] = none := rfl
    simp [sendResult, unmarshal, undecoded] at decoded
  have sent : extractSendResponse data ext = some (r.applied ext) :=
    extractSendResponse_eq_some_iff.mpr ⟨r, decoded, stated, rfl⟩
  unfold A2AExtension.foldFrame
  rw [if_neg nonempty, sent]
  rfl

variable {events : List Bytes}

theorem foldl_foldFrame_eq (h : ∀ data ∈ events, StatusIsFinal data) (ext : A2AExtension) :
    events.foldl A2AExtension.foldFrame ext =
      events.foldl (fun ext data => extractStreamEvent data ext)
        (ext.adoptSessionID (firstSessionID events)) := by
  induction events generalizing ext with
  | nil => exact (adoptSessionID_empty ext).symm
  | cons data rest ih =>
    obtain ⟨here, later⟩ := List.forall_mem_cons.mp h
    rw [List.foldl_cons, List.foldl_cons, ih later, foldFrame_eq here,
      adoptSessionID_adoptSessionID, extractStreamEvent_adoptSessionID, firstSessionID_cons]

theorem finalStatus_foldl (events : List Bytes) (ext : A2AExtension) :
    let status := (events.foldl (fun ext data => extractStreamEvent data ext) ext).finalStatus
    status = ext.finalStatus ∨ ∃ data ∈ events, finalState data = some status := by
  induction events generalizing ext with
  | nil => exact .inl rfl
  | cons data rest ih =>
    dsimp only [List.foldl_cons]
    rcases ih (extractStreamEvent data ext) with kept | ⟨later, mem, state⟩
    · rw [kept, finalStatus_extractStreamEvent]
      cases state : finalState data with
      | none => exact .inl rfl
      | some s => exact .inr ⟨data, List.mem_cons_self, state⟩
    · exact .inr ⟨later, List.mem_cons_of_mem _ mem, state⟩

variable {pctx : Context}

theorem respondedWith_of_none (h : pctx.extensions.a2a = none) (calls : List (Bytes × Bool)) :
    respondedWith pctx calls = pctx := by
  induction calls with
  | nil => rfl
  | cons call rest ih =>
    have unchanged : a2aParserOnResponseFrame call.1 call.2 pctx = pctx := by
      unfold a2aParserOnResponseFrame
      rw [h]
    unfold respondedWith at ih ⊢
    rw [List.foldl_cons, unchanged, ih]

theorem a2a_respondedWith_eq (h : pctx.extensions.a2a = some ext) (calls : List (Bytes × Bool)) :
    (respondedWith pctx calls).extensions.a2a =
      some ((calls.map Prod.fst).foldl A2AExtension.foldFrame ext) := by
  induction calls generalizing pctx ext with
  | nil => exact h
  | cons call rest ih => exact ih (a2a_onResponseFrame h call.1 call.2)

/-! The whole body -/

structure OneLine (data : Bytes) : Prop where
  breakFree : BreakFree data
  trimmed : trimSpaceBytes data = data

/-- A response body with one data line in each event. -/
def eventStream (events : List Bytes) : Bytes := events.flatMap fun data => print [data]

def lineData (line : Bytes) : Option Bytes :=
  let line := trimSpaceBytes line
  if (bytes "data:").isPrefixOf line then some (trimSpaceBytes (line.drop 5)) else none

theorem lineData_dataPrefix (trimmed : trimSpaceBytes data = data) :
    lineData (dataPrefix ++ data) = some data := by
  by_cases empty : data = []
  · subst empty
    decide +kernel
  · have line : trimSpaceBytes (dataPrefix ++ data) = dataPrefix ++ data :=
      trimSpaceBytes_append 0x64 (bytes "ata:") (by decide) empty trimmed
    unfold lineData
    rw [line]
    exact congrArg some (trimSpaceBytes_blank_cons trimmed)

theorem sseData_append {line : Bytes} (whole : lf ∉ line) (rest : Bytes) :
    sseData (line ++ lf :: rest) = (lineData line).toList ++ sseData rest := by
  have split : splitBytes 0x0A (line ++ lf :: rest) = line :: splitBytes 0x0A rest :=
    splitBytes_append whole rest
  change (splitBytes 0x0A (line ++ lf :: rest)).filterMap lineData = _
  rw [split, List.filterMap_cons]
  cases lineData line <;> rfl

/-- The body of a stream is no JSON text. -/
theorem parse_eventStream : Json.parse (eventStream events) = none := by
  cases events with
  | nil => decide +kernel
  | cons data rest => rfl

section

variable (h : ∀ data ∈ events, OneLine data)

include h

theorem sseData_eventStream : sseData (eventStream events) = events := by
  induction events with
  | nil => decide +kernel
  | cons data rest ih =>
    obtain ⟨here, later⟩ := List.forall_mem_cons.mp h
    have lines : eventStream (data :: rest) =
        (dataPrefix ++ data) ++ lf :: ([] ++ lf :: eventStream rest) := by
      simp [eventStream, print]
    have blank : lineData [] = none := by decide +kernel
    rw [lines, sseData_append (breakFree_dataPrefix here.breakFree).1,
      sseData_append List.not_mem_nil, lineData_dataPrefix here.trimmed, blank, ih later]
    rfl

/-- The reader of the proxies hands out the payloads, one by one. -/
theorem frames_eventStream {maxSize : Nat} (fits : Sse.Fits maxSize (eventStream events)) :
    Sse.frames maxSize ⟨eventStream events, false⟩ = (events, .eof) := by
  have printed : eventStream events = (events.map fun data => [data]).flatMap print :=
    (List.flatMap_map ..).symm
  have read : Lib.EventStream.events (eventStream events) = events.map fun data => [data] := by
    rw [printed, events_flatMap_print (by simpa using fun data mem => (h data mem).breakFree)]
    exact List.filter_eq_self.mpr (by simp)
  rw [Sse.frames_eq fits, read, List.map_map]
  exact congrArg (·, _) (List.map_id'' payload_singleton events)

theorem extractSessionID_eventStream :
    extractSessionID (eventStream events) = firstSessionID events := by
  have undecoded : sessionIDFromJSON (eventStream events) = "" := by
    unfold sessionIDFromJSON unmarshal
    rw [parse_eventStream]
    rfl
  unfold extractSessionID firstSessionID
  rw [undecoded, sseData_eventStream h]
  rfl

theorem extractResponseSummary_eventStream (ext : A2AExtension) :
    extractResponseSummary (eventStream events) ext =
      events.foldl (fun ext data => extractStreamEvent data ext) ext := by
  have undecoded : extractSendResponse (eventStream events) ext = none := by
    unfold extractSendResponse unmarshal
    rw [parse_eventStream]
    rfl
  have skipped : (fun ext data => if data = [] then ext else extractStreamEvent data ext) =
      fun (ext : A2AExtension) data => extractStreamEvent data ext := by
    funext ext data
    split
    next empty => rw [empty, extractStreamEvent_nil]
    · rfl
  unfold extractResponseSummary
  rw [undecoded, sseData_eventStream h, skipped]

end

/-! Both paths -/

def streamed (pctx : Context) (events : List Bytes) : Option A2AExtension :=
  (respondedWith pctx (events.map (·, false) ++ [([], true)])).extensions.a2a

/-- The extension behind OnResponse with the body of the stream. -/
def buffered (pctx : Context) (events : List Bytes) : Option A2AExtension :=
  (a2aParserOnResponse { pctx with responseBody := eventStream events }).extensions.a2a

def Context.Unanswered (pctx : Context) : Prop :=
  ∀ ext, pctx.extensions.a2a = some ext →
    ext.finalStatus = "" ∧ ext.artifact = "" ∧ ext.errorMessage = ""

def A2AExtension.response (ext : A2AExtension) : String × String × String × String × String :=
  (ext.finalStatus, ext.artifact, ext.errorMessage, ext.sessionID, ext.taskID)

structure PathsAgree (pctx : Context) (events : List Bytes) : Prop where
  response :
    (streamed pctx events).map A2AExtension.response = (buffered pctx events).map A2AExtension.response
  final : ∀ ext, streamed pctx events = some ext → ext.finalStatus ≠ "" →
    ∃ data ∈ events, finalState data = some ext.finalStatus

theorem streamed_eq (h : pctx.extensions.a2a = some ext) (events : List Bytes) :
    streamed pctx events = some (events.foldl A2AExtension.foldFrame ext) := by
  have frames : (events.map (·, false) ++ [([], true)]).map Prod.fst = events ++ [[]] := by
    simp [Function.comp_def]
  unfold streamed
  rw [a2a_respondedWith_eq h, frames, List.foldl_append]
  rfl

theorem buffered_eq (unanswered : pctx.Unanswered) (h : pctx.extensions.a2a = some ext)
    (lines : ∀ data ∈ events, OneLine data) : buffered pctx events =
      some (events.foldl (fun ext data => extractStreamEvent data ext)
        (ext.adoptSessionID (firstSessionID events))) := by
  obtain ⟨status, artifact, error⟩ := unanswered ext h
  unfold buffered a2aParserOnResponse
  rw [h]
  dsimp only
  rw [if_neg (by simp [status, artifact, error])]
  split
  next empty =>
    have none : events = [] := by
      cases events with
      | nil => rfl
      | cons data rest => cases empty
    subst none
    exact (Context.record_a2a _ _ _ _).trans (h.trans (congrArg some (adoptSessionID_empty ext).symm))
  · rw [extractSessionID_eventStream lines, extractResponseSummary_eventStream lines]
    exact Context.record_a2a _ _ _ _

theorem pathsAgree_of_none (h : pctx.extensions.a2a = none) (events : List Bytes) :
    PathsAgree pctx events := by
  have nothing : streamed pctx events = none := by
    unfold streamed
    rw [respondedWith_of_none h, h]
  have nothing' : buffered pctx events = none := by
    unfold buffered a2aParserOnResponse
    rw [h]
    exact h
  refine ⟨by rw [nothing, nothing'], fun ext found => ?_⟩
  cases nothing.symm.trans found

theorem pathsAgree_of_forall (unanswered : pctx.Unanswered) (lines : ∀ data ∈ events, OneLine data)
    (h : ∀ data ∈ events, StatusIsFinal data) : PathsAgree pctx events := by
  cases extension : pctx.extensions.a2a with
  | none => exact pathsAgree_of_none extension events
  | some ext =>
    have same : streamed pctx events = buffered pctx events := by
      rw [streamed_eq extension, buffered_eq unanswered extension lines, foldl_foldFrame_eq h]
    refine ⟨congrArg _ same, fun ext' found set => ?_⟩
    rw [same, buffered_eq unanswered extension lines] at found
    obtain rfl := Option.some.inj found
    rcases finalStatus_foldl events (ext.adoptSessionID (firstSessionID events)) with kept | final
    · rw [finalStatus_adoptSessionID, (unanswered ext extension).1] at kept
      exact absurd kept set
    · exact final

theorem statusIsFinal_of_pathsAgree (unanswered : pctx.Unanswered)
    (extension : pctx.extensions.a2a = some ext) (line : OneLine data)
    (agree : PathsAgree pctx [data]) : StatusIsFinal data := by
  intro r decoded stated
  obtain ⟨status, artifact, -⟩ := unanswered ext extension
  have sent : streamed pctx [data] =
      some ((r.applied ext).adoptSessionID (sessionIDFromJSON data)) := by
    rw [streamed_eq extension]
    exact congrArg some (foldFrame_of_sendResult decoded stated ext)
  have final : finalState data = some r.state := by
    obtain ⟨data', mem, state⟩ := agree.final _ sent
      (by rw [finalStatus_adoptSessionID]; exact stated)
    rw [List.mem_singleton.mp mem, finalStatus_adoptSessionID] at state
    exact state
  have ends : (finalState data).isSome := by rw [final]; rfl
  refine ⟨ends, ?_⟩
  -- A final status update sets no artifact, so what the event brings as one must be empty.
  have same : (r.artifacts.toList.flatMap partTexts).getLast?.getD "" = "" := by
    have response := agree.response
    rw [sent, buffered_eq unanswered extension (List.forall_mem_singleton.mpr line)] at response
    have artifacts := congrArg (·.2.1) (Option.some.inj response)
    dsimp only [A2AExtension.response, List.foldl_cons, List.foldl_nil] at artifacts
    rw [artifact_adoptSessionID, artifact_extractStreamEvent ends, artifact_adoptSessionID,
      artifact] at artifacts
    rw [← artifact]
    exact artifacts.trans artifact.symm
  cases last : (r.artifacts.toList.flatMap partTexts).getLast? with
  | none => exact List.getLast?_eq_none_iff.mp last
  | some t =>
    obtain ⟨parts, -, mem⟩ := List.mem_flatMap.mp (List.mem_of_getLast? last)
    rw [last] at same
    exact absurd same (ne_empty_of_mem_partTexts mem)

def streamingRequest : Context :=
  (Context.ofRequest .inbound "POST" "http" "agent:8080" (bytes "/") ∅ []).setA2A
    (some (.ofRequest ⟨"message/stream", .null, none⟩))

theorem unanswered_streamingRequest : streamingRequest.Unanswered := by
  intro ext found
  obtain rfl := Option.some.inj found
  exact ⟨rfl, rfl, rfl⟩

/-- Both paths read all streams over a class of events alike exactly if no event of the class
but a final status update has a status, and that one brings no artifact texts. -/
theorem paths_agree_iff {K : Set Bytes} (lines : ∀ data ∈ K, OneLine data) :
    (∀ events : List Bytes, (∀ data ∈ events, data ∈ K) →
      ∀ pctx : Context, pctx.Unanswered → PathsAgree pctx events) ↔
      ∀ data ∈ K, StatusIsFinal data := by
  constructor
  · intro agree data mem
    exact statusIsFinal_of_pathsAgree unanswered_streamingRequest rfl (lines data mem)
      (agree [data] (List.forall_mem_singleton.mpr mem) _ unanswered_streamingRequest)
  · intro final events inside pctx unanswered
    exact pathsAgree_of_forall unanswered (fun data mem => lines data (inside data mem))
      fun data mem => final data (inside data mem)

def workingUpdate : Bytes :=
  bytes "\x7b\"result\":\x7b\"kind\":\"status-update\",\"status\":\x7b\"state\":\"working\"\x7d\x7d\x7d"

def completedUpdate : Bytes :=
  bytes ("\x7b\"result\":\x7b\"kind\":\"status-update\",\"final\":true," ++
    "\"status\":\x7b\"state\":\"completed\"\x7d\x7d\x7d")

def artifactUpdate : Bytes :=
  bytes ("\x7b\"result\":\x7b\"kind\":\"artifact-update\",\"artifact\":" ++
    "\x7b\"parts\":[\x7b\"kind\":\"text\",\"text\":\"done\"\x7d]\x7d\x7d\x7d")

theorem oneLine_completedUpdate : OneLine completedUpdate := by
  rw [completedUpdate, bytes_eq_toByteArray]
  exact ⟨⟨by decide +kernel, by decide +kernel⟩, by decide +kernel⟩

theorem oneLine_artifactUpdate : OneLine artifactUpdate := by
  rw [artifactUpdate, bytes_eq_toByteArray]
  exact ⟨⟨by decide +kernel, by decide +kernel⟩, by decide +kernel⟩

theorem statusIsFinal_completedUpdate : StatusIsFinal completedUpdate := by
  intro r decoded _
  have ends : (finalState completedUpdate).isSome := by
    rw [completedUpdate, bytes_eq_toByteArray]
    decide +kernel
  have texts : (sendResult completedUpdate).map
      (fun r => r.artifacts.toList.flatMap partTexts) = some [] := by
    rw [completedUpdate, bytes_eq_toByteArray]
    decide +kernel
  rw [decoded] at texts
  exact ⟨ends, Option.some.inj texts⟩

theorem statusIsFinal_artifactUpdate : StatusIsFinal artifactUpdate := by
  intro r decoded stated
  have stateless : (sendResult artifactUpdate).map SendResult.state = some "" := by
    rw [artifactUpdate, bytes_eq_toByteArray]
    decide +kernel
  rw [decoded] at stateless
  exact absurd (Option.some.inj stateless) stated

/-- A task that sends an artifact and completes. -/
theorem paths_agree_on_completion :
    PathsAgree streamingRequest [artifactUpdate, completedUpdate] := by
  have lines : ∀ data ∈ [artifactUpdate, completedUpdate], OneLine data :=
    List.forall_mem_cons.mpr ⟨oneLine_artifactUpdate,
      List.forall_mem_singleton.mpr oneLine_completedUpdate⟩
  have final : ∀ data ∈ [artifactUpdate, completedUpdate], StatusIsFinal data :=
    List.forall_mem_cons.mpr ⟨statusIsFinal_artifactUpdate,
      List.forall_mem_singleton.mpr statusIsFinal_completedUpdate⟩
  exact (paths_agree_iff (K := {data | data ∈ [artifactUpdate, completedUpdate]}) lines).mpr final _
    (fun _ mem => mem) _ unanswered_streamingRequest

/-- The stream breaks off behind an update that is not final: its state is the final status of
the streaming path, and the buffered path has none. -/
theorem working_is_final_status :
    OneLine workingUpdate ∧ streamingRequest.Unanswered ∧ finalState workingUpdate = none ∧
      (streamed streamingRequest [workingUpdate]).map A2AExtension.finalStatus = some "working" ∧
      (buffered streamingRequest [workingUpdate]).map A2AExtension.finalStatus = some "" ∧
      ¬ PathsAgree streamingRequest [workingUpdate] := by
  rw [workingUpdate, bytes_eq_toByteArray]
  refine ⟨⟨⟨by decide +kernel, by decide +kernel⟩, by decide +kernel⟩, unanswered_streamingRequest,
    by decide +kernel, by decide +kernel, by decide +kernel, fun agree => ?_⟩
  have same := congrArg (Option.map Prod.fst) agree.response
  exact absurd same (by decide +kernel)

end Kagenti.AuthBridge
