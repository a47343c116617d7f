import Kagenti.AuthBridge.ResponsePaths
import Mathlib.Data.List.Induction

/-!
What mcp-parser keeps of a streamed response. Frame by frame, it keeps the last result and the last
error; from a whole body it takes the first envelope.
-/

namespace Kagenti.AuthBridge

open Go

/-- The envelope of a message: `none` for notifications and for what is no JSON-RPC. -/
def envelope (data : Bytes) : Option JSONRPCResponse :=
  if data = [] then none else (JSONRPCResponse.decode data).filter JSONRPCResponse.isEnvelope

/-- The result of an envelope, or its error, which comes first. -/
def JSONRPCResponse.answer (rpc : JSONRPCResponse) : Option (AnyMap ⊕ MCPError) :=
  (rpc.error.map .inr).or (rpc.result.map .inl)

def answers (messages : List Bytes) : List (AnyMap ⊕ MCPError) :=
  (messages.filterMap envelope).filterMap JSONRPCResponse.answer

/-- The reasons of the rows with the action `observe`. -/
def Context.observed (pctx : Context) : List String :=
  let invocations :=
    match pctx.direction with
    | .inbound => pctx.extensions.invocations.inbound
    | .outbound => pctx.extensions.invocations.outbound
  (invocations.filter (·.action = .observe)).map Invocation.reason

def mcpStreamed (pctx : Context) (frames : List Bytes) : Context :=
  mcpParserOnResponseFrame [] true
    (frames.foldl (fun pctx frame => mcpParserOnResponseFrame frame false pctx) pctx)

def MCPExtension.answered (ext : MCPExtension) : Option AnyMap × Option MCPError :=
  (ext.result, ext.err)

def Context.answered (pctx : Context) : Option (Option AnyMap × Option MCPError) :=
  pctx.extensions.mcp.map MCPExtension.answered

structure Recorded (pctx : Context) (ext : MCPExtension) (frames : List Bytes) (body : Bytes) :
    Prop where
  exclusive : answers frames ≠ [] → ∃ result err, (mcpStreamed pctx frames).answered =
    some (result, err) ∧ (result.isSome ↔ err.isNone)
  buffered : (mcpStreamed pctx frames).answered =
    (mcpParserOnResponse { pctx with responseBody := body }).answered
  rows : ∃ rows, rows.length ≤ maxStreamObserves ∧ (mcpStreamed pctx frames).observed =
    pctx.observed ++ rows ++
      if maxStreamObserves < (answers frames).length then
        ["matched_" ++ ext.method ++ "_response_truncated"]
      else []

structure Context.Awaits (pctx : Context) (ext : MCPExtension) : Prop where
  mcp : pctx.extensions.mcp = some ext
  unanswered : ext.answered = (none, none)
  stream : pctx.extensions.mcpStream = none
  inFinish : pctx.inFinish = false

/-! One frame -/

namespace Context

theorem inFinish_record (pctx : Context) (action : InvocationAction) (reason : String)
    (details : List (String × String)) :
    (pctx.record action reason details).inFinish = pctx.inFinish := by
  obtain ⟨invocations, recorded⟩ := pctx.record_eq action reason details
  rw [recorded]

theorem observed_setMCPStream (pctx : Context) (state : MCPStreamState) :
    (pctx.setMCPStream state).observed = pctx.observed := rfl

theorem observed_record (pctx : Context) (h : pctx.inFinish = false) (action : InvocationAction)
    (reason : String) (details : List (String × String)) :
    (pctx.record action reason details).observed =
      pctx.observed ++ if action = .observe then [reason] else [] := by
  unfold record recordInvocation
  rw [if_neg (by simp [h])]
  unfold appendInvocation observed
  cases pctx.direction <;> by_cases row : action = .observe <;> simp [List.filter_append, row]

end Context

def JSONRPCResponse.row (method : String) (rpc : JSONRPCResponse) : String :=
  if rpc.error.isSome then "response_error" else "matched_" ++ method ++ "_response"

theorem applyMCPResponseRPC_eq (pctx : Context) (ext : MCPExtension) (rpc : JSONRPCResponse) :
    applyMCPResponseRPC pctx ext rpc =
      (pctx.setMCP (some (ext.apply rpc))).observe (rpc.row ext.method) := by
  unfold applyMCPResponseRPC JSONRPCResponse.row
  split <;> rfl

theorem MCPExtension.method_foldl_apply (ext : MCPExtension) (seen : List JSONRPCResponse) :
    (seen.foldl apply ext).method = ext.method := by
  induction seen generalizing ext with
  | nil => rfl
  | cons rpc rest ih =>
    refine (ih (ext.apply rpc)).trans ?_
    fun_cases apply <;> rfl

structure Seen (pctx : Context) (ext : MCPExtension) (seen : List JSONRPCResponse)
    (now : Context) : Prop where
  mcp : now.extensions.mcp = some (seen.foldl MCPExtension.apply ext)
  stream : now.extensions.mcpStream.getD ⟨0, false⟩ =
    ⟨min seen.length maxStreamObserves, decide (maxStreamObserves < seen.length)⟩
  rows : now.observed =
    pctx.observed ++ (seen.take maxStreamObserves).map (JSONRPCResponse.row ext.method)
  inFinish : now.inFinish = false

variable {pctx : Context} {ext : MCPExtension} {now : Context} {seen : List JSONRPCResponse}

theorem Seen.step (h : Seen pctx ext seen now) (frame : Bytes) :
    Seen pctx ext (seen ++ (envelope frame).toList) (mcpParserOnResponseFrame frame false now) := by
  have unmoved (state : MCPStreamState) (same : state =
      ⟨min seen.length maxStreamObserves, decide (maxStreamObserves < seen.length)⟩) :
      Seen pctx ext (seen ++ []) (now.setMCPStream state) := by
    rw [List.append_nil]
    exact ⟨h.mcp, same, h.rows, h.inFinish⟩
  unfold mcpParserOnResponseFrame
  rw [h.mcp]
  dsimp only
  rw [h.stream]
  by_cases empty : frame = []
  · subst empty
    exact unmoved _ rfl
  · have found : envelope frame = _ := if_neg empty
    rw [if_neg empty, ← found]
    cases envelope frame with
    | none => exact unmoved _ rfl
    | some rpc =>
      have applied : (seen ++ [rpc]).foldl MCPExtension.apply ext =
          (seen.foldl MCPExtension.apply ext).apply rpc := List.foldl_concat ..
      dsimp only [Option.toList_some]
      split
      next full =>
        have long : maxStreamObserves ≤ seen.length := by omega
        refine ⟨congrArg some applied.symm, ?_, ?_, h.inFinish⟩
        · simp [Context.setMCP, Context.setMCPStream]
          omega
        · rw [List.take_append_of_le_length long]
          exact h.rows
      next room =>
        have short : seen.length < maxStreamObserves := by omega
        have longer : (seen ++ [rpc]).length ≤ maxStreamObserves := by
          rw [List.length_append, List.length_singleton]
          exact short
        rw [applyMCPResponseRPC_eq, ext.method_foldl_apply]
        refine ⟨?_, ?_, ?_, ?_⟩
        · exact (Context.record_mcp ..).trans (congrArg some applied.symm)
        · simp [Context.setMCPStream]
          omega
        · rw [List.take_of_length_le longer, List.map_append, ← List.append_assoc,
            ← List.take_of_length_le (Nat.le_of_lt short), ← h.rows, Context.observed_setMCPStream,
            Context.observe, Context.observed_record]
          · rfl
          · exact h.inFinish
        · exact (Context.inFinish_record ..).trans h.inFinish

theorem seen_foldl (h : pctx.Awaits ext) (frames : List Bytes) :
    Seen pctx ext (frames.filterMap envelope)
      (frames.foldl (fun pctx frame => mcpParserOnResponseFrame frame false pctx) pctx) := by
  induction frames using List.reverseRecOn with
  | nil =>
    exact ⟨h.mcp, congrArg (·.getD ⟨0, false⟩) h.stream, (List.append_nil _).symm, h.inFinish⟩
  | append_singleton frames frame ih =>
    rw [List.foldl_append, List.filterMap_append]
    have step := ih.step frame
    cases found : envelope frame <;> simpa [found] using step

/-! The whole response -/

theorem envelope_answer {data : Bytes} {rpc : JSONRPCResponse} (h : envelope data = some rpc) :
    rpc.answer.isSome := by
  have carries : rpc.isEnvelope = true :=
    (Option.filter_eq_some_iff.mp (Option.ite_none_left_eq_some.mp h).2).2
  unfold JSONRPCResponse.isEnvelope at carries
  unfold JSONRPCResponse.answer
  cases error : rpc.error with
  | some err => rfl
  | none =>
    rw [error, Option.isSome_none, Bool.or_false] at carries
    simpa using carries

theorem length_answers (frames : List Bytes) :
    (answers frames).length = (frames.filterMap envelope).length := by
  refine (List.length_filterMap_eq_countP ..).trans (List.countP_eq_length.mpr fun rpc member => ?_)
  obtain ⟨frame, -, found⟩ := List.mem_filterMap.mp member
  exact envelope_answer found

def fields (answers : List (AnyMap ⊕ MCPError)) : Option AnyMap × Option MCPError :=
  ((answers.filterMap Sum.getLeft?).getLast?, (answers.filterMap Sum.getRight?).getLast?)

theorem fields_inl (front : List (AnyMap ⊕ MCPError)) (result : AnyMap) :
    fields (front ++ [.inl result]) = (some result, (fields front).2) := by
  simp [fields]

theorem fields_inr (front : List (AnyMap ⊕ MCPError)) (err : MCPError) :
    fields (front ++ [.inr err]) = ((fields front).1, some err) := by
  simp [fields]

theorem answered_foldl_apply (h : ext.answered = (none, none)) (seen : List JSONRPCResponse) :
    (seen.foldl MCPExtension.apply ext).answered =
      fields (seen.filterMap JSONRPCResponse.answer) := by
  induction seen using List.reverseRecOn with
  | nil => exact h
  | append_singleton seen rpc ih =>
    rw [List.foldl_concat, List.filterMap_append, MCPExtension.apply]
    cases error : rpc.error with
    | some err =>
      have last : [rpc].filterMap JSONRPCResponse.answer = [.inr err] := by
        simp [JSONRPCResponse.answer, error]
      rw [last, fields_inr, ← ih]
      rfl
    | none =>
      cases result : rpc.result with
      | some map =>
        have last : [rpc].filterMap JSONRPCResponse.answer = [.inl map] := by
          simp [JSONRPCResponse.answer, error, result]
        rw [last, fields_inl, ← ih]
        rfl
      | none =>
        have last : [rpc].filterMap JSONRPCResponse.answer = [] := by
          simp [JSONRPCResponse.answer, error, result]
        rw [last, List.append_nil]
        exact ih

theorem Seen.last (h : Seen pctx ext seen now) : let out := mcpParserOnResponseFrame [] true now
    out.extensions.mcp = some (seen.foldl MCPExtension.apply ext) ∧ out.observed = now.observed ++
      if maxStreamObserves < seen.length then ["matched_" ++ ext.method ++ "_response_truncated"]
      else [] := by
  intro out
  have ending (c : Context) (same : c.extensions.mcp = now.extensions.mcp ∧
      c.observed = now.observed ∧ c.inFinish = false) :
      let out := if decide (maxStreamObserves < seen.length) = true then
        c.observe ("matched_" ++ ext.method ++ "_response_truncated") else c
      out.extensions.mcp = some (seen.foldl MCPExtension.apply ext) ∧ out.observed = now.observed ++
        if maxStreamObserves < seen.length then ["matched_" ++ ext.method ++ "_response_truncated"]
        else [] := by
    obtain ⟨mcp, observed, inFinish⟩ := same
    split
    next full =>
      rw [if_pos (of_decide_eq_true full)]
      exact ⟨(Context.record_mcp ..).trans (mcp.trans h.mcp),
        (Context.observed_record c inFinish ..).trans (congrArg (· ++ _) observed)⟩
    next room =>
      rw [if_neg (fun long => room (decide_eq_true long)), List.append_nil]
      exact ⟨mcp.trans h.mcp, observed⟩
  have unfolded : out = mcpParserOnResponseFrame [] true now := rfl
  unfold mcpParserOnResponseFrame at unfolded
  rw [h.mcp] at unfolded
  dsimp only at unfolded
  rw [if_pos rfl, if_pos rfl, h.stream, ext.method_foldl_apply] at unfolded
  rw [unfolded]
  refine ending _ ?_
  split
  · refine ⟨Context.record_mcp .., ?_, (Context.inFinish_record ..).trans h.inFinish⟩
    exact (Context.observed_record (Context.setMCPStream now _) h.inFinish ..).trans
      (List.append_nil _)
  · exact ⟨rfl, rfl, h.inFinish⟩

theorem answered_mcpStreamed (h : pctx.Awaits ext) (frames : List Bytes) :
    (mcpStreamed pctx frames).answered = some (fields (answers frames)) :=
  (congrArg (Option.map MCPExtension.answered) (seen_foldl h frames).last.1).trans
    (congrArg some (answered_foldl_apply h.unanswered _))

theorem observed_mcpStreamed (h : pctx.Awaits ext) (frames : List Bytes) :
    ∃ rows, rows.length ≤ maxStreamObserves ∧
      (mcpStreamed pctx frames).observed = pctx.observed ++ rows ++
        if maxStreamObserves < (answers frames).length then
          ["matched_" ++ ext.method ++ "_response_truncated"]
        else [] := by
  have seen := seen_foldl h frames
  refine ⟨((frames.filterMap envelope).take maxStreamObserves).map (JSONRPCResponse.row ext.method),
    ?_, ?_⟩
  · rw [List.length_map]
    exact List.length_take_le ..
  · rw [← seen.rows, length_answers]
    exact seen.last.2

variable {body : Bytes}

theorem parseMCPResponse_stream (stream : Json.parse body = none) :
    parseMCPResponse body = ((sseData body).filterMap envelope).head? := by
  have undecoded : JSONRPCResponse.decode body = none := by
    unfold JSONRPCResponse.decode unmarshal
    rw [stream]
    rfl
  unfold parseMCPResponse
  rw [undecoded, List.head?_filterMap]
  rfl

theorem answered_mcpParserOnResponse (h : pctx.Awaits ext) (stream : Json.parse body = none) :
    (mcpParserOnResponse { pctx with responseBody := body }).answered =
      some (fields (answers (sseData body)).head?.toList) := by
  obtain ⟨result, err⟩ := Prod.ext_iff.mp h.unanswered
  have untouched (c : Context) (same : c.extensions.mcp = pctx.extensions.mcp)
      (none : answers (sseData body) = []) :
      c.answered = some (fields (answers (sseData body)).head?.toList) := by
    rw [none, Context.answered, same, h.mcp]
    exact congrArg some h.unanswered
  unfold mcpParserOnResponse
  rw [h.mcp]
  dsimp only
  rw [if_neg (by simp [MCPExtension.answered] at result err; simp [result, err])]
  split
  next empty =>
    refine untouched _ (Context.record_mcp ..) ?_
    rw [empty]
    decide +kernel
  · rw [parseMCPResponse_stream stream]
    cases first : ((sseData body).filterMap envelope).head? with
    | none =>
      refine untouched _ (Context.record_mcp ..) ?_
      rw [answers, List.head?_eq_none_iff.mp first]
      rfl
    | some rpc =>
      obtain ⟨rest, found⟩ := List.head?_eq_some_iff.mp first
      obtain ⟨data, -, carried⟩ :=
        List.mem_filterMap.mp (found ▸ List.mem_cons_self (a := rpc) (l := rest))
      obtain ⟨a, answer⟩ := Option.isSome_iff_exists.mp (envelope_answer carried)
      have head : (answers (sseData body)).head?.toList = [rpc].filterMap JSONRPCResponse.answer := by
        simp [answers, found, answer]
      dsimp only
      rw [applyMCPResponseRPC_eq, head, ← answered_foldl_apply h.unanswered]
      exact congrArg (Option.map MCPExtension.answered) (Context.record_mcp ..)

/-! Results and errors -/

def OneKind (answers : List (AnyMap ⊕ MCPError)) : Prop :=
  ∀ a ∈ answers, ∀ b ∈ answers, a.isLeft = b.isLeft

theorem fields_toList_inj {a b : Option (AnyMap ⊕ MCPError)}
    (h : fields a.toList = fields b.toList) : a = b := by
  rcases a with _ | _ | _ <;> rcases b with _ | _ | _ <;> simp_all [fields]

theorem OneKind.fields_eq {answers : List (AnyMap ⊕ MCPError)} (h : OneKind answers) :
    fields answers = fields answers.getLast?.toList := by
  rcases List.eq_nil_or_concat' answers with rfl | ⟨front, last, rfl⟩
  · rfl
  · have kind (a) (member : a ∈ front) : a.isLeft = last.isLeft :=
      h a (List.mem_append_left _ member) last (by simp)
    rw [List.getLast?_concat, Option.toList_some]
    cases last with
    | inl result =>
      have errors : front.filterMap Sum.getRight? = [] :=
        List.filterMap_eq_nil_iff.mpr fun a member => by simpa using kind a member
      rw [fields_inl, fields, errors]
      rfl
    | inr err =>
      have results : front.filterMap Sum.getLeft? = [] :=
        List.filterMap_eq_nil_iff.mpr fun a member => by simpa using kind a member
      rw [fields_inr, fields, results]
      rfl

theorem oneKind_of_exclusive {answers : List (AnyMap ⊕ MCPError)}
    (h : (fields answers).1.isSome ↔ (fields answers).2.isNone) : OneKind answers := by
  have apart (result : AnyMap) (err : MCPError) (left : .inl result ∈ answers)
      (right : .inr err ∈ answers) : False := by
    grind [fields, List.getLast?_isSome, Option.isNone_iff_eq_none.mp]
  intro a left b right
  rcases a with result | err <;> rcases b with result' | err'
  · rfl
  · exact (apart _ _ left right).elim
  · exact (apart _ _ right left).elim
  · rfl

/-- The record of a response is right just if all its answers are of one kind and the last of
them is the first on a data line of the body. -/
theorem recorded_iff {pctx : Context} {ext : MCPExtension} (awaits : pctx.Awaits ext)
    (frames : List Bytes) {body : Bytes} (stream : Json.parse body = none) :
    Recorded pctx ext frames body ↔ OneKind (answers frames) ∧
      (answers frames).getLast? = (answers (sseData body)).head? := by
  have streamed := answered_mcpStreamed awaits frames
  have whole := answered_mcpParserOnResponse awaits stream
  constructor
  · intro h
    have kind : OneKind (answers frames) := by
      by_cases none : answers frames = []
      · intro a member
        rw [none] at member
        cases member
      · obtain ⟨result, err, left, exclusive⟩ := h.exclusive none
        obtain ⟨rfl, rfl⟩ := Prod.ext_iff.mp (Option.some.inj (streamed.symm.trans left))
        exact oneKind_of_exclusive exclusive
    have same := Option.some.inj (streamed.symm.trans (h.buffered.trans whole))
    exact ⟨kind, fields_toList_inj (kind.fields_eq.symm.trans same)⟩
  · rintro ⟨kind, same⟩
    refine ⟨fun some => ?_, ?_, observed_mcpStreamed awaits frames⟩
    · refine ⟨(fields (answers frames)).1, (fields (answers frames)).2, streamed, ?_⟩
      rw [kind.fields_eq]
      cases last : (answers frames).getLast? with
      | none => exact absurd (List.getLast?_eq_none_iff.mp last) some
      | some a => cases a <;> simp [fields]
    · rw [streamed, whole, kind.fields_eq, same]

def rpcResult : Bytes := bytes "\x7b\"result\":\x7b\x7d\x7d"

def rpcError : Bytes := bytes "\x7b\"error\":\x7b\"message\":\"late\"\x7d\x7d"

def toolCall : MCPExtension where
  method := "tools/call"
  rpcID := .null
  params := none
  result := none
  err := none
  isAction := true

def toolRequest : Context :=
  (Context.ofRequest .outbound "POST" "http" "tool:8080" (bytes "/mcp") ∅ []).setMCP (some toolCall)

theorem awaits_toolRequest : toolRequest.Awaits toolCall := ⟨rfl, rfl, rfl, rfl⟩

/-- One result in an event stream. -/
theorem recorded_single_result : (answers [rpcResult]).length = 1 ∧
    Recorded toolRequest toolCall [rpcResult] (eventStream [rpcResult]) := by
  have line : OneLine rpcResult := by
    rw [rpcResult, bytes_eq_toByteArray]
    exact ⟨⟨by decide +kernel, by decide +kernel⟩, by decide +kernel⟩
  have one : (answers [rpcResult]).length = 1 := by
    rw [rpcResult, bytes_eq_toByteArray]
    decide +kernel
  obtain ⟨a, single⟩ := List.length_eq_one_iff.mp one
  refine ⟨one, (recorded_iff awaits_toolRequest _ parse_eventStream).mpr ?_⟩
  rw [sseData_eventStream (List.forall_mem_singleton.mpr line), single]
  exact ⟨by simp [OneKind], rfl⟩

/-- Behind an error and a result, both fields are set; the whole body gives the error only. -/
theorem both_answers_recorded : (∀ data ∈ [rpcError, rpcResult], OneLine data) ∧
    toolRequest.Awaits toolCall ∧ (mcpStreamed toolRequest [rpcError, rpcResult]).answered.map
      (fun f => (f.1.isSome, f.2.isSome)) = some (true, true) ∧
    ¬Recorded toolRequest toolCall [rpcError, rpcResult] (eventStream [rpcError, rpcResult]) := by
  rw [rpcError, rpcResult, bytes_eq_toByteArray, bytes_eq_toByteArray]
  refine ⟨?_, awaits_toolRequest, by decide +kernel, fun recorded => ?_⟩
  · exact List.forall_mem_cons.mpr ⟨⟨⟨by decide +kernel, by decide +kernel⟩, by decide +kernel⟩,
      List.forall_mem_singleton.mpr ⟨⟨by decide +kernel, by decide +kernel⟩, by decide +kernel⟩⟩
  · have same := congrArg (Option.map fun f => f.1.isSome) recorded.buffered
    exact absurd same (by decide +kernel)

end Kagenti.AuthBridge
