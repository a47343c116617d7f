import Kagenti.AuthBridge.OutboundResponse

/-!
The end of a streamed response, in the three listeners: `handleStreamingResponse` of the forward
proxy, `streamingResponseBody` of the reverse proxy and `dispatchBufferedFrames` of ext_proc.
-/

namespace Kagenti.AuthBridge

open Go

namespace Pipeline

variable {W : Type*} (ctxErr : CtxErr W) (p : Pipeline W)

/-! The forward proxy -/

/-- The loop of `handleStreamingResponse` for a client that may go away: `writes n` tells
whether the write of frame `n` goes through. -/
def streamFramesTo (writes : Nat → Bool) : Nat → List Bytes → W → Context → Bytes × W × Context
  | _, [], w, pctx => ([], w, pctx)
  | n, frame :: rest, w, pctx =>
    match p.runResponseFrame ctxErr frame false w pctx with
    | (.reject _, w, pctx) => ([], w, pctx)
    | (.cont, w, pctx) =>
      if writes n then
        let (written, w, pctx) := streamFramesTo writes (n + 1) rest w pctx
        (Sse.writeSSEFrame frame ++ written, w, pctx)
      else ([], w, pctx)

/-- `handleStreamingResponse`, with the deferred call at its end. -/
def handleStreamingTo (writes : Nat → Bool) (resp : Upstream) (w : W) (pctx : Context) :
    Delivery × W × Context :=
  let (written, w, pctx) :=
    streamFramesTo ctxErr p writes 0 (Sse.frames maxResponseBody resp.body).1 w pctx
  let (_, w, pctx) := p.runResponseFrame ctxErr [] true w pctx
  (.response resp.statusCode (headerDel resp.header "Content-Length") written, w, pctx)

def serveForward (flushes : Bool) (writes : Nat → Bool) (resp : Upstream) (w : W)
    (pctx : Context) : Delivery × W × Context :=
  let pctx := { pctx with statusCode := resp.statusCode, responseHeaders := resp.header }
  if p.streams resp then
    if flushes then handleStreamingTo ctxErr p writes resp w pctx
    else streamFallbackBuffered ctxErr p resp w pctx
  else serveBuffered ctxErr p resp w pctx

end Pipeline

/-! The reverse proxy -/

structure StreamingResponseBody where
  frames : List Bytes
  err : Sse.ReadError
  pending : Bytes
  finished : Bool
  closed : Bool

inductive ReadResult where
  | data (bytes : Bytes)
  | failed (err : Sse.ReadError)
  | rejected

namespace StreamingResponseBody

variable {W : Type*} (ctxErr : Pipeline.CtxErr W) (p : Pipeline W)

def opened (body : Sse.Incoming) : StreamingResponseBody :=
  let (frames, err) := Sse.frames maxResponseBody body
  { frames := frames, err := err, pending := [], finished := false, closed := false }

def read (n : Nat) (b : StreamingResponseBody) (w : W) (pctx : Context) :
    ReadResult × StreamingResponseBody × W × Context :=
  if b.pending ≠ [] then
    (.data (b.pending.take n), { b with pending := b.pending.drop n }, w, pctx)
  else if b.finished then (.failed .eof, b, w, pctx)
  else
    match b.frames with
    | [] =>
      let (_, w, pctx) := p.runResponseFrame ctxErr [] true w pctx
      (.failed b.err, { b with finished := true }, w, pctx)
    | frame :: rest =>
      match p.runResponseFrame ctxErr frame false w pctx with
      | (.reject _, w, pctx) =>
        let (_, w, pctx) := p.runResponseFrame ctxErr [] true w pctx
        (.rejected, { b with frames := rest, finished := true }, w, pctx)
      | (.cont, w, pctx) =>
        let out := Sse.writeSSEFrame frame
        (.data (out.take n), { b with frames := rest, pending := out.drop n }, w, pctx)

def close (b : StreamingResponseBody) (w : W) (pctx : Context) :
    StreamingResponseBody × W × Context :=
  if b.closed then (b, w, pctx)
  else if b.finished then ({ b with closed := true }, w, pctx)
  else
    let (_, w, pctx) := p.runResponseFrame ctxErr [] true w pctx
    ({ b with finished := true, closed := true }, w, pctx)

/-- The copying loop of `httputil.ReverseProxy`, with the sizes of the buffers that it comes
to read into. It ends at an error of `Read`, or when the client is gone. -/
def copy : List Nat → StreamingResponseBody → W → Context →
    Bytes × StreamingResponseBody × W × Context
  | [], b, w, pctx => ([], b, w, pctx)
  | n :: sizes, b, w, pctx =>
    match read ctxErr p n b w pctx with
    | (.data bytes, b, w, pctx) =>
      let (more, b, w, pctx) := copy sizes b w pctx
      (bytes ++ more, b, w, pctx)
    | (_, b, w, pctx) => ([], b, w, pctx)

end StreamingResponseBody

namespace Pipeline

variable {W : Type*} (ctxErr : CtxErr W) (p : Pipeline W)

def modifyBuffered (resp : Upstream) (w : W) (pctx : Context) : Delivery × W × Context :=
  match if p.needsBody then readAll resp.body else .ok [] with
  | .error _ => (.httpError "\x7b\"error\":\"bad gateway\"\x7d" badGateway, w, pctx)
  | .ok body =>
    match p.bufferedResponse ctxErr resp.statusCode resp.header body w pctx with
    | (.reject violation, w, pctx) => (.rejection violation, w, pctx)
    | (.cont, w, pctx) => (forward resp pctx, w, pctx)

/-- The response phase of the reverse proxy: `modifyResponse`, and the copying of the body
that it leaves. -/
def serveReverse (sizes : List Nat) (resp : Upstream) (w : W) (pctx : Context) :
    Delivery × W × Context :=
  let pctx := { pctx with statusCode := resp.statusCode, responseHeaders := resp.header }
  if p.streams resp then
    let (written, b, w, pctx) :=
      StreamingResponseBody.copy ctxErr p sizes (.opened resp.body) w pctx
    let (_, w, pctx) := b.close ctxErr p w pctx
    (.response resp.statusCode (headerDel resp.header "Content-Length") written, w, pctx)
  else modifyBuffered ctxErr p resp w pctx

/-! ext_proc -/

def dispatchBufferedFrames : Hook W := fun w pctx =>
  if isEventStream (headerGet pctx.responseHeaders "Content-Type") ∧ pctx.responseBody ≠ [] then
    replayFrames ctxErr p (Sse.frames maxResponseBody ⟨pctx.responseBody, false⟩).1 w pctx
  else p.runResponseFrame ctxErr pctx.responseBody true w pctx

/-- `handleResponseBody`, for the body that Envoy has buffered. -/
def handleResponseBody (body : Bytes) : Hook W := fun w pctx =>
  match p.runResponse ctxErr w { pctx with responseBody := body } with
  | (.reject violation, w, pctx) => (.reject violation, w, pctx)
  | (.cont, w, pctx) =>
    if p.hasStreamingResponders then dispatchBufferedFrames ctxErr p w pctx
    else (.cont, w, pctx)

/-- The response phase of ext_proc: `handleResponseHeaders`, and `handleResponseBody` where
Envoy is asked for the body. There is none if the upstream fails before its end. -/
def serveExtProc (resp : Upstream) : Hook W := fun w pctx =>
  let pctx := { pctx with statusCode := resp.statusCode, responseHeaders := resp.header }
  if p.needsBody then
    if resp.body.failed then (.cont, w, pctx)
    else handleResponseBody ctxErr p resp.body.bytes w pctx
  else
    match p.runResponse ctxErr w pctx with
    | (.reject violation, w, pctx) => (.reject violation, w, pctx)
    | (.cont, w, pctx) =>
      if p.hasStreamingResponders then p.runResponseFrame ctxErr [] true w pctx
      else (.cont, w, pctx)

/-! What every streaming responder is promised -/

def streamingEnabled (entry : Plugin W × ErrorPolicy) : Bool :=
  entry.2 ≠ .off && entry.1.onResponseFrame.isSome

/-- The flags `last` of the frames that the plugin at position `i` has been called with. -/
def lastFlags (i : Nat) (trace : Trace) : List Bool :=
  trace.filterMap fun call =>
    match call.kind with
    | .frame _ last => if call.index = i then some last else none
    | _ => none

def Finalized (trace : Trace) : Prop :=
  ∀ i entry, p[i]? = some entry → streamingEnabled entry = true →
    ∃ n, lastFlags i trace = List.replicate n false ++ [true]

/-! When it is kept -/

def idle : Bool := p.all fun entry => !streamingEnabled entry

/-- The loop of `RunResponseFrame` comes to every enabled streaming responder of the list:
as long as there is one left, the `ctx` is not cancelled and no rejection is enforced. -/
def reaches (frame : Bytes) (last : Bool) : Pipeline W → W → Context → Bool
  | [], _, _ => true
  | (plugin, policy) :: rest, w, pctx =>
    if policy = .off then reaches frame last rest w pctx
    else
      match plugin.onResponseFrame with
      | none =>
        idle rest || (!(ctxErr w).1 && reaches frame last rest (ctxErr w).2 pctx)
      | some hook =>
        let out := dispatch plugin.name policy .response (hook frame last) (ctxErr w).2 pctx
        !(ctxErr w).1 && (idle rest || (out.1.isNone && reaches frame last rest out.2.1 out.2.2))

def feed : List Bytes → Hook W
  | [], w, pctx => (.cont, w, pctx)
  | frame :: rest, w, pctx =>
    match p.runResponseFrame ctxErr frame false w pctx with
    | (.reject violation, w, pctx) => (.reject violation, w, pctx)
    | (.cont, w, pctx) => feed rest w pctx

/-- The stage lets the response pass, and then the condition holds. -/
def passes (stage : Hook W) (condition : W → Context → Bool) (w : W) (pctx : Context) : Bool :=
  match stage w pctx with
  | (.cont, w, pctx) => condition w pctx
  | (.reject _, _, _) => false

/-- The condition on a stream that is closed whatever happens to it. -/
def closes (frames : List Bytes) (w : W) (pctx : Context) : Bool :=
  let out := p.feed ctxErr frames w pctx
  reaches ctxErr [] true p.reverse out.2.1 out.2.2

def replays (frames : List Bytes) : W → Context → Bool :=
  passes (p.feed ctxErr frames) (reaches ctxErr [] true p.reverse)

def handsOver (w : W) (pctx : Context) : Bool :=
  reaches ctxErr pctx.responseBody true p.reverse w pctx

def framesTaken (writes : Nat → Bool) : Nat → List Bytes → List Bytes
  | _, [] => []
  | n, frame :: rest => frame :: if writes n then framesTaken writes (n + 1) rest else []

/-- The frames that reads into buffers of these sizes come to. -/
def framesRead : List Nat → Bytes → List Bytes → List Bytes
  | [], _, _ => []
  | n :: sizes, pending, frames =>
    if pending ≠ [] then framesRead sizes (pending.drop n) frames
    else
      match frames with
      | [] => []
      | frame :: rest => frame :: framesRead sizes ((Sse.writeSSEFrame frame).drop n) rest

def buffersWell (resp : Upstream) (w : W) (pctx : Context) : Bool :=
  match if p.needsBody then readAll resp.body else .ok [] with
  | .error _ => false
  | .ok body =>
    passes (p.runResponse ctxErr) (p.handsOver ctxErr) w
      (p.receive resp.statusCode resp.header body pctx)

def finalizesForward (flushes : Bool) (writes : Nat → Bool) (resp : Upstream) (w : W)
    (pctx : Context) : Bool :=
  let pctx := { pctx with statusCode := resp.statusCode, responseHeaders := resp.header }
  if p.streams resp then
    if flushes then
      p.closes ctxErr (framesTaken writes 0 (Sse.frames maxResponseBody resp.body).1) w pctx
    else
      match readAll resp.body with
      | .error _ => false
      | .ok body =>
        passes (p.runResponse ctxErr)
          (p.replays ctxErr (Sse.frames maxResponseBody ⟨body, false⟩).1) w
          { pctx with responseBody := body }
  else p.buffersWell ctxErr resp w pctx

def finalizesReverse (sizes : List Nat) (resp : Upstream) (w : W) (pctx : Context) : Bool :=
  let pctx := { pctx with statusCode := resp.statusCode, responseHeaders := resp.header }
  if p.streams resp then
    p.closes ctxErr (framesRead sizes [] (Sse.frames maxResponseBody resp.body).1) w pctx
  else p.buffersWell ctxErr resp w pctx

def finalizesExtProc (resp : Upstream) (w : W) (pctx : Context) : Bool :=
  let pctx := { pctx with statusCode := resp.statusCode, responseHeaders := resp.header }
  if p.needsBody then
    !resp.body.failed &&
      passes (p.runResponse ctxErr)
        (fun w pctx =>
          if isEventStream (headerGet pctx.responseHeaders "Content-Type") ∧
              pctx.responseBody ≠ [] then
            p.replays ctxErr (Sse.frames maxResponseBody ⟨pctx.responseBody, false⟩).1 w pctx
          else p.handsOver ctxErr w pctx) w
        { pctx with responseBody := resp.body.bytes }
  else passes (p.runResponse ctxErr) (reaches ctxErr [] true p.reverse) w pctx

/-! The calls of one loop -/

variable {ctxErr}

def tag (q : List ((Plugin W × ErrorPolicy) × Nat)) : Pipeline (W × Trace) :=
  q.map fun ((plugin, policy), i) => (plugin.traced i, policy)

def enabledIn (q : List ((Plugin W × ErrorPolicy) × Nat)) : List Nat :=
  (q.filter fun (entry, _) => streamingEnabled entry).map Prod.snd

@[simp] theorem tag_cons (plugin : Plugin W) (policy : ErrorPolicy) (i : Nat)
    (rest : List ((Plugin W × ErrorPolicy) × Nat)) :
    tag (((plugin, policy), i) :: rest) = (plugin.traced i, policy) :: tag rest := rfl

theorem traced_reverse : p.traced.reverse = tag p.zipIdx.reverse := by
  simp [traced, tracedFrom, tag]

variable {q : List ((Plugin W × ErrorPolicy) × Nat)}

theorem idle_iff_enabledIn : idle (q.map Prod.fst) = true ↔ enabledIn q = [] := by
  simp [idle, enabledIn, List.filter_eq_nil_iff]

theorem respondIn_tag (ctxErr : CtxErr W) (q : List ((Plugin W × ErrorPolicy) × Nat)) (w : W)
    (trace : Trace) (pctx : Context) :
    ∃ calls, (respondIn ctxErr.traced (tag q) (w, trace) pctx =
        let out := respondIn ctxErr (q.map Prod.fst) w pctx
        (out.1, (out.2.1, trace ++ calls), out.2.2)) ∧
      ∀ call ∈ calls, call.kind = .response := by
  induction q generalizing w trace pctx with
  | nil => exact ⟨[], by simp [tag, respondIn], by simp⟩
  | cons entry rest ih =>
    obtain ⟨⟨plugin, policy⟩, i⟩ := entry
    simp only [tag_cons, List.map_cons, respondIn, Plugin.isSome_onResponseFrame_traced,
      Plugin.name_traced, Plugin.onResponse_traced]
    split
    · exact ih w trace pctx
    · rcases looked : ctxErr w with ⟨cancelled, w'⟩
      have traced : ctxErr.traced (w, trace) = (cancelled, w', trace) := by
        simp [CtxErr.traced, looked]
      rw [traced]
      cases cancelled with
      | true => exact ⟨[], by simp, by simp⟩
      | false =>
        let call : Call := ⟨.response, i, pctx.setCurrent plugin.name .response policy⟩
        dsimp only
        rw [dispatch_traced plugin.name policy .response .response i]
        rcases dispatch plugin.name policy .response plugin.onResponse w' pctx with
          ⟨_ | action, w'', pctx''⟩
        · obtain ⟨calls, eq, kinds⟩ := ih w'' (trace ++ [call]) pctx''
          refine ⟨call :: calls, ?_, List.forall_mem_cons.mpr ⟨rfl, kinds⟩⟩
          dsimp only at eq ⊢
          rw [eq, List.append_assoc, List.singleton_append]
        · exact ⟨[_], rfl, by simp⟩

theorem idle_or_reaches_iff {called : List Nat} {reached : Bool} (started : called <+: enabledIn q)
    (all : called = enabledIn q ↔ reached = true) :
    (idle (q.map Prod.fst) = true ∨ reached = true) ↔ called = enabledIn q := by
  rw [← all, idle_iff_enabledIn, or_iff_right_iff_imp]
  intro empty
  rw [empty] at started ⊢
  exact List.prefix_nil.mp started

theorem frameIn_tag (ctxErr : CtxErr W) (frame : Bytes) (last : Bool)
    (q : List ((Plugin W × ErrorPolicy) × Nat)) (w : W) (trace : Trace) (pctx : Context) :
    ∃ calls, (frameIn ctxErr.traced frame last (tag q) (w, trace) pctx =
        let out := frameIn ctxErr frame last (q.map Prod.fst) w pctx
        (out.1, (out.2.1, trace ++ calls), out.2.2)) ∧
      (∀ call ∈ calls, call.kind = .frame frame last) ∧
      calls.map Call.index <+: enabledIn q ∧
      (calls.map Call.index = enabledIn q ↔
        reaches ctxErr frame last (q.map Prod.fst) w pctx = true) := by
  induction q generalizing w trace pctx with
  | nil => exact ⟨[], by simp [tag, frameIn], by simp, by simp, by simp [enabledIn, reaches]⟩
  | cons entry rest ih =>
    obtain ⟨⟨plugin, policy⟩, i⟩ := entry
    simp only [tag_cons, List.map_cons, frameIn, reaches, Plugin.name_traced]
    by_cases off : policy = .off
    · simpa [off, enabledIn, streamingEnabled] using ih w trace pctx
    · rw [if_neg off, if_neg off, if_neg off]
      rcases looked : ctxErr w with ⟨cancelled, w'⟩
      have traced : ctxErr.traced (w, trace) = (cancelled, w', trace) := by
        simp [CtxErr.traced, looked]
      rw [traced]
      cases streams : plugin.onResponseFrame with
      | none =>
        have skipped : enabledIn (((plugin, policy), i) :: rest) = enabledIn rest := by
          simp [enabledIn, streamingEnabled, streams]
        have none_traced : (plugin.traced i).onResponseFrame = none := by
          simp [Plugin.traced, streams]
        rw [skipped, none_traced]
        cases cancelled with
        | true =>
          refine ⟨[], by simp, by simp, List.nil_prefix, ?_⟩
          rw [List.map_nil, eq_comm, ← idle_iff_enabledIn]
          simp
        | false =>
          obtain ⟨calls, eq, kinds, started, all⟩ := ih w' trace pctx
          refine ⟨calls, eq, kinds, started, ?_⟩
          rw [← idle_or_reaches_iff started all]
          simp
      | some hook =>
        have called : enabledIn (((plugin, policy), i) :: rest) = i :: enabledIn rest := by
          simp [enabledIn, streamingEnabled, streams, off]
        have some_traced : (plugin.traced i).onResponseFrame = some fun frame last =>
            (hook frame last).traced (.frame frame last) i := by
          simp [Plugin.traced, streams]
        rw [called, some_traced]
        cases cancelled with
        | true => exact ⟨[], by simp, by simp, List.nil_prefix, by simp⟩
        | false =>
          let call : Call := ⟨.frame frame last, i, pctx.setCurrent plugin.name .response policy⟩
          dsimp only
          rw [dispatch_traced plugin.name policy .response (.frame frame last) i]
          rcases dispatch plugin.name policy .response (hook frame last) w' pctx with
            ⟨_ | action, w'', pctx''⟩
          · obtain ⟨calls, eq, kinds, started, all⟩ := ih w'' (trace ++ [call]) pctx''
            refine ⟨call :: calls, ?_, List.forall_mem_cons.mpr ⟨rfl, kinds⟩, ?_, ?_⟩
            · dsimp only at eq ⊢
              rw [eq, List.append_assoc, List.singleton_append]
            · exact List.cons_prefix_cons.mpr ⟨rfl, started⟩
            · rw [List.map_cons, List.cons.injEq, ← idle_or_reaches_iff started all]
              simp [call]
          · grind [idle_iff_enabledIn]

/-! The flags of a trace -/

def Unclosed (trace : Trace) : Prop := ∀ call ∈ trace, ∀ data, call.kind ≠ .frame data true

variable {trace calls : Trace}

theorem Unclosed.append (h : Unclosed trace) (h' : Unclosed calls) : Unclosed (trace ++ calls) :=
  List.forall_mem_append.mpr ⟨h, h'⟩

theorem lastFlags_append (i : Nat) (trace calls : Trace) :
    lastFlags i (trace ++ calls) = lastFlags i trace ++ lastFlags i calls :=
  List.filterMap_append

theorem Unclosed.lastFlags_eq (h : Unclosed trace) (i : Nat) :
    ∃ n, lastFlags i trace = List.replicate n false := by
  refine ⟨(lastFlags i trace).length, List.eq_replicate_length.mpr fun flag member => ?_⟩
  obtain ⟨call, called, found⟩ := List.mem_filterMap.mp member
  split at found
  next data last kind =>
    cases flag with
    | false => rfl
    | true =>
      obtain ⟨-, up⟩ := (Option.ite_none_right_eq_some).mp found
      rw [Option.some.inj up] at kind
      exact absurd kind (h call called data)
  · cases found

variable {frame : Bytes}

theorem lastFlags_of_last (h : ∀ call ∈ calls, call.kind = .frame frame true) (i : Nat) :
    lastFlags i calls = List.replicate ((calls.map Call.index).count i) true := by
  induction calls with
  | nil => rfl
  | cons call rest ih =>
    obtain ⟨kind, others⟩ := List.forall_mem_cons.mp h
    have tail := ih others
    unfold lastFlags at tail ⊢
    rw [List.filterMap_cons, kind, List.map_cons, List.count_cons, tail]
    by_cases same : call.index = i
    · simp [same, List.replicate_succ]
    · simp [same]

theorem ends_in_true_iff (n k : Nat) :
    (∃ m, List.replicate n false ++ List.replicate k true = List.replicate m false ++ [true]) ↔
      k = 1 := by
  constructor
  · rintro ⟨m, eq⟩
    have counts := congrArg (List.count true) eq
    simpa [List.count_replicate] using counts
  · rintro rfl
    exact ⟨n, rfl⟩

theorem nodup_enabledIn : (enabledIn p.zipIdx.reverse).Nodup := by
  have positions : (p.zipIdx.reverse.map Prod.snd).Nodup := by
    rw [List.map_reverse, List.nodup_reverse, List.zipIdx_map_snd]
    exact List.nodup_range'
  exact positions.sublist (List.filter_sublist.map Prod.snd)

theorem mem_enabledIn {i : Nat} : i ∈ enabledIn p.zipIdx.reverse ↔
    ∃ entry, p[i]? = some entry ∧ streamingEnabled entry = true := by
  simp [enabledIn, List.mem_zipIdx_iff_getElem?]

theorem finalized_concat_iff (h : Unclosed trace)
    (kinds : ∀ call ∈ calls, call.kind = .frame frame true)
    (started : calls.map Call.index <+: enabledIn p.zipIdx.reverse) :
    p.Finalized (trace ++ calls) ↔ calls.map Call.index = enabledIn p.zipIdx.reverse := by
  have nodup := p.nodup_enabledIn
  have flags (i : Nat) : (∃ n, lastFlags i (trace ++ calls) = List.replicate n false ++ [true]) ↔
      i ∈ calls.map Call.index := by
    obtain ⟨n, before⟩ := h.lastFlags_eq i
    rw [lastFlags_append, before, lastFlags_of_last kinds, ends_in_true_iff,
      (nodup.sublist started.sublist).count]
    simp
  constructor
  · intro finalized
    have subset : enabledIn p.zipIdx.reverse ⊆ calls.map Call.index := by
      intro i member
      obtain ⟨entry, found, enabled⟩ := p.mem_enabledIn.mp member
      exact (flags i).mp (finalized i entry found enabled)
    exact started.eq_of_length_le (List.subperm_of_subset nodup subset).length_le
  · intro all i entry found enabled
    rw [flags, all]
    exact p.mem_enabledIn.mpr ⟨entry, found, enabled⟩

theorem finalized_of_unclosed_iff (h : Unclosed trace) : p.Finalized trace ↔ p.idle = true := by
  have none_called := p.finalized_concat_iff h
    (by simp : ∀ call ∈ ([] : Trace), call.kind = .frame [] true) List.nil_prefix
  rw [List.append_nil, List.map_nil, eq_comm, ← idle_iff_enabledIn] at none_called
  simpa [idle] using none_called

theorem finalized_of_idle (h : p.idle = true) (trace : Trace) : p.Finalized trace := by
  intro i entry found enabled
  have disabled := List.all_eq_true.mp h entry (List.mem_of_getElem? found)
  simp [enabled] at disabled

/-! Stages of a response phase -/

def Midway (traced : Hook (W × Trace)) (plain : Hook W) : Prop :=
  ∀ w trace pctx, ∃ calls, (traced (w, trace) pctx =
      let out := plain w pctx
      (out.1, (out.2.1, trace ++ calls), out.2.2)) ∧ Unclosed calls

def Decides (stage : Hook (W × Trace)) (condition : W → Context → Bool) : Prop :=
  ∀ w trace pctx, Unclosed trace →
    (p.Finalized (stage (w, trace) pctx).2.1.2 ↔ p.idle = true ∨ condition w pctx = true)

def andThen (first second : Hook W) : Hook W := fun w pctx =>
  match first w pctx with
  | (.reject violation, w, pctx) => (.reject violation, w, pctx)
  | (.cont, w, pctx) => second w pctx

def ifStreaming (stage : Hook W) : Hook W := fun w pctx =>
  if p.hasStreamingResponders then stage w pctx else (.cont, w, pctx)

variable {p}

theorem midway_runResponse : Midway (p.traced.runResponse ctxErr.traced) (p.runResponse ctxErr) := by
  intro w trace pctx
  obtain ⟨calls, eq, kinds⟩ := respondIn_tag ctxErr p.zipIdx.reverse w trace pctx
  refine ⟨calls, ?_, fun call member data => by simp [kinds call member]⟩
  rw [← traced_reverse, List.map_reverse, List.zipIdx_map_fst] at eq
  exact eq

theorem midway_runResponseFrame (ctxErr : CtxErr W) (p : Pipeline W) (frame : Bytes) :
    Midway (p.traced.runResponseFrame ctxErr.traced frame false)
      (p.runResponseFrame ctxErr frame false) := by
  intro w trace pctx
  obtain ⟨calls, eq, kinds, -, -⟩ :=
    frameIn_tag ctxErr frame false p.zipIdx.reverse w trace pctx
  refine ⟨calls, ?_, fun call member data => by simp [kinds call member]⟩
  rw [← traced_reverse, List.map_reverse, List.zipIdx_map_fst] at eq
  exact eq

theorem decides_last (frame : Bytes) :
    p.Decides (p.traced.runResponseFrame ctxErr.traced frame true)
      (reaches ctxErr frame true p.reverse) := by
  intro w trace pctx unclosed
  obtain ⟨calls, eq, kinds, started, all⟩ :=
    frameIn_tag ctxErr frame true p.zipIdx.reverse w trace pctx
  rw [← traced_reverse] at eq
  have done : (p.traced.runResponseFrame ctxErr.traced frame true (w, trace) pctx).2.1.2 =
      trace ++ calls := by
    rw [runResponseFrame, eq]
  have plain : p.zipIdx.reverse.map Prod.fst = p.reverse := by
    rw [List.map_reverse, List.zipIdx_map_fst]
  rw [done, p.finalized_concat_iff unclosed kinds started, ← idle_or_reaches_iff started all, plain]
  simp [idle]

variable {condition : W → Context → Bool}

theorem Decides.andThen {first second : Hook (W × Trace)} {plain : Hook W} (h : Midway first plain)
    (h' : p.Decides second condition) :
    p.Decides (andThen first second) (passes plain condition) := by
  intro w trace pctx unclosed
  obtain ⟨calls, eq, kinds⟩ := h w trace pctx
  unfold Pipeline.andThen passes
  rw [eq]
  rcases plain w pctx with ⟨_ | violation, w', pctx'⟩
  · exact h' w' (trace ++ calls) pctx' (unclosed.append kinds)
  · rw [p.finalized_of_unclosed_iff (unclosed.append kinds)]
    simp

variable {stage : Hook (W × Trace)}

theorem Decides.ifStreaming (h : p.Decides stage condition) :
    p.Decides (p.traced.ifStreaming stage) condition := by
  intro w trace pctx unclosed
  unfold Pipeline.ifStreaming
  split
  · exact h w trace pctx unclosed
  next silent =>
    have nobody : p.idle = true := by
      refine List.all_eq_true.mpr fun entry member => ?_
      rw [hasStreamingResponders_traced] at silent
      have none : entry.1.onResponseFrame.isSome = false := by
        have := List.any_eq_false.mp (Bool.eq_false_iff.mpr silent) entry member
        simpa using this
      simp [streamingEnabled, none]
    exact iff_of_true (p.finalized_of_idle nobody _) (.inl nobody)

theorem midway_feed (ctxErr : CtxErr W) (p : Pipeline W) (frames : List Bytes) :
    Midway (p.traced.feed ctxErr.traced frames) (p.feed ctxErr frames) := by
  induction frames with
  | nil => exact fun w trace pctx => ⟨[], by simp [feed], by simp [Unclosed]⟩
  | cons frame rest ih =>
    intro w trace pctx
    obtain ⟨calls, eq, kinds⟩ := midway_runResponseFrame ctxErr p frame w trace pctx
    unfold feed
    rw [eq]
    rcases p.runResponseFrame ctxErr frame false w pctx with ⟨_ | violation, w', pctx'⟩
    · obtain ⟨calls', eq', kinds'⟩ := ih w' (trace ++ calls) pctx'
      exact ⟨calls ++ calls', by simpa [List.append_assoc] using eq', kinds.append kinds'⟩
    · exact ⟨calls, rfl, kinds⟩

theorem decides_close (frames : List Bytes) :
    p.Decides (fun w pctx =>
      let out := p.traced.feed ctxErr.traced frames w pctx
      p.traced.runResponseFrame ctxErr.traced [] true out.2.1 out.2.2)
      (p.closes ctxErr frames) := by
  intro w trace pctx unclosed
  obtain ⟨calls, eq, kinds⟩ := midway_feed ctxErr p frames w trace pctx
  dsimp only
  rw [eq]
  exact decides_last [] _ _ _ (unclosed.append kinds)

variable (frames : List Bytes) (writes : Nat → Bool) (resp : Upstream) (w : W) (pctx : Context)

theorem replayFrames_eq :
    replayFrames ctxErr p frames w pctx =
      andThen (p.feed ctxErr frames) (p.runResponseFrame ctxErr [] true) w pctx := by
  induction frames generalizing w pctx with
  | nil => rfl
  | cons frame rest ih => grind [replayFrames, andThen, feed]

theorem decides_replay :
    p.Decides (replayFrames ctxErr.traced p.traced frames) (p.replays ctxErr frames) := by
  have eq : replayFrames ctxErr.traced p.traced frames = _ :=
    funext fun w => funext fun pctx => replayFrames_eq frames w pctx
  rw [eq]
  exact Decides.andThen (midway_feed ctxErr p frames) (decides_last [])

theorem decides_handOver :
    p.Decides (fun w pctx => p.traced.runResponseFrame ctxErr.traced pctx.responseBody true w pctx)
      (p.handsOver ctxErr) :=
  fun w trace pctx unclosed => decides_last pctx.responseBody w trace pctx unclosed

theorem Decides.respond (h : p.Decides stage condition) :
    p.Decides (Pipeline.andThen (p.traced.runResponse ctxErr.traced) stage)
      (passes (p.runResponse ctxErr) condition) :=
  Decides.andThen midway_runResponse h

theorem decides_bufferedResponse (statusCode : Nat) (headers : Header) (body : Bytes) :
    p.Decides (p.traced.bufferedResponse ctxErr.traced statusCode headers body) (fun w pctx =>
      passes (p.runResponse ctxErr) (p.handsOver ctxErr) w
        (p.receive statusCode headers body pctx)) := by
  intro w trace pctx unclosed
  have receive : p.traced.receive statusCode headers body pctx =
      p.receive statusCode headers body pctx := by
    simp [Pipeline.receive]
  have phases : p.Decides _ (passes (p.runResponse ctxErr) (p.handsOver ctxErr)) :=
    decides_handOver.ifStreaming.respond
  have decided := phases w trace (p.receive statusCode headers body pctx) unclosed
  unfold bufferedResponse
  rw [receive]
  exact decided

/-! The listeners -/

theorem streamFramesTo_snd (n : Nat) (frames : List Bytes) (w : W)
    (pctx : Context) :
    (streamFramesTo ctxErr p writes n frames w pctx).2 =
      (p.feed ctxErr (framesTaken writes n frames) w pctx).2 := by
  induction frames generalizing n w pctx with
  | nil => rfl
  | cons frame rest ih => grind [streamFramesTo, framesTaken, feed]

theorem handleStreamingTo_snd :
    (handleStreamingTo ctxErr p writes resp w pctx).2 =
      let out :=
        p.feed ctxErr (framesTaken writes 0 (Sse.frames maxResponseBody resp.body).1) w pctx
      (p.runResponseFrame ctxErr [] true out.2.1 out.2.2).2 := by
  unfold handleStreamingTo
  dsimp only
  rw [← streamFramesTo_snd]

theorem copy_close (ctxErr : CtxErr W) (p : Pipeline W) (sizes : List Nat)
    (b : StreamingResponseBody) (finished : b.finished = false) (closed : b.closed = false)
      (w : W) (pctx : Context) :
    let copied := StreamingResponseBody.copy ctxErr p sizes b w pctx
    let out := p.feed ctxErr (framesRead sizes b.pending b.frames) w pctx
    (copied.2.1.close ctxErr p copied.2.2.1 copied.2.2.2).2 =
      (p.runResponseFrame ctxErr [] true out.2.1 out.2.2).2 := by
  induction sizes generalizing b w pctx with
  | nil => simp [StreamingResponseBody.copy, framesRead, feed, StreamingResponseBody.close, *]
  | cons n sizes ih =>
    unfold StreamingResponseBody.copy StreamingResponseBody.read framesRead
    by_cases left : b.pending ≠ []
    · simp only [if_pos left]
      exact ih { b with pending := b.pending.drop n } finished closed w pctx
    · simp only [if_neg left, finished, Bool.false_eq_true, if_false]
      cases b.frames with
      | nil => simp [feed, StreamingResponseBody.close, closed]
      | cons frame rest =>
        unfold feed
        dsimp only
        rcases p.runResponseFrame ctxErr frame false w pctx with ⟨_ | violation, w', pctx'⟩
        · exact ih ⟨rest, b.err, (Sse.writeSSEFrame frame).drop n, false, b.closed⟩ rfl closed
            w' pctx'
        · simp [StreamingResponseBody.close, closed]

@[simp] theorem streams_traced : p.traced.streams resp = p.streams resp := by
  simp [streams]

theorem streamFallbackBuffered_snd :
    (streamFallbackBuffered ctxErr p resp w pctx).2 =
      match readAll resp.body with
      | .error _ => (w, pctx)
      | .ok body =>
        (andThen (p.runResponse ctxErr)
          (p.ifStreaming (replayFrames ctxErr p (Sse.frames maxResponseBody ⟨body, false⟩).1)) w
          { pctx with responseBody := body }).2 := by
  unfold streamFallbackBuffered andThen ifStreaming
  cases readAll resp.body with
  | error failure => rfl
  | ok body =>
    dsimp only
    rcases p.runResponse ctxErr w { pctx with responseBody := body } with
      ⟨_ | violation, w', pctx'⟩
    · dsimp only
      split
      next answer => rw [answer]
      next answer => rw [answer]
    · rfl

theorem serveBuffered_snd :
    (serveBuffered ctxErr p resp w pctx).2 =
      match if p.needsBody then readAll resp.body else .ok [] with
      | .error _ => (w, pctx)
      | .ok body => (p.bufferedResponse ctxErr resp.statusCode resp.header body w pctx).2 := by
  unfold serveBuffered
  cases if p.needsBody then readAll resp.body else .ok [] with
  | error failure => rfl
  | ok body => grind

theorem modifyBuffered_snd :
    (modifyBuffered ctxErr p resp w pctx).2 = (serveBuffered ctxErr p resp w pctx).2 := by
  rw [serveBuffered_snd]
  unfold modifyBuffered
  cases if p.needsBody then readAll resp.body else .ok [] with
  | error failure => rfl
  | ok body => grind

theorem unclosed_nil : Unclosed [] := by simp [Unclosed]

theorem finalized_serveBuffered :
    p.Finalized (serveBuffered ctxErr.traced p.traced resp (w, []) pctx).2.1.2 ↔
      p.idle = true ∨ p.buffersWell ctxErr resp w pctx = true := by
  rw [serveBuffered_snd, needsBody_traced]
  unfold buffersWell
  cases if p.needsBody then readAll resp.body else .ok [] with
  | error failure =>
    rw [p.finalized_of_unclosed_iff unclosed_nil]
    simp
  | ok body => exact decides_bufferedResponse _ _ _ w [] pctx unclosed_nil

theorem finalized_serveForward (flushes : Bool) (writes : Nat → Bool) (resp : Upstream) (w : W)
    (pctx : Context) :
    p.Finalized (serveForward ctxErr.traced p.traced flushes writes resp (w, []) pctx).2.1.2 ↔
      p.idle = true ∨ p.finalizesForward ctxErr flushes writes resp w pctx = true := by
  unfold serveForward finalizesForward
  rw [streams_traced]
  split
  · split
    · rw [handleStreamingTo_snd]
      exact decides_close _ w [] _ unclosed_nil
    · rw [streamFallbackBuffered_snd]
      cases readAll resp.body with
      | error failure =>
        rw [p.finalized_of_unclosed_iff unclosed_nil]
        simp
      | ok body => exact (decides_replay _).ifStreaming.respond w [] _ unclosed_nil
  · exact finalized_serveBuffered resp w _

theorem finalized_serveReverse (sizes : List Nat) (resp : Upstream) (w : W) (pctx : Context) :
    p.Finalized (serveReverse ctxErr.traced p.traced sizes resp (w, []) pctx).2.1.2 ↔
      p.idle = true ∨ p.finalizesReverse ctxErr sizes resp w pctx = true := by
  unfold serveReverse finalizesReverse
  rw [streams_traced]
  split
  · have closed := copy_close ctxErr.traced p.traced sizes
      (.opened resp.body) rfl rfl (w, [])
      { pctx with statusCode := resp.statusCode, responseHeaders := resp.header }
    have same := congrArg (fun out => p.Finalized out.1.2) closed
    exact (iff_of_eq same).trans (decides_close _ w [] _ unclosed_nil)
  · rw [modifyBuffered_snd]
    exact finalized_serveBuffered resp w _

theorem finalized_serveExtProc :
    p.Finalized (serveExtProc ctxErr.traced p.traced resp (w, []) pctx).2.1.2 ↔
      p.idle = true ∨ p.finalizesExtProc ctxErr resp w pctx = true := by
  unfold serveExtProc finalizesExtProc
  rw [needsBody_traced]
  split
  · cases resp.body.failed with
    | true =>
      simp only [if_true, Bool.not_true, Bool.false_and]
      rw [p.finalized_of_unclosed_iff unclosed_nil]
      simp
    | false =>
      have frames : p.Decides (dispatchBufferedFrames ctxErr.traced p.traced) fun w pctx =>
          if isEventStream (headerGet pctx.responseHeaders "Content-Type") ∧
              pctx.responseBody ≠ [] then
            p.replays ctxErr (Sse.frames maxResponseBody ⟨pctx.responseBody, false⟩).1 w pctx
          else p.handsOver ctxErr w pctx := by
        intro w trace pctx unclosed
        unfold dispatchBufferedFrames
        dsimp only
        split
        · exact decides_replay _ w trace pctx unclosed
        · exact decides_handOver w trace pctx unclosed
      exact frames.ifStreaming.respond w [] _ unclosed_nil
  · exact (decides_last []).ifStreaming.respond w [] _ unclosed_nil

/-- In each of the three listeners, however the stream ends, every enabled streaming
responder gets one last frame behind all others if and only if the listener comes to its
final call and that call comes to every one of them. -/
theorem finalized_iff (ctxErr : CtxErr W) (p : Pipeline W) (resp : Upstream) (w : W)
    (pctx : Context) :
    (∀ flushes writes,
      p.Finalized (serveForward ctxErr.traced p.traced flushes writes resp (w, []) pctx).2.1.2 ↔
        p.idle = true ∨ p.finalizesForward ctxErr flushes writes resp w pctx = true) ∧
    (∀ sizes,
      p.Finalized (serveReverse ctxErr.traced p.traced sizes resp (w, []) pctx).2.1.2 ↔
        p.idle = true ∨ p.finalizesReverse ctxErr sizes resp w pctx = true) ∧
    (p.Finalized (serveExtProc ctxErr.traced p.traced resp (w, []) pctx).2.1.2 ↔
      p.idle = true ∨ p.finalizesExtProc ctxErr resp w pctx = true) :=
  ⟨fun flushes writes => finalized_serveForward flushes writes resp w pctx,
    fun sizes => finalized_serveReverse sizes resp w pctx, finalized_serveExtProc resp w pctx⟩

def watcher (name : String) (answer : Action) : Plugin Nat where
  name := name
  capabilities := ⟨true, false, [], []⟩
  onRequest := fun w pctx => (.cont, w, pctx)
  onResponse := fun w pctx => (.cont, w, pctx)
  onResponseFrame := some fun _ _ w pctx => (answer, w, pctx)

def oneEvent : Upstream where
  statusCode := 200
  header := headerSet ∅ "Content-Type" "text/event-stream"
  body := ⟨bytes "data: hi\n\n", false⟩

def streamRequest : Context :=
  Context.ofRequest .outbound "POST" "http" "tool" (bytes "/") ∅ []

/-- The client goes away behind the first frame, and with it the `ctx`. -/
def cancelledAfterOne : CtxErr Nat := fun looks => (decide (1 ≤ looks), looks + 1)

def neverCancelled : CtxErr Nat := fun looks => (false, looks)

/-- After the client has gone away nobody gets the last frame, and a guard that rejects it
keeps it from the plugins in front of the guard. -/
theorem stream_left_open :
    (let p : Pipeline Nat := [(watcher "a2a-parser" .cont, .enforce)]
     p.validateCapabilities = .ok () ∧
     ¬p.Finalized (serveForward cancelledAfterOne.traced p.traced true (fun _ => false) oneEvent
        (0, []) streamRequest).2.1.2 ∧
     ¬p.Finalized (serveReverse cancelledAfterOne.traced p.traced [32] oneEvent (0, [])
        streamRequest).2.1.2 ∧
     ¬p.Finalized (serveExtProc cancelledAfterOne.traced p.traced oneEvent (0, [])
        streamRequest).2.1.2) ∧
    (let p : Pipeline Nat := [(watcher "a2a-parser" .cont, .enforce),
        (watcher "guard" (.deny "content" "refused"), .enforce)]
     p.validateCapabilities = .ok () ∧
     ¬p.Finalized (serveForward neverCancelled.traced p.traced true (fun _ => true) oneEvent
        (0, []) streamRequest).2.1.2 ∧
     ¬p.Finalized (serveReverse neverCancelled.traced p.traced [32, 32] oneEvent (0, [])
        streamRequest).2.1.2 ∧
     ¬p.Finalized (serveExtProc neverCancelled.traced p.traced oneEvent (0, [])
        streamRequest).2.1.2) := by
  constructor
  · intro p
    rw [finalized_serveForward, finalized_serveReverse, finalized_serveExtProc]
    decide +kernel
  · intro p
    rw [finalized_serveForward, finalized_serveReverse, finalized_serveExtProc]
    decide +kernel

/-- With a `ctx` that lasts and a guard that accepts, the stream is closed for both. -/
example : finalizesReverse neverCancelled
    [(watcher "a2a-parser" .cont, .enforce), (watcher "guard" .cont, .enforce)] [32, 32] oneEvent
    0 streamRequest = true := by
  decide +kernel

end Pipeline

end Kagenti.AuthBridge
