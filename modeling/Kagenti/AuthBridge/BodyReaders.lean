import Kagenti.AuthBridge.ResponsePhase

/-!
What the readers of an accepted chain are shown. `validateCapabilities` puts them in front of the
mutator, which is enough for requests; responses run through the chain from its end.
-/

namespace Kagenti.AuthBridge

open Go

variable {W : Type*}

def Plugin.IsReader (plugin : Plugin W) : Prop :=
  plugin.capabilities.readsBody = true ∧ plugin.capabilities.writesBody = false

namespace Call

def Shows (sent received : Bytes) (call : Call) : Prop :=
  match call.kind with
  | .request => call.seen.body = sent
  | .response => call.seen.responseBody = received
  | .frame data _ => data = received
  | .finish => True

def ShowsReader (p : Pipeline W) (sent received : Bytes) (call : Call) : Prop :=
  ∀ entry, p[call.index]? = some entry → entry.1.IsReader → call.Shows sent received

end Call

namespace Pipeline

/-- A plugin without `WritesBody` leaves the bodies alone. -/
def Honest (entry : Plugin W × ErrorPolicy) : Prop :=
  entry.1.capabilities.writesBody = false → ∀ w pctx,
    (dispatch entry.1.name entry.2 .request entry.1.onRequest w pctx).2.2.body = pctx.body ∧
    (dispatch entry.1.name entry.2 .response entry.1.onResponse w pctx).2.2.responseBody =
      pctx.responseBody

/-- `RunResponse` does not call the plugin, or it finds the body unchanged in every response
that the plugin lets pass. -/
def SparesResponse (entry : Plugin W × ErrorPolicy) : Prop :=
  (entry.2 = .off ∨ entry.1.onResponseFrame.isSome) ∨ ∀ w pctx,
    let out := dispatch entry.1.name entry.2 .response entry.1.onResponse w pctx
    out.1 = none → out.2.2.responseBody = pctx.responseBody

def ReadersSeeWire (p : Pipeline W) : Prop :=
  ∀ (ctxErr : CtxErr W) (w : W) (pctx : Context) (statusCode : Nat) (headers : Header)
    (received : Bytes),
    (∀ call ∈ (p.traced.run ctxErr.traced (w, []) pctx).2.1.2,
      call.ShowsReader p pctx.body received) ∧
    ∀ call ∈ (p.traced.bufferedResponse ctxErr.traced statusCode headers received
      (w, []) pctx).2.1.2, call.ShowsReader p pctx.body received

/-! Requests -/

def ReadersFirst (p : Pipeline W) : Prop :=
  p.Pairwise fun a b => a.1.capabilities.writesBody = true → ¬b.1.IsReader

variable {p : Pipeline W}

theorem readersFirst_of_valid (h : p.validateCapabilities = .ok ()) : p.ReadersFirst :=
  (readers_before_writer h).imp fun silent writes reader => by
    have reads := silent writes
    simp [Capabilities.normalize, reader.1] at reads

variable {w : W} {pctx : Context}

theorem run_shows {ctxErr : CtxErr W} {sent received : Bytes} (ordered : p.ReadersFirst)
    (honest : ∀ entry ∈ p, Honest entry) (intact : pctx.body = sent) :
    ∀ call ∈ (p.traced.run ctxErr.traced (w, []) pctx).2.1.2, call.ShowsReader p sent received := by
  refine (run_rule (I := fun i (w' : W × Trace) pctx' =>
      (pctx'.body = sent ∨ ∀ entry ∈ p.drop i, ¬entry.1.IsReader) ∧
        ∀ call ∈ w'.2, call.ShowsReader p sent received)
    (fun i _ _ h => ⟨h.1.imp id fun none entry member => none entry
      (List.drop_subset_drop_left p (Nat.le_succ i) member), h.2⟩)
    ?_ (fun i entry found w' pctx' ⟨intact, shown⟩ => ?_) (w, []) pctx
    ⟨.inl intact, by simp⟩).2
  · exact fun _ _ _ => id
  rw [getElem?_traced] at found
  obtain ⟨⟨plugin, policy⟩, here, rfl⟩ := Option.map_eq_some_iff.mp found
  obtain ⟨inRange, at_i⟩ := List.getElem?_eq_some_iff.mp here
  have split := List.drop_eq_getElem_cons inRange
  rw [at_i] at split
  have ⟨behind, _⟩ := List.pairwise_cons.mp (split ▸ ordered.drop)
  let marked := { pctx' with dispatched := pctx'.dispatched ++ [i] }
  let call : Call := ⟨.request, i, marked.setCurrent plugin.name .request policy⟩
  have shown_call : call.ShowsReader p sent received := by
    intro entry found reader
    obtain rfl := Option.some.inj (here.symm.trans found)
    exact intact.resolve_right fun none => none _ (split ▸ List.mem_cons_self) reader
  have called := dispatch_traced plugin.name policy .request .request i plugin.onRequest w'.1 w'.2
    marked
  dsimp only [Plugin.name_traced, Plugin.traced]
  rw [called]
  refine ⟨?_, List.forall_mem_append.mpr ⟨shown, List.forall_mem_singleton.mpr shown_call⟩⟩
  cases writes : plugin.capabilities.writesBody with
  | true => exact .inr fun b member => behind b member writes
  | false =>
    have kept := (honest _ (List.mem_of_getElem? here) writes w'.1 marked).1
    refine intact.imp kept.trans fun none entry member => none entry ?_
    rw [split]
    exact List.mem_cons_of_mem _ member

/-! Responses -/

variable {trace : Trace} {sent received : Bytes}

def AllShow (sent received : Bytes) (trace : Trace) : Prop :=
  ∀ call ∈ trace, call.Shows sent received

theorem AllShow.snoc {call : Call} (h : AllShow sent received trace)
    (shown : call.Shows sent received) : AllShow sent received (trace ++ [call]) :=
  List.forall_mem_append.mpr ⟨h, List.forall_mem_singleton.mpr shown⟩

theorem exists_of_mem_reverse_traced {entry : Plugin (W × Trace) × ErrorPolicy}
    (h : entry ∈ p.traced.reverse) :
    ∃ plugin i, (plugin, entry.2) ∈ p ∧ entry.1 = Plugin.traced i plugin := by
  obtain ⟨⟨⟨plugin, policy⟩, i⟩, member, rfl⟩ := List.mem_map.mp (List.mem_reverse.mp h)
  exact ⟨plugin, i, List.fst_mem_of_mem_zipIdx member, rfl⟩

theorem runResponse_shows (sent : Bytes) (spares : ∀ entry ∈ p, SparesResponse entry)
    (ctxErr : CtxErr W) (w : W × Trace) (pctx : Context) (intact : pctx.responseBody = received)
    (shown : AllShow sent received w.2) : let out := p.traced.runResponse ctxErr.traced w pctx
    AllShow sent received out.2.1.2 ∧ (out.1 = .cont →
      out.2.2.responseBody = received ∧ AllShow sent received out.2.1.2) := by
  refine respondIn_passing (J := fun w _ => AllShow sent received w.2)
    (I := fun w c => c.responseBody = received ∧ AllShow sent received w.2)
    (fun _ _ h => h.2) ?_ ?_ w pctx ⟨intact, shown⟩
  · exact fun _ _ h => h
  intro entry member on (w, trace) pctx ⟨intact, shown⟩
  obtain ⟨plugin, i, mem, traced⟩ := exists_of_mem_reverse_traced member
  rw [traced] at on ⊢
  rw [Plugin.onResponse_traced, dispatch_traced]
  let call : Call := ⟨.response, i, pctx.setCurrent plugin.name .response entry.2⟩
  have shown' : AllShow sent received (trace ++ [call]) := shown.snoc intact
  refine ⟨shown', fun passed => ⟨?_, shown'⟩⟩
  exact ((spares _ mem).resolve_left (by simpa using on) w pctx passed).trans intact

theorem runResponseFrame_shows (p : Pipeline W) (ctxErr : CtxErr W) (last : Bool) (w : W × Trace)
    (pctx : Context) (shown : AllShow sent received w.2) :
    AllShow sent received (p.traced.runResponseFrame ctxErr.traced received last w pctx).2.1.2 := by
  refine frameIn_rule (I := fun w _ => AllShow sent received w.2) ?_ ?_ w pctx shown
  · exact fun _ _ h => h
  intro entry member hook streams (w, trace) pctx shown
  obtain ⟨plugin, i, mem, traced⟩ := exists_of_mem_reverse_traced member
  rw [traced] at streams ⊢
  obtain ⟨hook, -, rfl⟩ := Option.map_eq_some_iff.mp streams
  rw [dispatch_traced]
  exact shown.snoc rfl

theorem bufferedResponse_shows (sent : Bytes) (spares : ∀ entry ∈ p, SparesResponse entry)
    (ctxErr : CtxErr W) (w : W) (pctx : Context) (statusCode : Nat) (headers : Header)
    (body : Bytes) : AllShow sent (p.receive statusCode headers body pctx).responseBody
      (p.traced.bufferedResponse ctxErr.traced statusCode headers body (w, []) pctx).2.1.2 := by
  have same : p.traced.receive statusCode headers body pctx =
      p.receive statusCode headers body pctx := by
    unfold receive
    rw [needsBody_traced]
  have phase := runResponse_shows sent spares ctxErr (w, [])
    (p.receive statusCode headers body pctx) rfl (fun _ none => by cases none)
  unfold bufferedResponse
  rw [same]
  split
  next answer =>
    rw [answer] at phase
    exact phase.1
  next answer => grind [runResponseFrame_shows]

/-! The mutator of the chain -/

theorem writer_unique (valid : p.validateCapabilities = .ok ()) {a b : Plugin W × ErrorPolicy}
    (ha : a ∈ p) (hb : b ∈ p) (writes : a.1.capabilities.writesBody = true)
    (writes' : b.1.capabilities.writesBody = true) : a = b := by
  have apart : p.Pairwise fun a b => a.1.capabilities.writesBody = true →
      b.1.capabilities.writesBody = true → a = b :=
    (readers_before_writer valid).imp fun silent writes writes' => by
      have reads := silent writes
      simp [Capabilities.normalize, writes'] at reads
  have flipped := apart.imp fun {a b} (same : _ → _ → a = b) writes writes' =>
    (same writes' writes).symm
  exact List.Pairwise.forall_of_forall_of_flip (fun _ _ _ _ => rfl) apart flipped ha hb writes writes'

def probe : Plugin W where
  name := "probe"
  capabilities := { readsBody := true, writesBody := false, requires := [], requiresAny := [] }
  onRequest := fun w pctx => (.cont, w, pctx)
  onResponse := fun w pctx => (.cont, w, pctx)

variable {m : Plugin W} {policy : ErrorPolicy}

theorem honest_around_probe (writes : m.capabilities.writesBody = true) :
    ∀ entry ∈ [((probe : Plugin W), ErrorPolicy.enforce), (m, policy)], Honest entry :=
  List.forall_mem_cons.mpr ⟨fun _ _ _ => ⟨rfl, rfl⟩, List.forall_mem_singleton.mpr fun silent =>
    absurd (writes.symm.trans silent) (by decide)⟩

def live : CtxErr W := fun w => (false, w)

theorem call_probe (on : ¬(policy = .off ∨ m.onResponseFrame.isSome))
    (passed : (dispatch m.name policy .response m.onResponse w pctx).1 = none) :
    let left := (dispatch m.name policy .response m.onResponse w pctx).2.2
    ⟨.response, 0, left.setCurrent "probe" .response .enforce⟩ ∈
      (bufferedResponse live.traced (traced [(probe, .enforce), (m, policy)]) pctx.statusCode
        pctx.responseHeaders pctx.responseBody (w, []) pctx).2.1.2 := by
  intro left
  have silent : hasStreamingResponders (traced [(probe, .enforce), (m, policy)]) = false := by
    rw [hasStreamingResponders_traced]
    simpa [hasStreamingResponders, probe] using (not_or.mp on).2
  have received : receive (traced [(probe, .enforce), (m, policy)]) pctx.statusCode
      pctx.responseHeaders pctx.responseBody pctx = pctx := by
    simp [receive]
  have run : runResponse live.traced (traced [(probe, .enforce), (m, policy)]) (w, []) pctx =
      (.cont, ((dispatch m.name policy .response m.onResponse w pctx).2.1,
        [⟨.response, 1, pctx.setCurrent m.name .response policy⟩,
          ⟨.response, 0, left.setCurrent "probe" .response .enforce⟩]),
        (dispatch "probe" .enforce .response (fun w pctx => (.cont, w, pctx)) w left).2.2) := by
    change respondIn live.traced [(m.traced 1, policy), (probe.traced 0, .enforce)] _ _ = _
    rw [respondIn, if_neg (by simpa using on)]
    dsimp only [CtxErr.traced, live, Plugin.name_traced, Plugin.onResponse_traced]
    rw [dispatch_traced]
    dsimp only
    rw [passed]
    rfl
  rw [bufferedResponse, received, run]
  rw [silent]
  simp

/-- The readers of every accepted chain around a mutator see the bytes from the wire just if
the mutator spares response bodies. -/
theorem readersSeeWire_iff (m : Plugin W) (policy : ErrorPolicy)
    (writes : m.capabilities.writesBody = true) :
    (∀ p : Pipeline W, p.validateCapabilities = .ok () → (∀ entry ∈ p, Honest entry) →
      (m, policy) ∈ p → p.ReadersSeeWire) ↔ SparesResponse (m, policy) := by
  constructor
  · intro h
    by_contra spoils
    obtain ⟨on, spoils⟩ := not_or.mp spoils
    simp only [not_forall] at spoils
    obtain ⟨w, pctx, passed, changed⟩ := spoils
    have valid : validateCapabilities [(probe, .enforce), (m, policy)] = .ok () := by
      simp [validateCapabilities, validateFrom, Capabilities.normalize, probe, writes]
    have shown := (h _ valid (honest_around_probe writes) (by simp) live w pctx pctx.statusCode pctx.responseHeaders
      pctx.responseBody).2 _ (call_probe on passed)
    exact changed (shown _ rfl ⟨rfl, rfl⟩)
  · intro spares p valid honest member ctxErr w pctx statusCode headers received
    have all : ∀ entry ∈ p, SparesResponse entry := by
      intro entry mem
      cases declared : entry.1.capabilities.writesBody with
      | true =>
        obtain rfl := writer_unique valid mem member declared writes
        exact spares
      | false => exact .inr fun w pctx _ => (honest entry mem declared w pctx).2
    constructor
    · exact run_shows (readersFirst_of_valid valid) honest rfl
    · intro call called entry found reader
      have needed : p.needsBody = true :=
        List.any_eq_true.mpr ⟨entry, List.mem_of_getElem? found, by
          simp [Capabilities.normalize, reader.1]⟩
      have shown := bufferedResponse_shows pctx.body all ctxErr w pctx statusCode headers
        received call called
      rwa [receive, if_pos needed] at shown

def redactor : Plugin W :=
  { probe with
    name := "redactor"
    capabilities := { readsBody := true, writesBody := true, requires := [], requiresAny := [] }
    onResponse := fun w pctx => (.cont, w, pctx.setResponseBody []) }

/-- A redactor whose response hook leaves the body alone. -/
theorem readersSeeWire_quiet_redactor :
    ReadersSeeWire (W := Unit)
      [(probe, .enforce), ({ redactor with onResponse := probe.onResponse }, .enforce)] :=
  (readersSeeWire_iff { redactor with onResponse := probe.onResponse } .enforce rfl).mpr
    (.inr fun _ _ _ => rfl) _ rfl (honest_around_probe rfl) (by simp)

/-- The chain is accepted and the request passes; the reader in front of the redactor is shown
an empty response. -/
theorem reader_sees_redacted :
    let p : Pipeline Unit := [(probe, .enforce), (redactor, .enforce)]
    let requested := p.run live () (.ofRequest .outbound "GET" "http" "tool" [] ∅ [])
    p.validateCapabilities = .ok () ∧ (∀ entry ∈ p, Honest entry) ∧ requested.1 = .cont ∧
      ∃ call ∈ (p.traced.bufferedResponse live.traced 200 ∅ [1] ((), []) requested.2.2).2.1.2,
        ¬call.ShowsReader p [] [1] := by
  refine ⟨rfl, honest_around_probe rfl, rfl, _, List.mem_cons_of_mem _ List.mem_cons_self, ?_⟩
  intro shown
  have same : ([] : Bytes) = [1] := shown _ rfl ⟨rfl, rfl⟩
  cases same

end Pipeline

end Kagenti.AuthBridge
