import Kagenti.AuthBridge.ForwardProxy
import Kagenti.AuthBridge.ResponseParsers

/-!
The request body in the `ext_proc` listener. Envoy sends a body only if the answer to the headers
asks for it. The messages of the response are left out.
-/

namespace Kagenti.AuthBridge

open Go

abbrev HeaderMap := List (String × String)

def getHeader (headers : HeaderMap) (key : String) : String :=
  ((headers.find? fun h => foldName h.1 = foldName key).map Prod.snd).getD ""

def headerMapToHTTP (headers : HeaderMap) : Header :=
  headers.foldl (fun h (key, value) => headerSet h key value) ∅

def requestHasBody (headers : HeaderMap) : Bool :=
  let method := getHeader headers ":method"
  if method = "GET" ∨ method = "HEAD" ∨ method = "OPTIONS" ∨ method = "DELETE" then false
  else
    let cl := getHeader headers "content-length"
    if cl ≠ "" ∧ cl ≠ "0" then true else getHeader headers "transfer-encoding" ≠ ""

inductive ProcessingRequest where
  | requestHeaders (headers : HeaderMap)
  | requestBody (body : Bytes)

inductive ProcessingResponse where
  | sendBody
  | tooLarge
  | done
  deriving DecidableEq

structure ExtProc (W : Type*) where
  inbound : Pipeline W
  outbound : Pipeline W
  ctxErr : Pipeline.CtxErr W
  glob : Glob
  skipHosts : List String
  session : W → Option SessionView

structure ExtProcStream (W : Type*) where
  pendingHeaders : HeaderMap
  pendingDirection : String
  world : W
  ran : List Context

namespace ExtProc

variable {W : Type*} (s : ExtProc W)

def pipeline (direction : String) : Pipeline W :=
  if direction = "inbound" then s.inbound else s.outbound

def requestHost (headers : HeaderMap) : String :=
  let host := getHeader headers ":authority"
  if host = "" then getHeader headers "host" else host

def skips (direction : String) (headers : HeaderMap) : Bool :=
  direction ≠ "inbound" && (matchPattern s.glob s.skipHosts (requestHost headers)).isSome

def requestContext (direction : String) (headers : HeaderMap) (body : Bytes) (w : W) : Context :=
  let base (d : Direction) (host : String) : Context :=
    .ofRequest d (getHeader headers ":method") (getHeader headers ":scheme") host
      (bytes (getHeader headers ":path")) (headerMapToHTTP headers) body
  if direction = "inbound" then base .inbound ""
  else { base .outbound (requestHost headers) with session := s.session w }

def handle (st : ExtProcStream W) (direction : String) (headers : HeaderMap) (body : Bytes) :
    ExtProcStream W :=
  if s.skips direction headers then st
  else
    let pctx := s.requestContext direction headers body st.world
    let (_, w, _) := (s.pipeline direction).run s.ctxErr st.world pctx
    { st with world := w, ran := st.ran ++ [pctx] }

def process (st : ExtProcStream W) : ProcessingRequest → ProcessingResponse × ExtProcStream W
  | .requestHeaders headers =>
    let direction := getHeader headers "x-authbridge-direction"
    if (s.pipeline direction).needsBody && requestHasBody headers then
      (.sendBody, { st with pendingHeaders := headers, pendingDirection := direction })
    else (.done, s.handle st direction headers [])
  | .requestBody body =>
    let cleared := { st with pendingHeaders := [], pendingDirection := "" }
    if maxBodySize < body.length then (.tooLarge, cleared)
    else (.done, s.handle cleared st.pendingDirection st.pendingHeaders body)

/-- A request through Envoy: the body follows when it is asked for. -/
def exchange (headers : HeaderMap) (body : Bytes) (w : W) : ExtProcStream W :=
  match s.process ⟨[], "", w, []⟩ (.requestHeaders headers) with
  | (.sendBody, st) => (s.process st (.requestBody body)).2
  | (_, st) => st

variable {s} {headers : HeaderMap} {body : Bytes}

theorem body_requestContext (direction : String) (w : W) :
    (s.requestContext direction headers body w).body = body := by
  unfold requestContext
  split <;> rfl

theorem ran_handle {direction : String} (st : ExtProcStream W) (body : Bytes)
    (served : s.skips direction headers = false) :
    ∃ pctx, (s.handle st direction headers body).ran = st.ran ++ [pctx] ∧ pctx.body = body := by
  unfold handle
  rw [if_neg (by simp [served])]
  exact ⟨_, rfl, body_requestContext direction st.world⟩

theorem requestHasBody_iff : requestHasBody headers = true ↔
    getHeader headers ":method" ∉ ["GET", "HEAD", "OPTIONS", "DELETE"] ∧
      (getHeader headers "content-length" ∉ ["", "0"] ∨
        getHeader headers "transfer-encoding" ≠ "") := by
  simp only [requestHasBody, List.mem_cons, List.not_mem_nil, or_false, not_or]
  split_ifs with bodyless stated
  · exact iff_of_false nofun fun h => by simp [h.1] at bodyless
  · exact iff_of_true rfl ⟨by simpa [not_or] using bodyless, .inl stated⟩
  · rw [or_iff_right stated, and_iff_right (by simpa [not_or] using bodyless)]
    exact decide_eq_true_iff

/-- A body is seen under `ext_proc` exactly if the headers announce it. The forward proxy reads the
body of every request, whatever its headers say. -/
theorem body_delivered_iff {direction : String}
    (routed : getHeader headers "x-authbridge-direction" = direction)
    (needs : (s.pipeline direction).needsBody = true) (served : s.skips direction headers = false)
    (nonempty : body ≠ []) (small : body.length ≤ maxBodySize) (w : W)
    {fp : ForwardProxy W} {r : HttpRequest} (same : r.body = body)
    (fpNeeds : fp.outbound.needsBody = true) (fpServed : fp.skips r.host = false) :
    ((∃ pctx, (s.exchange headers body w).ran = [pctx] ∧ pctx.body = body) ↔
      getHeader headers ":method" ∉ ["GET", "HEAD", "OPTIONS", "DELETE"] ∧
        (getHeader headers "content-length" ∉ ["", "0"] ∨
          getHeader headers "transfer-encoding" ≠ "")) ∧
    ∃ pctx : Context, pctx.body = body ∧ fp.serveOutbound r w =
      match fp.outbound.run fp.ctxErr w pctx with
      | (.reject _, w, _) => (none, w)
      | (.cont, w, after) => (ForwardProxy.send r false pctx after, w) := by
  rw [← requestHasBody_iff]
  refine ⟨?_, ?_⟩
  · unfold exchange process
    dsimp only
    rw [routed, needs, Bool.true_and]
    cases announced : requestHasBody headers with
    | true =>
      rw [if_pos rfl]
      dsimp only
      rw [if_neg (Nat.not_lt.mpr small)]
      exact iff_of_true (ran_handle _ body served) rfl
    | false =>
      obtain ⟨pctx, ran, empty⟩ := ran_handle ⟨[], "", w, []⟩ [] served
      refine iff_of_false ?_ Bool.false_ne_true
      rintro ⟨pctx', ran', seen⟩
      cases ran.symm.trans ran'
      exact nonempty (seen.symm.trans empty)
  · have fits : ¬ (fp.outbound.needsBody = true ∧ maxBodySize < r.body.length) := by
      rw [same]
      omega
    have unskipped : ¬ fp.skips r.host = true := by simp [fpServed]
    refine ⟨_, ?_, (if_neg unskipped).trans (if_neg fits)⟩
    exact (if_pos fpNeeds).trans same

def parsing : Pipeline Unit := [(inferenceParser, .enforce)]

def parsingExtProc : ExtProc Unit :=
  ⟨parsing, parsing, fun w => (false, w), fun _ _ => false, [], fun _ => none⟩

def parsingProxy : ForwardProxy Unit :=
  ⟨parsing, fun w => (false, w), fun _ _ => false, [], fun _ => none, none⟩

/-- A request with a content length has its body delivered. -/
theorem body_delivered_with_length :
    ∃ pctx, (parsingExtProc.exchange [(":method", "POST"), ("content-length", "2")] (bytes "hi")
      ()).ran = [pctx] ∧ pctx.body = bytes "hi" := by
  have needs : parsingProxy.outbound.needsBody = true := rfl
  exact (body_delivered_iff rfl rfl rfl (by decide) (by decide) ()
    (r := ⟨"POST", "http", "llm", [], "llm", ∅, bytes "hi"⟩) rfl needs rfl).1.mpr (by decide)

/-- A DELETE with a body, and a POST whose headers have no length, run with an empty body. -/
theorem body_lost :
    (parsingExtProc.exchange [(":method", "DELETE"), ("content-length", "2")] (bytes "hi")
      ()).ran.map Context.body = [[]] ∧
    (parsingExtProc.exchange [(":method", "POST"), (":authority", "llm")] (bytes "hi")
      ()).ran.map Context.body = [[]] ∧
    (parsingExtProc.pipeline "").needsBody = true := by
  decide +kernel

end ExtProc

end Kagenti.AuthBridge
