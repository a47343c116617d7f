import Kagenti.AuthBridge.TokenExchange

/-!
The forward proxy (`listener/forwardproxy`) on the request side: plain proxy requests, CONNECT
tunnels, captured connections and the TLS bridge. Session events are left out. What the network
answers is arbitrary.
-/

namespace Kagenti.AuthBridge

open Go

/-! Requests -/

inductive RequestTarget where
  | origin (path : Bytes)
  | absolute (scheme host : String) (path : Bytes)
  -- the target of a CONNECT
  | authority (host : String)

structure WireRequest where
  method : String
  target : RequestTarget
  hostHeader : String
  headers : Header
  body : Bytes

structure HttpRequest where
  method : String
  urlScheme : String
  urlHost : String
  urlPath : Bytes
  host : String
  headers : Header
  body : Bytes

def WireRequest.read (r : WireRequest) : HttpRequest :=
  let (scheme, host, path) :=
    match r.target with
    | .origin path => ("", "", path)
    | .absolute scheme host path => (scheme, host, path)
    | .authority host => ("", host, [])
  { method := r.method
    urlScheme := scheme
    urlHost := host
    urlPath := path
    host := if host = "" then r.hostHeader else host
    headers := r.headers
    body := r.body }

structure Forwarded where
  policyHost : String
  skipped : Bool
  urlScheme : String
  urlHost : String
  urlPath : Bytes
  host : String
  headers : Header
  body : Bytes

/-! The server -/

/-- `MatchPattern`: the first skip pattern that matches the host without its port. -/
def matchPattern (glob : Glob) (patterns : List String) (host : String) : Option String :=
  if host = "" then none
  else
    let host := ((splitHostPort host).map Prod.fst).getD host
    patterns.find? fun pattern => glob pattern host

inductive Verdict where
  | passthrough
  | terminate
  deriving DecidableEq

structure BridgeDecision where
  ports : List Int
  skip : List String
  deriving DecidableEq

/-- The header of a TLS handshake record, of TLS 1.0 to 1.3. -/
def looksLikeTLSRecord (first : Bytes) : Bool :=
  match first with
  | type :: major :: minor :: _ :: _ :: _ =>
    type == 0x16 && major == 0x03 && decide (0x01 ≤ minor) && decide (minor ≤ 0x04)
  | _ => false

def BridgeDecision.classify (d : BridgeDecision) (host : String) (port : Int) (first : Bytes) :
    Verdict :=
  if port ∉ d.ports then .passthrough
  else if !looksLikeTLSRecord first then .passthrough
  else if host ∈ d.skip then .passthrough
  else .terminate

def hostOnly (authority : String) : String := ((splitHostPort authority).map Prod.fst).getD authority

/-- `strconv.Atoi` of a port: digits behind an optional sign. Numbers at the end of the
64-bit range count as too large. -/
def parsePort (port : String) : Option Int :=
  let digits (cs : List Char) : Option Nat :=
    let n := cs.foldl (fun n c => n * 10 + (c.toNat - '0'.toNat)) 0
    if cs = [] ∨ ¬ cs.all Char.isDigit ∨ 2 ^ 63 ≤ n then none else some n
  match port.toList with
  | '-' :: cs => (digits cs).map fun n => -(n : Int)
  | '+' :: cs => (digits cs).map Int.ofNat
  | cs => (digits cs).map Int.ofNat

/-- The port of an authority, or 443. -/
def portOf (authority : String) : Int :=
  ((splitHostPort authority).bind fun (_, port) => parsePort port).getD 443

structure ForwardProxy (W : Type*) where
  outbound : Pipeline W
  ctxErr : Pipeline.CtxErr W
  glob : Glob
  skipHosts : List String
  -- the view of the active session, if there is one
  session : W → Option SessionView
  tlsBridge : Option BridgeDecision

def maxBodySize : Nat := 1048576

def hopByHop : List String :=
  ["Connection", "Keep-Alive", "Proxy-Authenticate", "Proxy-Authorization", "Proxy-Connection",
    "TE", "Trailer", "Transfer-Encoding", "Upgrade"]

abbrev Turn (W : Type*) := WireRequest × (W → W)

structure Tunnel where
  dialed : Bool
  first : Bytes
  autoSkipped : Bool
  verified : Bool
  terminated : Bool

inductive Served where
  | plain (request : WireRequest) (sent : Forwarded)
  | bridged (authority : String) (request : WireRequest) (sent : Forwarded)

namespace ForwardProxy

variable {W : Type*} (s : ForwardProxy W)

def skips (host : String) : Bool := (matchPattern s.glob s.skipHosts host).isSome

/-- The end of the request side of `serveOutbound`. The client sends a request whose URL
has a host and a scheme that it knows. -/
def send (r : HttpRequest) (skipped : Bool) (before after : Context) : Option Forwarded :=
  let oldAuth := headerGet before.headers "Authorization"
  let newAuth := headerGet after.headers "Authorization"
  let headers :=
    if newAuth = oldAuth then r.headers
    else headerSet r.headers "Authorization" ("Bearer " ++ extractBearer newAuth)
  let (headers, body) :=
    if after.bodyMutated then
      (headerDel (headerSet headers "Content-Length" (toString after.body.length))
        "Content-Encoding", after.body)
    else (headers, r.body)
  if r.urlHost ≠ "" ∧ (r.urlScheme = "http" ∨ r.urlScheme = "https") then
    some
      { policyHost := before.host
        skipped := skipped
        urlScheme := r.urlScheme
        urlHost := r.urlHost
        urlPath := r.urlPath
        host := r.host
        headers := hopByHop.foldl headerDel headers
        body := body }
  else none

/-- `serveOutbound` up to the upstream client. A rejected request is not sent. -/
def serveOutbound (r : HttpRequest) (w : W) : Option Forwarded × W :=
  let pctx := Context.ofRequest .outbound r.method r.urlScheme r.host r.urlPath r.headers []
  if s.skips pctx.host then (send r true pctx pctx, w)
  else if s.outbound.needsBody ∧ maxBodySize < r.body.length then (none, w)
  else
    let pctx :=
      { pctx with
        body := if s.outbound.needsBody then r.body else []
        session := s.session w }
    match s.outbound.run s.ctxErr w pctx with
    | (.reject _, w, _) => (none, w)
    | (.cont, w, after) => (send r false pctx after, w)

/-- The requests of a decrypted connection: the handler that `bridgeServe` installs sends
each of them to the authority. -/
def serveBridged (authority : String) : List (Turn W) → W → List Served × W
  | [], w => ([], w)
  | (request, later) :: rest, w =>
    let r := { request.read with urlScheme := "https", urlHost := authority }
    let (sent, w) := s.serveOutbound r w
    let (served, w) := serveBridged authority rest (later w)
    ((sent.map (Served.bridged authority request)).toList ++ served, w)

def runTunnel (authority : String) (port : Int) (tunnel : Tunnel) (inner : List (Turn W)) (w : W) :
    List Served × W :=
  match s.tlsBridge with
  | none => ([], w)
  | some decision =>
    if !tunnel.autoSkipped ∧
        decision.classify (hostOnly authority) port tunnel.first = .terminate ∧
        tunnel.verified ∧ tunnel.terminated then
      s.serveBridged authority inner w
    else ([], w)

def gate (host : String) (headers : Header) (w : W) : Bool × W :=
  let pctx := Context.ofRequest .outbound "CONNECT" "tcp" host [] headers []
  match s.outbound.run s.ctxErr w { pctx with session := s.session w } with
  | (.reject _, w, _) => (false, w)
  | (.cont, w, _) => (true, w)

def handleConnect (r : HttpRequest) (tunnel : Tunnel) (inner : List (Turn W)) (w : W) :
    List Served × W :=
  let (opened, w) := if s.skips r.host then (true, w) else s.gate r.host r.headers w
  if opened ∧ tunnel.dialed then s.runTunnel r.host (portOf r.host) tunnel inner w else ([], w)

def serveProxied (tunnel : Tunnel) (inner : List (Turn W)) : List (Turn W) → W → List Served × W
  | [], w => ([], w)
  | (request, later) :: rest, w =>
    if request.method = "CONNECT" then s.handleConnect request.read tunnel inner w
    else
      let (sent, w) := s.serveOutbound request.read w
      let (served, w) := serveProxied tunnel inner rest (later w)
      ((sent.map (Served.plain request)).toList ++ served, w)

def shouldSniff (dst : String) : Bool :=
  match splitHostPort dst with
  | none => false
  | some (_, port) => port ∈ ["80", "443", "8080", "8443"]

/-- Whether the first bytes of a captured connection are looked at. -/
def sniffs (dst : String) : Bool :=
  shouldSniff dst || s.tlsBridge.any fun decision => decide (portOf dst ∈ decision.ports)

def capturedHost (dst sniffed : String) : String :=
  if s.sniffs dst ∧ sniffed ≠ "" then
    match splitHostPort dst with
    | some (_, port) => joinHostPort sniffed port
    | none => dst
  else dst

def handleTransparentConn (dst sniffed : String) (tunnel : Tunnel) (inner : List (Turn W)) (w : W) :
    List Served × W :=
  let host := s.capturedHost dst sniffed
  let (opened, w) := s.gate host ∅ w
  if opened ∧ tunnel.dialed then
    let tunnel := { tunnel with first := if s.sniffs dst then tunnel.first else [] }
    s.runTunnel host (portOf dst) tunnel inner w
  else ([], w)

end ForwardProxy

inductive Connection (W : Type*) where
  | proxied (requests : List (Turn W)) (tunnel : Tunnel) (inner : List (Turn W))
  | captured (dst sniffed : String) (tunnel : Tunnel) (inner : List (Turn W))

def ForwardProxy.serve {W : Type*} (s : ForwardProxy W) : Connection W → W → List Served × W
  | .proxied requests tunnel inner, w => s.serveProxied tunnel inner requests w
  | .captured dst sniffed tunnel inner, w => s.handleTransparentConn dst sniffed tunnel inner w

end Kagenti.AuthBridge
