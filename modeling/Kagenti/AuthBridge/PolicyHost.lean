import Kagenti.AuthBridge.Configured
import Kagenti.AuthBridge.ForwardProxy

/-!
Whether the host on which the proxy decides policy for a request is the host that the
request goes to.
-/

namespace Kagenti.AuthBridge

open Go

def namedHost (authority : String) : String :=
  let host :=
    match splitHostPort authority with
    | some (host, _) => host.toList
    | none => authority.toList.filter fun c => c ≠ '[' ∧ c ≠ ']'
  String.ofList (host.map Char.toLower)

def SameHost (a b : String) : Prop := namedHost a = namedHost b

instance (a b : String) : Decidable (SameHost a b) :=
  inferInstanceAs (Decidable (namedHost a = namedHost b))

def Served.sent : Served → Forwarded
  | .plain _ sent => sent
  | .bridged _ _ sent => sent

namespace ForwardProxy

variable {W : Type*} (s : ForwardProxy W)

def authority : Connection W → Option String
  | .proxied requests _ _ =>
    (requests.find? fun turn => turn.1.method = "CONNECT").map fun turn => turn.1.read.host
  | .captured dst sniffed _ _ => some (s.capturedHost dst sniffed)

variable {r : HttpRequest}

theorem send_hosts {skipped : Bool} {before after : Context} {sent : Forwarded}
    (h : send r skipped before after = some sent) :
    sent.policyHost = before.host ∧ sent.urlHost = r.urlHost ∧ r.urlHost ≠ "" := by
  unfold send at h
  dsimp only at h
  split at h
  next addressed =>
    obtain rfl := Option.some.inj h
    exact ⟨rfl, rfl, addressed.1⟩
  · contradiction

variable {w : W}

theorem serveOutbound_hosts {sent : Forwarded} (h : (s.serveOutbound r w).1 = some sent) :
    sent.policyHost = r.host ∧ sent.urlHost = r.urlHost ∧ r.urlHost ≠ "" := by
  unfold serveOutbound at h
  dsimp only at h
  split at h
  · dsimp only at h
    exact send_hosts h
  · split at h
    · contradiction
    · split at h
      · contradiction
      · exact send_hosts h

def Agrees (tunnelTo : Option String) : Served → Prop
  | .plain _ sent => SameHost sent.policyHost sent.urlHost
  | .bridged authority request sent =>
    tunnelTo = some authority ∧
      (SameHost sent.policyHost sent.urlHost ↔ SameHost request.read.host authority)

variable {served : Served}

theorem agrees_plain {request : WireRequest} {tunnelTo : Option String}
    (h : served ∈ ((s.serveOutbound request.read w).1.map (Served.plain request)).toList) :
    Agrees tunnelTo served := by
  obtain ⟨sent, forwarded, rfl⟩ := Option.map_eq_some_iff.mp (Option.mem_toList.mp h)
  obtain ⟨policy, url, addressed⟩ := s.serveOutbound_hosts forwarded
  -- a URL with a host gives the request its host
  have host : request.read.host = request.read.urlHost := if_neg addressed
  rw [Agrees, policy, url, host]
  rfl

variable {inner : List (Turn W)}

theorem agrees_bridged (authority : String) (h : served ∈ (s.serveBridged authority inner w).1) :
    Agrees (some authority) served := by
  induction inner generalizing w with
  | nil => contradiction
  | cons turn rest ih =>
    obtain ⟨request, later⟩ := turn
    rcases List.mem_append.mp h with first | rest
    · obtain ⟨sent, forwarded, rfl⟩ := Option.map_eq_some_iff.mp (Option.mem_toList.mp first)
      obtain ⟨policy, url, -⟩ := s.serveOutbound_hosts forwarded
      rw [Agrees, policy, url]
      exact ⟨rfl, Iff.rfl⟩
    · exact ih rest

variable {tunnel : Tunnel}

theorem agrees_tunnel {authority : String} {port : Int}
    (h : served ∈ (s.runTunnel authority port tunnel inner w).1) :
    Agrees (some authority) served := by
  unfold runTunnel at h
  split at h
  · contradiction
  · split at h
    · exact s.agrees_bridged authority h
    · contradiction

theorem agrees_connect (h : served ∈ (s.handleConnect r tunnel inner w).1) :
    Agrees (some r.host) served := by
  unfold handleConnect at h
  generalize (if s.skips r.host then (true, w) else s.gate r.host r.headers w) = opened at h
  dsimp only at h
  split at h
  · exact s.agrees_tunnel h
  · contradiction

theorem agrees_proxied {requests : List (Turn W)}
    (h : served ∈ (s.serveProxied tunnel inner requests w).1) :
    Agrees (s.authority (.proxied requests tunnel inner)) served := by
  induction requests generalizing w with
  | nil => contradiction
  | cons turn rest ih =>
    obtain ⟨request, later⟩ := turn
    unfold serveProxied at h
    split at h
    next connect =>
      have target : s.authority (.proxied ((request, later) :: rest) tunnel inner) =
          some request.read.host := by
        simp [authority, connect]
      rw [target]
      exact s.agrees_connect h
    next plain =>
      rcases List.mem_append.mp h with first | more
      · exact s.agrees_plain first
      · have target : s.authority (.proxied ((request, later) :: rest) tunnel inner) =
            s.authority (.proxied rest tunnel inner) := by
          simp [authority, plain]
        rw [target]
        exact ih more

theorem agrees_captured {dst sniffed : String}
    (h : served ∈ (s.handleTransparentConn dst sniffed tunnel inner w).1) :
    Agrees (some (s.capturedHost dst sniffed)) served := by
  unfold handleTransparentConn at h
  dsimp only at h
  split at h
  · exact s.agrees_tunnel h
  · contradiction

end ForwardProxy

/-- The policy host of a forwarded request names the host that it goes to exactly if the
request came on a plain connection, or out of a bridged tunnel whose authority names the
host of the request. -/
theorem policyHost_names_destination_iff {W : Type*} (s : ForwardProxy W) (conn : Connection W)
    (w : W) {served : Served} (h : served ∈ (s.serve conn w).1) :
    SameHost served.sent.policyHost served.sent.urlHost ↔
      ∀ authority request sent, served = .bridged authority request sent →
        s.authority conn = some authority ∧ SameHost request.read.host authority := by
  have agrees : ForwardProxy.Agrees (s.authority conn) served := by
    cases conn with
    | proxied requests tunnel inner => exact s.agrees_proxied h
    | captured dst sniffed tunnel inner => exact s.agrees_captured h
  cases served with
  | plain request sent => exact ⟨fun _ => nofun, fun _ => agrees⟩
  | bridged authority request sent =>
    obtain ⟨target, named⟩ := agrees
    constructor
    · rintro same _ _ _ ⟨⟩
      exact ⟨target, named.mp same⟩
    · intro condition
      exact named.mpr (condition authority request sent rfl).2

/-! A proxy with one route -/

/-- Tokens for host `payments` are exchanged, and name their audience. -/
def paymentsExchange : TokenExchange where
  inner := some
    { router := some ⟨[⟨"payments", "payments-api", "", "", ""⟩], ""⟩
      audienceFromHost := false
      exchanger := some ⟨"idp"⟩
      noTokenPolicy := .allow }
  resolvePlaceholders := false

def exampleAccess : ExchangeAccess (Option ExchangeCache) where
  outside _ :=
    { readAt := 0
      storedAt := 0
      exchange := fun req => some ⟨req.audience, 0⟩
      clientCredentials := fun _ _ => none
      order := [] }
  cache w := w
  setCache _ cache := cache
  realToken _ _ := none

def paymentsProxy : ForwardProxy (Option ExchangeCache) where
  outbound :=
    [((paymentsExchange.plugin (fun pattern host => decide (pattern = host)) id
      exampleAccess).wrapConfigured [], .enforce)]
  ctxErr w := (false, w)
  glob pattern host := decide (pattern = host)
  skipHosts := []
  session _ := none
  tlsBridge := some ⟨[443, 8443], []⟩

def connectAndGet (authority host : String) : Connection (Option ExchangeCache) :=
  .proxied [(⟨"CONNECT", .authority authority, authority, ∅, []⟩, id)]
    ⟨true, [0x16, 0x03, 0x01, 0x00, 0x05], false, true, true⟩
    [(⟨"GET", .origin [0x2F], host, headerSet ∅ "Authorization" "Bearer alice", []⟩, id)]

def sentTo (conn : Connection (Option ExchangeCache)) : List (String × String × String) :=
  (paymentsProxy.serve conn none).1.map fun served =>
    (served.sent.policyHost, served.sent.urlHost, headerGet served.sent.headers "Authorization")

/-- A request in the tunnel whose Host header leaves the port out. -/
theorem policyHost_names_destination_payments :
    ∃ served ∈ (paymentsProxy.serve (connectAndGet "payments:443" "payments") none).1,
      SameHost served.sent.policyHost served.sent.urlHost ↔
        ∀ authority request sent, served = .bridged authority request sent →
          paymentsProxy.authority (connectAndGet "payments:443" "payments") = some authority ∧
            SameHost request.read.host authority := by
  have some_ : ((paymentsProxy.serve (connectAndGet "payments:443" "payments") none).1.any
      fun _ => true) = true := by
    decide +kernel
  obtain ⟨served, mem, -⟩ := List.any_eq_true.mp some_
  exact ⟨served, mem, policyHost_names_destination_iff paymentsProxy _ none mem⟩

/-- In a tunnel to `evil`, a Host header that names `payments` gets the token for the
audience of `payments` sent to `evil`. -/
theorem token_sent_to_other_host :
    sentTo (connectAndGet "evil:443" "payments") =
        [("payments", "evil:443", "Bearer payments-api")] ∧
      ¬ SameHost "payments" "evil:443" := by
  decide +kernel

end Kagenti.AuthBridge
