import Kagenti.AuthBridge.Ibac
import Kagenti.Go.Net
import Kagenti.Lib.Outcome
import Mathlib.Data.List.TakeWhile

/-!
The runtime configuration (`authlib/config`): `Load` behind the expansion of the environment and
the YAML decoder, `ApplyPreset` and `Validate`.
-/

namespace Kagenti.AuthBridge

open Go Lib.Outcome

structure ListenerConfig where
  extProcAddr : String
  extAuthzAddr : String
  forwardProxyAddr : String
  reverseProxyAddr : String
  reverseProxyBackend : String
  transparentProxyAddr : String
  sessionAPIAddr : String
  skipHosts : List String
  deriving DecidableEq

structure PluginEntry where
  name : String
  id : String
  onError : ErrorPolicy
  config : Bytes
  deriving DecidableEq

structure PipelineConfig where
  inbound : List PluginEntry
  outbound : List PluginEntry
  deriving DecidableEq

structure SessionConfig where
  enabled : Option Bool
  ttl : String
  maxEvents : Int
  maxSessions : Int
  deriving DecidableEq

structure SPIFFEConfig where
  socket : String
  mirrorFiles : Option Bool
  mirrorDir : String
  deriving DecidableEq

structure TLSBridgeConfig where
  mode : String
  caDir : String
  upstreamCABundle : String
  passthroughHosts : List String
  ports : List Int
  deriving DecidableEq

/-- The blocks `stats` and `mtls` have one field each. -/
structure Config where
  mode : String
  listener : ListenerConfig
  pipeline : PipelineConfig
  session : SessionConfig
  statsAddress : String := ""
  mtlsMode : Option String := none
  spiffe : Option SPIFFEConfig := none
  tlsBridge : Option TLSBridgeConfig := none
  deriving DecidableEq

def TLSBridgeConfig.validate (format : TextFormat) (b : TLSBridgeConfig) : Except String Unit :=
  if b.mode ∉ ["", "disabled", "enabled"] then
    .error ("tls_bridge.mode must be 'disabled' or 'enabled', got " ++ format.quote b.mode)
  else if b.mode = "enabled" ∧ b.caDir = "" then
    .error "tls_bridge.mode=enabled requires ca_dir"
  else
    match b.ports.find? fun p => decide (p < 1 ∨ 65535 < p) with
    | some p => .error ("tls_bridge.ports: " ++ toString p ++ " is out of range 1-65535")
    | none => .ok ()

def validateMTLSMode (format : TextFormat) (mode : String) : Except String Unit :=
  if mode ∈ ["", "permissive", "strict"] then .ok ()
  else .error ("mtls.mode: " ++ format.quote mode ++ " is not a recognized value (use " ++
    format.quote "permissive" ++ " or " ++ format.quote "strict" ++ ")")

def SPIFFEConfig.applyDefaults (s : SPIFFEConfig) : SPIFFEConfig where
  socket := if s.socket = "" then "unix:///spiffe-workload-api/spire-agent.sock" else s.socket
  mirrorFiles := some (s.mirrorFiles.getD true)
  mirrorDir := if s.mirrorDir = "" then "/opt" else s.mirrorDir

def SPIFFEConfig.validate (format : TextFormat) (s : SPIFFEConfig) : Except String Unit :=
  if (bytes "unix://").isPrefixOf (bytes s.socket) then .ok ()
  else .error ("spiffe.socket must be a unix:// URL, got " ++ format.quote s.socket)

def forceLocalhost (addr : String) : String :=
  if addr = "" then ""
  else
    match splitHostPort addr with
    | none => addr
    | some (_, port) => joinHostPort "127.0.0.1" port

namespace Config

/-- `Load` of a file, where `parse` stands for the expansion and the YAML decoder. -/
def load (format : TextFormat) (parse : Bytes → Except String Config) (file : Except String Bytes) :
    Except String Config :=
  match file with
  | .error e => .error ("reading config: " ++ e)
  | .ok data =>
    match parse data with
    | .error e => .error ("parsing config: " ++ e)
    | .ok cfg => do
      let cfg := { cfg with
        statsAddress := if cfg.statsAddress = "" then ":9093" else cfg.statsAddress }
      cfg.mtlsMode.forM (validateMTLSMode format)
      let cfg := { cfg with spiffe := cfg.spiffe.map SPIFFEConfig.applyDefaults }
      cfg.spiffe.forM (SPIFFEConfig.validate format)
      cfg.tlsBridge.forM (TLSBridgeConfig.validate format)
      if cfg.tlsBridge.map TLSBridgeConfig.mode = some "enabled" then
        return { cfg with listener := { cfg.listener with
          sessionAPIAddr := forceLocalhost cfg.listener.sessionAPIAddr } }
      return cfg

def setDefault (field value : String) : String := if field = "" then value else field

def applyPreset (cfg : Config) : Config :=
  let l := cfg.listener
  let l :=
    if cfg.mode = "envoy-sidecar" then { l with extProcAddr := setDefault l.extProcAddr ":9090" }
    else if cfg.mode = "waypoint" then
      { l with
        extAuthzAddr := setDefault l.extAuthzAddr ":9090"
        forwardProxyAddr := setDefault l.forwardProxyAddr ":8080" }
    else if cfg.mode = "proxy-sidecar" then
      { l with
        reverseProxyAddr := setDefault l.reverseProxyAddr ":8080"
        forwardProxyAddr := setDefault l.forwardProxyAddr ":8081"
        transparentProxyAddr := setDefault l.transparentProxyAddr ":8082" }
    else l
  { cfg with listener := { l with sessionAPIAddr := setDefault l.sessionAPIAddr ":9094" } }

def validateListeners (cfg : Config) : Except String Unit :=
  let refuse (addr message : String) : Except String Unit :=
    if addr = "" then .ok () else .error message
  let l := cfg.listener
  if cfg.mode = "envoy-sidecar" then do
    refuse l.reverseProxyAddr
      "envoy-sidecar mode does not support reverse_proxy_addr (use proxy-sidecar mode)"
    refuse l.extAuthzAddr "envoy-sidecar mode does not support ext_authz_addr (use waypoint mode)"
  else if cfg.mode = "waypoint" then do
    refuse l.extProcAddr "waypoint mode does not support ext_proc_addr (use envoy-sidecar mode)"
    refuse l.reverseProxyAddr "waypoint mode does not support reverse_proxy_addr"
  else do
    refuse l.extProcAddr "proxy-sidecar mode does not support ext_proc_addr (use envoy-sidecar mode)"
    refuse l.extAuthzAddr "proxy-sidecar mode does not support ext_authz_addr (use waypoint mode)"
    if l.reverseProxyBackend = "" then
      .error "proxy-sidecar mode requires listener.reverse_proxy_backend"
    else .ok ()

def validate (format : TextFormat) (cfg : Config) : Except String Unit :=
  if cfg.mode ∈ ["envoy-sidecar", "waypoint", "proxy-sidecar"] then validateListeners cfg
  else if cfg.mode = "" then
    .error "mode is required (envoy-sidecar, waypoint, or proxy-sidecar)"
  else .error ("unknown mode " ++ format.quote cfg.mode ++
    " (valid: envoy-sidecar, waypoint, proxy-sidecar)")

/-! The address of the session API -/

def StaysLocal (addr : String) : Prop :=
  ∀ host port, splitHostPort addr = some (host, port) → host = "127.0.0.1"

variable {addr host port : String}

theorem colonless_port (h : splitHostPort addr = some (host, port)) : ':' ∉ port.toList := by
  have colonless : ':' ∉ (addr.toList.reverse.takeWhile (· ≠ ':')).reverse := by
    intro mem
    simpa using List.mem_takeWhile_imp (List.mem_reverse.mp mem)
  unfold splitHostPort at h
  rw [Option.ite_none_left_eq_some] at h
  obtain ⟨-, h⟩ := h
  split at h
  · cases (Option.ite_none_right_eq_some.mp h).2
    rwa [String.toList_ofList]
  · cases (Option.ite_none_right_eq_some.mp h).2
    rwa [String.toList_ofList]

theorem toList_joinHostPort (port : String) :
    (joinHostPort "127.0.0.1" port).toList = '1' :: "27.0.0.1".toList ++ ':' :: port.toList := by
  unfold joinHostPort
  rw [if_neg (by decide), String.toList_append, String.toList_append]
  simp

theorem host_joinHostPort {port' : String} (colonless : ':' ∉ port.toList)
    (h : splitHostPort (joinHostPort "127.0.0.1" port) = some (host, port')) :
    host = "127.0.0.1" := by
  have behind : (('1' :: "27.0.0.1".toList ++ ':' :: port.toList).reverse.takeWhile
      (· ≠ ':')).reverse = port.toList := by
    rw [List.reverse_append, List.reverse_cons, List.append_assoc, List.takeWhile_append_of_pos]
    · simp
    · intro c mem
      exact decide_eq_true fun colon => colonless (colon ▸ List.mem_reverse.mp mem)
  have front : ('1' :: "27.0.0.1".toList ++ ':' :: port.toList).take
      (('1' :: "27.0.0.1".toList ++ ':' :: port.toList).length - (port.toList.length + 1)) =
        '1' :: "27.0.0.1".toList := by
    rw [List.length_append, List.length_cons]
    simp
  unfold splitHostPort at h
  dsimp only at h
  rw [toList_joinHostPort, behind, front, Option.ite_none_left_eq_some] at h
  cases (Option.ite_none_right_eq_some.mp h.2).2
  decide

theorem staysLocal_forceLocalhost (addr : String) : StaysLocal (forceLocalhost addr) := by
  unfold forceLocalhost
  split
  · intro host port h
    cases (by decide +kernel : splitHostPort "" = none).symm.trans h
  · split
    next unread =>
      intro host port h
      cases unread.symm.trans h
    next host port read => exact fun _ _ h => host_joinHostPort (colonless_port read) h

theorem forceLocalhost_eq_empty_iff : forceLocalhost addr = "" ↔ addr = "" := by
  unfold forceLocalhost
  split
  next empty => exact ⟨fun _ => empty, fun _ => rfl⟩
  next given =>
    refine iff_of_false (fun empty => ?_) given
    split at empty
    · exact given empty
    · exact absurd ((toList_joinHostPort _).symm.trans (congrArg String.toList empty)) nofun

variable {format : TextFormat} {parse : Bytes → Except String Config} {data : Bytes}
  {cfg loaded : Config}

theorem sessionAPIAddr_load (parsed : parse data = .ok cfg)
    (enabled : cfg.tlsBridge.map TLSBridgeConfig.mode = some "enabled")
    (h : load format parse (.ok data) = .ok loaded) :
    loaded.listener.sessionAPIAddr = forceLocalhost cfg.listener.sessionAPIAddr := by
  unfold load at h
  dsimp only at h
  rw [parsed] at h
  obtain ⟨-, -, h⟩ := bind_eq_ok.mp h
  obtain ⟨-, -, h⟩ := bind_eq_ok.mp h
  obtain ⟨-, -, h⟩ := bind_eq_ok.mp h
  rw [if_pos enabled] at h
  cases h
  rfl

theorem sessionAPIAddr_applyPreset (cfg : Config) :
    (applyPreset cfg).listener.sessionAPIAddr = setDefault cfg.listener.sessionAPIAddr ":9094" := by
  unfold applyPreset
  split_ifs <;> rfl

/-- The address stays local in every mode exactly if the file has one: the default that the preset
gives is open. -/
theorem staysLocal_session_api_iff (parsed : parse data = .ok cfg)
    (enabled : cfg.tlsBridge.map TLSBridgeConfig.mode = some "enabled")
    (h : load format parse (.ok data) = .ok loaded) (mode : String) :
    StaysLocal (applyPreset { loaded with mode := mode }).listener.sessionAPIAddr ↔
      cfg.listener.sessionAPIAddr ≠ "" := by
  rw [sessionAPIAddr_applyPreset, setDefault, sessionAPIAddr_load parsed enabled h]
  constructor
  · rintro isLocal empty
    rw [if_pos (forceLocalhost_eq_empty_iff.mpr empty)] at isLocal
    exact absurd (isLocal "" "9094" (by decide +kernel)) (by decide)
  · intro given
    rw [if_neg (mt forceLocalhost_eq_empty_iff.mp given)]
    exact staysLocal_forceLocalhost _

def bridged (addr : String) : Config where
  mode := "proxy-sidecar"
  listener := ⟨"", "", "", "", "http://127.0.0.1:8000", "", addr, []⟩
  pipeline := ⟨[], []⟩
  session := ⟨none, "", 0, 0⟩
  tlsBridge := some ⟨"enabled", "/ca", "", [], []⟩

def plainFormat : TextFormat := ⟨fun _ => "", id⟩

/-- An open address of the file, which loading moves to loopback. -/
theorem staysLocal_open_address : ∃ loaded,
    load plainFormat (fun _ => .ok (bridged "0.0.0.0:9094")) (.ok []) = .ok loaded ∧
      StaysLocal (applyPreset { loaded with mode := "waypoint" }).listener.sessionAPIAddr := by
  obtain ⟨loaded, h⟩ : ∃ loaded,
      load plainFormat (fun _ => .ok (bridged "0.0.0.0:9094")) (.ok []) = .ok loaded := ⟨_, rfl⟩
  exact ⟨loaded, h, (staysLocal_session_api_iff (by rfl) (by rfl) h "waypoint").mpr (by decide)⟩

/-- Without an address in the file the session API listens on all interfaces. -/
theorem default_session_api_is_open : ∃ loaded,
    load plainFormat (fun _ => .ok (bridged "")) (.ok []) = .ok loaded ∧
      (applyPreset loaded).listener.sessionAPIAddr = ":9094" ∧
      ¬ StaysLocal (applyPreset loaded).listener.sessionAPIAddr := by
  refine ⟨_, rfl, rfl, fun stays => ?_⟩
  exact absurd (stays "" "9094" (by decide +kernel)) (by decide)

end Config

end Kagenti.AuthBridge
