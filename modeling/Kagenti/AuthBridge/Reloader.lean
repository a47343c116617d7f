import Kagenti.AuthBridge.Config
import Kagenti.AuthBridge.Pipeline

/-!
The reloader (`authlib/reloader`) in the process of `cmd/authbridge-proxy`. A reload reads the file
twice, for the hash and for the build. Pipelines are numbered in the order of their builds.
Timestamps and the drain window are left out: old pipelines are stopped at some later time, in one
step.
-/

namespace Kagenti.AuthBridge

open Go

variable {W : Type}

/-! Plugins with a record of their lifecycle -/

abbrev Instance := Nat × Nat

inductive Lifecycle where
  | inited (i : Instance)
  | shut (i : Instance)
  deriving DecidableEq

/-- The plugin with a record of each `Init` that succeeds and of each `Shutdown`. The hooks of
requests are not called here. -/
def Plugin.watched (i : Instance) (plugin : Plugin W) : Plugin (W × List Lifecycle) where
  name := plugin.name
  capabilities := plugin.capabilities
  onRequest := fun w pctx => (.cont, w, pctx)
  onResponse := fun w pctx => (.cont, w, pctx)
  init := plugin.init.map fun init (w, log) =>
    match init w with
    | (none, w) => (none, w, log ++ [.inited i])
    | (some err, w) => (some err, w, log)
  shutdown := plugin.shutdown.map fun shutdown (w, log) =>
    ((shutdown w).1, (shutdown w).2, log ++ [.shut i])

def Pipeline.instances (n : Nat) (p : Pipeline W) : List (Instance × Plugin W × ErrorPolicy) :=
  p.zipIdx.map fun (entry, k) => ((n, k), entry)

def recorded (l : List (Instance × Plugin W × ErrorPolicy)) : Pipeline (W × List Lifecycle) :=
  l.map fun (i, plugin, policy) => (plugin.watched i, policy)

def Pipeline.watched (n : Nat) (p : Pipeline W) : Pipeline (W × List Lifecycle) :=
  recorded (p.instances n)

/-! The process -/

structure Wiring where
  mode : String
  listener : ListenerConfig
  -- lifetime, events per session and number of sessions of the store
  sessions : Option (Int × Int × Int)
  statsAddress : String
  strictMTLS : Option Bool
  provider : Option (String × Bool × String)
  bridge : Option TLSBridgeConfig
  deriving DecidableEq

structure Environment (W : Type) where
  format : TextFormat
  sha256 : Bytes → String
  parse : Bytes → Except String Config
  parseDuration : String → Option Int
  usesSPIFFEIdentity : PluginEntry → Bool
  buildPlugins : List PluginEntry → Except String (Pipeline W)

namespace Environment

variable (env : Environment W)

def sessionStore (c : SessionConfig) : Option (Int × Int × Int) :=
  if c.enabled.getD true then
    let default := 30 * 60 * 1000000000
    some (if c.ttl = "" then default else (env.parseDuration c.ttl).getD default,
      if 0 < c.maxEvents then c.maxEvents else 100,
      if 0 < c.maxSessions then c.maxSessions else 100)
  else none

def spiffeProviderNeeded (c : Config) : Bool :=
  c.mtlsMode.isSome || (c.pipeline.inbound ++ c.pipeline.outbound).any env.usesSPIFFEIdentity

def provider (c : Config) : Option (String × Bool × String) :=
  if env.spiffeProviderNeeded c then
    c.spiffe.map fun s => (s.socket, s.mirrorFiles.getD true, s.mirrorDir)
  else none

def bridge (c : Config) : Option TLSBridgeConfig :=
  (c.tlsBridge.filter fun b => b.mode = "enabled").map fun b =>
    { b with ports := if b.ports = [] then [443, 8443] else b.ports }

def wire (c : Config) : Wiring where
  mode := c.mode
  listener := c.listener
  sessions := env.sessionStore c.session
  statsAddress := c.statsAddress
  strictMTLS := c.mtlsMode.map fun mode => decide (mode = "strict")
  provider := env.provider c
  bridge := bridge c

def buildPipelines (file : Except String Bytes) :
    Except String (Pipeline W × Pipeline W × Config) := do
  let c ← Config.load env.format env.parse file
  if c.mode ≠ "" ∧ c.mode ≠ "proxy-sidecar" then
    throw ("authbridge-proxy supports only mode=" ++ env.format.quote "proxy-sidecar" ++ " (got " ++
      env.format.quote c.mode ++ "); use cmd/authbridge-envoy for envoy-sidecar mode")
  let c := Config.applyPreset { c with mode := "proxy-sidecar" }
  Config.validate env.format c
  let inbound ← (env.buildPlugins c.pipeline.inbound).mapError ("inbound: " ++ ·)
  let outbound ← (env.buildPlugins c.pipeline.outbound).mapError ("outbound: " ++ ·)
  return (inbound, outbound, c)

end Environment

def validateReloadable (active next : Config) : Except String Unit :=
  let diffs :=
    (if active.mode = next.mode then [] else ["mode (" ++ active.mode ++ "→" ++ next.mode ++ ")"]) ++
      if active.listener = next.listener then [] else ["listener.*"]
  if diffs = [] then .ok ()
  else .error ("unreloadable field changed, pod restart required: [" ++
    String.intercalate " " diffs ++ "]")

structure Status where
  lastError : String
  reloadsOK : Nat
  reloadsFailed : Nat
  activeConfigSHA256 : String
  deriving DecidableEq

/-- How far the process is: before `New`, between reloads, or behind the hash of a reload. -/
inductive Reading where
  | starting
  | idle
  | hashed (hash : String)
  deriving DecidableEq

structure Reloader (W : Type) where
  file : Except String Bytes
  reading : Reading
  -- every pipeline that was built, and the numbers of the two in the holders
  pipelines : List (Pipeline W)
  inbound : Nat
  outbound : Nat
  activeCfg : Config
  lastHash : String
  status : Status
  -- the pipelines of each swap that are still to be stopped
  drains : List (Nat × Nat)
  world : W × List Lifecycle
  wired : Wiring
  -- the content that the pipelines in the holders were built from
  source : Except String Bytes

namespace Reloader

def recordFailure (s : Reloader W) (err : String) : Reloader W :=
  { s with status := { s.status with
      lastError := err, reloadsFailed := s.status.reloadsFailed + 1 } }

def recordSuccess (s : Reloader W) (hash : String) : Reloader W :=
  { s with status := { s.status with
      lastError := "", reloadsOK := s.status.reloadsOK + 1, activeConfigSHA256 := hash } }

variable (env : Environment W)

def startError (side : String) (failed : String × String) : String :=
  side ++ " Start: plugin " ++ env.format.quote failed.1 ++ " Init: " ++ failed.2

def boot (file : Except String Bytes) (w : W) : Option (Reloader W) :=
  match env.buildPipelines file with
  | .error _ => none
  | .ok (inbound, outbound, cfg) =>
    match (inbound.watched 0).start (w, []) with
    | (some _, _) => none
    | (none, world) =>
      match (outbound.watched 1).start world with
      | (some _, _) => none
      | (none, world) =>
        if cfg.mtlsMode.isSome ∧ env.provider cfg = none then none
        else
          some
            { file := file, reading := .starting, pipelines := [inbound, outbound], inbound := 0,
              outbound := 1, activeCfg := cfg, lastHash := "", status := ⟨"", 0, 0, ""⟩, drains := [],
              world := world, wired := env.wire cfg, source := file }

/-- `New` reads the file for the first hash. -/
def seed (s : Reloader W) : Reloader W :=
  let hash :=
    match s.file with
    | .ok data => env.sha256 data
    | .error _ => ""
  { s with reading := .idle, lastHash := hash, status := ⟨"", 0, 0, hash⟩ }

/-- `reloadOnce` up to the hash. -/
def readHash (s : Reloader W) : Reloader W :=
  match s.file with
  | .error e => s.recordFailure ("read: " ++ e)
  | .ok data =>
    if env.sha256 data = s.lastHash then s else { s with reading := .hashed (env.sha256 data) }

def pipeline (s : Reloader W) (n : Nat) : Pipeline (W × List Lifecycle) :=
  (s.pipelines.getD n []).watched n

/-- `reloadOnce` behind the hash. -/
def rebuild (s : Reloader W) (hash : String) : Reloader W :=
  match env.buildPipelines s.file with
  | .error e => s.recordFailure ("build: " ++ e)
  | .ok (newIn, newOut, newCfg) =>
    let n := s.pipelines.length
    let built := { s with pipelines := s.pipelines ++ [newIn, newOut] }
    match validateReloadable s.activeCfg newCfg with
    | .error e => built.recordFailure e
    | .ok () =>
      match (newIn.watched n).start s.world with
      | (some failed, world) =>
        { built with world := world }.recordFailure (startError env "inbound" failed)
      | (none, world) =>
        match (newOut.watched (n + 1)).start world with
        | (some failed, world) =>
          { built with world := (newIn.watched n).stop world }.recordFailure
            (startError env "outbound" failed)
        | (none, world) =>
          { built with
            inbound := n
            outbound := n + 1
            activeCfg := newCfg
            lastHash := hash
            drains := s.drains ++ [(s.inbound, s.outbound)]
            world := world
            source := s.file }.recordSuccess hash

inductive Action where
  | write (file : Except String Bytes)
  | seed
  | readHash
  | rebuild
  -- the goroutine of a swap stops the old pipelines
  | drain (k : Nat)

def step (s : Reloader W) : Action → Option (Reloader W)
  | .write file => some { s with file := file }
  | .seed => if s.reading = .starting then some (s.seed env) else none
  | .readHash => if s.reading = .idle then some (s.readHash env) else none
  | .rebuild =>
    match s.reading with
    | .hashed hash => some { s.rebuild env hash with reading := .idle }
    | _ => none
  | .drain k =>
    s.drains[k]?.map fun (oldIn, oldOut) =>
      { s with
        drains := s.drains.eraseIdx k
        world := (s.pipeline oldOut).stop ((s.pipeline oldIn).stop s.world) }

def system (s₀ : Reloader W) : Lib.Transition.System (Reloader W) Action := ⟨s₀, step env⟩

end Reloader

/-! A registry with one kind of plugin -/

def samplePlugin (entry : PluginEntry) : Plugin Unit where
  name := entry.name
  capabilities := ⟨false, false, [], []⟩
  onRequest := fun w pctx => (.cont, w, pctx)
  onResponse := fun w pctx => (.cont, w, pctx)
  init := some fun w => (if entry.name = "failing" then some "refused" else none, w)
  shutdown := some fun w => (none, w)
  rawConfig := some entry.config

def sampleEnvironment : Environment Unit where
  format := Config.plainFormat
  sha256 := text
  parse := fun data => .ok { Config.bridged "" with
    tlsBridge := none
    session := ⟨none, "", data.length, 0⟩
    pipeline :=
      ⟨[⟨"first", "", .enforce, data⟩],
        ⟨"second", "", .enforce, []⟩ ::
          if data = [] then [⟨"failing", "", .enforce, []⟩] else []⟩ }
  parseDuration := fun _ => none
  usesSPIFFEIdentity := fun _ => false
  buildPlugins := fun entries => .ok (entries.map fun entry => (samplePlugin entry, entry.onError))

def sampleStart : Reloader Unit :=
  (Reloader.boot sampleEnvironment (.ok [0x61]) ()).get (by rfl)

theorem boot_sampleStart : Reloader.boot sampleEnvironment (.ok [0x61]) () = some sampleStart :=
  (Option.some_get _).symm

end Kagenti.AuthBridge
