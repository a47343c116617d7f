import Kagenti.AuthBridge.Reloader

/-!
What the reloader reports as active, compared with what the process runs.
-/

namespace Kagenti.AuthBridge

open Go Lib.Transition Lib.Outcome

variable {W : Type} {env : Environment W} {file : Except String Bytes} {w : W} {cfg : Config}

theorem Config.readable_of_load {format : TextFormat} {parse : Bytes → Except String Config}
    (h : Config.load format parse file = .ok cfg) : ∃ data, file = .ok data := by
  cases file with
  | error => cases h
  | ok data => exact ⟨data, rfl⟩

theorem Environment.buildPipelines_ok {newIn newOut : Pipeline W}
    (h : env.buildPipelines file = .ok (newIn, newOut, cfg)) :
    (∃ data, file = .ok data) ∧ env.buildPlugins cfg.pipeline.inbound = .ok newIn ∧
      env.buildPlugins cfg.pipeline.outbound = .ok newOut := by
  obtain ⟨c, loaded, h⟩ := bind_eq_ok.mp h
  refine ⟨Config.readable_of_load loaded, ?_⟩
  split at h
  · cases h
  · grind [bind_eq_ok, mapError_eq_ok, pure_eq_ok]

namespace Reloader

variable {s s' s₀ : Reloader W}

/-- What a successful reload replaces. -/
def reported (s : Reloader W) :
    Nat × Nat × Config × String × String × Except String Bytes :=
  (s.inbound, s.outbound, s.activeCfg, s.lastHash, s.status.activeConfigSHA256, s.source)

/-- A reload replaces all of it, by what it built, or nothing. -/
theorem rebuild_cases (env : Environment W) (s : Reloader W) (hash : String) :
    (s.rebuild env hash).file = s.file ∧ (s.rebuild env hash).wired = s.wired ∧
      ((s.rebuild env hash).reported = s.reported ∧
          s.pipelines <+: (s.rebuild env hash).pipelines ∨
        ∃ newIn newOut newCfg, env.buildPipelines s.file = .ok (newIn, newOut, newCfg) ∧
          validateReloadable s.activeCfg newCfg = .ok () ∧
          (s.rebuild env hash).pipelines = s.pipelines ++ [newIn, newOut] ∧
          (s.rebuild env hash).reported =
            (s.pipelines.length, s.pipelines.length + 1, newCfg, hash, hash, s.file)) := by
  fun_cases Reloader.rebuild env s hash with
  | case1 => exact ⟨rfl, rfl, .inl ⟨rfl, List.prefix_rfl⟩⟩
  | case5 newIn newOut newCfg built _ _ reloadable =>
    exact ⟨rfl, rfl, .inr ⟨newIn, newOut, newCfg, built, reloadable, rfl, rfl⟩⟩
  | _ => exact ⟨rfl, rfl, .inl ⟨rfl, List.prefix_append _ _⟩⟩

/-! The hash -/

def HashAgrees (env : Environment W) (s : Reloader W) : Prop :=
  ∃ data, s.source = .ok data ∧ s.lastHash = env.sha256 data ∧
    s.status.activeConfigSHA256 = env.sha256 data

def steady (s : Reloader W) : Action → Prop
  | .write file => s.reading = .idle ∨ file = s.file
  | _ => True

instance (s : Reloader W) : DecidablePred s.steady
  | .write _ => inferInstanceAs (Decidable (_ ∨ _))
  | .seed | .readHash | .rebuild | .drain _ => isTrue trivial

structure HashInv (env : Environment W) (s : Reloader W) : Prop where
  starting : s.reading = .starting → s.source = s.file ∧ ∃ data, s.file = .ok data
  agrees : s.reading ≠ .starting → HashAgrees env s
  hashed : ∀ hash, s.reading = .hashed hash → ∃ data, s.file = .ok data ∧ hash = env.sha256 data

variable {a : Action}

theorem HashInv.step (h : HashInv env s) (steady : s.steady a) (next : s.step env a = some s') :
    HashInv env s' := by
  revert next
  fun_cases Reloader.step env s a <;> intro next <;> try cases next
  case case1 =>
    rcases steady with idle | rfl
    · refine ⟨fun start => ?_, h.agrees, fun hash reading => ?_⟩
      · cases idle.symm.trans start
      · cases idle.symm.trans reading
    · exact h
  case case2 start =>
    obtain ⟨same, data, read⟩ := h.starting start
    refine ⟨nofun, fun _ => ⟨data, same.trans read, ?_, ?_⟩, nofun⟩
    · rw [seed, read]
    · rw [seed, read]
  case case4 idle =>
    have agrees := h.agrees (by rw [idle]; exact nofun)
    fun_cases Reloader.readHash with
    | case1 => exact ⟨h.starting, fun _ => agrees, h.hashed⟩
    | case2 => exact h
    | case3 data read =>
      refine ⟨nofun, fun _ => agrees, fun hash reading => ⟨data, read, ?_⟩⟩
      cases reading
      rfl
  case case6 hash reading =>
    refine ⟨nofun, fun _ => ?_, nofun⟩
    rcases (rebuild_cases env s hash).2.2 with ⟨kept, -⟩ | ⟨_, _, _, -, -, -, replaced⟩
    · simp only [reported, Prod.mk.injEq] at kept
      obtain ⟨data, source, last, sha⟩ := h.agrees (by rw [reading]; exact nofun)
      obtain ⟨-, -, -, last', sha', source'⟩ := kept
      exact ⟨data, source'.trans source, last'.trans last, sha'.trans sha⟩
    · simp only [reported, Prod.mk.injEq] at replaced
      obtain ⟨data, read, rfl⟩ := h.hashed hash reading
      obtain ⟨-, -, -, last, sha, source⟩ := replaced
      exact ⟨data, source.trans read, last, sha⟩
  case case8 =>
    obtain ⟨_, -, rfl⟩ := Option.map_eq_some_iff.mp next
    exact ⟨h.starting, h.agrees, h.hashed⟩

theorem hashInv_boot (h : boot env file w = some s₀) : HashInv env s₀ := by
  revert h
  fun_cases boot <;> rintro ⟨⟩
  next built _ _ _ _ _ =>
    exact ⟨fun _ => ⟨rfl, (Environment.buildPipelines_ok built).1⟩, fun late => absurd rfl late,
      nofun⟩

/-- Between reloads the hash is that of the content the pipelines were built from, if the file
keeps its content from the one read of a reload to the other. -/
theorem hashAgrees_of_steady (h : boot env file w = some s₀)
    (reach : (system env s₀).Reachable steady s) (idle : s.reading = .idle) : HashAgrees env s :=
  (reach.invariant (hashInv_boot h) fun _ _ _ inv guard next => inv.step guard next).agrees
    (by rw [idle]; exact nofun)

/-- A reload after a write of the file. -/
theorem hashAgrees_behind_reload :
    ∃ s, (system sampleEnvironment sampleStart).Reachable steady s ∧
      HashAgrees sampleEnvironment s ∧ s.status.activeConfigSHA256 = "bb" := by
  have reach := System.reachable_of_run (S := system sampleEnvironment sampleStart) (G := steady)
    [.seed, .write (.ok [0x62, 0x62]), .readHash, .rebuild] rfl
  exact ⟨_, reach, hashAgrees_of_steady boot_sampleStart reach rfl, rfl⟩

/-- A write between the two reads: the pipelines are built from `ccc` under the hash of `bb`, and
when `bb` is written again it counts as applied. -/
theorem write_between_reads :
    ∃ s, (system sampleEnvironment sampleStart).Reachable System.anyAction s ∧
      s.reading = .idle ∧ s.source = .ok [0x63, 0x63, 0x63] ∧
      s.status.activeConfigSHA256 = "bb" ∧ ¬ HashAgrees sampleEnvironment s ∧
      s.file = .ok [0x62, 0x62] ∧ (s.readHash sampleEnvironment).reading = .idle ∧
      (s.readHash sampleEnvironment).source = s.source := by
  refine ⟨_, System.reachable_of_run [.seed, .write (.ok [0x62, 0x62]), .readHash,
    .write (.ok [0x63, 0x63, 0x63]), .rebuild, .write (.ok [0x62, 0x62])] rfl, rfl, rfl, rfl, ?_, rfl,
    rfl, rfl⟩
  rintro ⟨data, read, -, agrees⟩
  cases read
  exact absurd agrees (by decide +kernel)

/-! The configuration -/

def Installed (env : Environment W) (s : Reloader W) : Prop :=
  (∃ p, env.buildPlugins s.activeCfg.pipeline.inbound = .ok p ∧
    s.pipelines[s.inbound]? = some p) ∧
  ∃ p, env.buildPlugins s.activeCfg.pipeline.outbound = .ok p ∧ s.pipelines[s.outbound]? = some p

def InForce (env : Environment W) (s : Reloader W) : Prop :=
  env.wire s.activeCfg = s.wired ∧ Installed env s

theorem reloadable_iff {active next : Config} :
    validateReloadable active next = .ok () ↔
      active.mode = next.mode ∧ active.listener = next.listener := by
  unfold validateReloadable
  by_cases mode : active.mode = next.mode
  · grind
  · simp [mode]

/-- What every reload keeps in force. -/
def ForceInv (env : Environment W) (s : Reloader W) : Prop :=
  s.activeCfg.mode = s.wired.mode ∧ s.activeCfg.listener = s.wired.listener ∧ Installed env s

theorem ForceInv.rebuild (h : ForceInv env s) (hash : String) :
    ForceInv env (s.rebuild env hash) := by
  obtain ⟨mode, listener, ⟨pin, builtIn, foundIn⟩, pout, builtOut, foundOut⟩ := h
  unfold ForceInv Installed
  obtain ⟨-, wired, ⟨kept, longer⟩ | ⟨newIn, newOut, newCfg, built, reloadable, built', replaced⟩⟩ :=
    rebuild_cases env s hash
  · simp only [reported, Prod.mk.injEq] at kept
    obtain ⟨inbound, outbound, cfg, -⟩ := kept
    obtain ⟨more, pipelines⟩ := longer
    rw [wired, inbound, outbound, cfg, ← pipelines]
    refine ⟨mode, listener, ⟨pin, builtIn, ?_⟩, pout, builtOut, ?_⟩
    · exact (List.getElem?_append_left (List.getElem?_eq_some_iff.mp foundIn).1).trans foundIn
    · exact (List.getElem?_append_left (List.getElem?_eq_some_iff.mp foundOut).1).trans foundOut
  · simp only [reported, Prod.mk.injEq] at replaced
    obtain ⟨inbound, outbound, cfg, -⟩ := replaced
    obtain ⟨sameMode, sameListener⟩ := reloadable_iff.mp reloadable
    obtain ⟨-, builtIn, builtOut⟩ := Environment.buildPipelines_ok built
    rw [wired, inbound, outbound, cfg, built']
    exact ⟨sameMode.symm.trans mode, sameListener.symm.trans listener,
      ⟨newIn, builtIn, by simp⟩, newOut, builtOut, by simp⟩

theorem ForceInv.step (h : ForceInv env s) (next : s.step env a = some s') : ForceInv env s' := by
  revert next
  fun_cases Reloader.step env s a <;> intro next <;> try cases next
  case case4 => fun_cases Reloader.readHash <;> exact h
  case case6 hash _ => exact h.rebuild hash
  case case8 =>
    obtain ⟨_, -, rfl⟩ := Option.map_eq_some_iff.mp next
    exact h
  all_goals exact h

theorem forceInv_boot (h : boot env file w = some s₀) : ForceInv env s₀ := by
  revert h
  fun_cases boot <;> rintro ⟨⟩
  next built _ _ _ _ _ =>
    obtain ⟨-, builtIn, builtOut⟩ := Environment.buildPipelines_ok built
    exact ⟨rfl, rfl, ⟨_, builtIn, rfl⟩, _, builtOut, rfl⟩

/-- The active configuration is in force exactly if what main takes from it for the session store,
the stats server, mTLS, the SPIFFE provider and the TLS bridge is what it took at the start. -/
theorem inForce_iff (h : boot env file w = some s₀)
    (reach : (system env s₀).Reachable System.anyAction s) :
    InForce env s ↔
      env.sessionStore s.activeCfg.session = s.wired.sessions ∧
      s.activeCfg.statsAddress = s.wired.statsAddress ∧
      (s.activeCfg.mtlsMode.map fun mode => decide (mode = "strict")) = s.wired.strictMTLS ∧
      env.provider s.activeCfg = s.wired.provider ∧
      Environment.bridge s.activeCfg = s.wired.bridge := by
  obtain ⟨mode, listener, installed⟩ : ForceInv env s :=
    reach.invariant (forceInv_boot h) fun _ _ _ inv _ next => inv.step next
  unfold InForce Environment.wire
  rw [and_iff_left installed, Wiring.mk.injEq, mode, listener]
  simp

/-- Behind a reload of another configuration of the first plugin. -/
theorem inForce_behind_reload :
    ∃ s, (system sampleEnvironment sampleStart).Reachable System.anyAction s ∧
      s.status.reloadsOK = 1 ∧ s.activeCfg ≠ sampleStart.activeCfg ∧
      InForce sampleEnvironment s := by
  have reach := System.reachable_of_run (S := system sampleEnvironment sampleStart)
    (G := System.anyAction) [.seed, .write (.ok [0x62]), .readHash, .rebuild] rfl
  have force := (inForce_iff boot_sampleStart reach).mpr ⟨rfl, rfl, rfl, rfl, rfl⟩
  exact ⟨_, reach, rfl, by decide +kernel, force⟩

/-- A reload of another size of the session store is reported as a success, and the store keeps the
size it was made with. -/
theorem session_size_not_in_force :
    ∃ s, (system sampleEnvironment sampleStart).Reachable System.anyAction s ∧
      s.status = ⟨"", 1, 0, "bb"⟩ ∧ s.activeCfg.session.maxEvents = 2 ∧
      s.wired.sessions.map (·.2.1) = some 1 ∧ ¬ InForce sampleEnvironment s := by
  refine ⟨_, System.reachable_of_run [.seed, .write (.ok [0x62, 0x62]), .readHash, .rebuild] rfl,
    rfl, rfl, rfl, fun force => ?_⟩
  exact absurd (congrArg Wiring.sessions force.1) (by decide +kernel)

end Reloader

end Kagenti.AuthBridge
