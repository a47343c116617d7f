import Kagenti.AuthBridge.Reloader
import Mathlib.Data.List.GetD

/-!
What a process calls on the lifecycle of its plugins, from the start over any number of reloads.
-/

namespace Kagenti.AuthBridge

open Go Lib.Transition

variable {W : Type} {l : List (Instance × Plugin W × ErrorPolicy)}

/-! One pipeline -/

def inits (l : List (Instance × Plugin W × ErrorPolicy)) : List Lifecycle :=
  (l.filter fun x => x.2.1.init.isSome).map fun x => .inited x.1

def shuts (l : List (Instance × Plugin W × ErrorPolicy)) : List Lifecycle :=
  (l.filter fun x => x.2.1.shutdown.isSome).map fun x => .shut x.1

theorem shutdownIn_recorded (world : W × List Lifecycle) :
    (Pipeline.shutdownIn (recorded l) world).2 = world.2 ++ shuts l := by
  induction l generalizing world with
  | nil => exact (List.append_nil _).symm
  | cons x l ih =>
    obtain ⟨i, plugin, policy⟩ := x
    cases h : plugin.shutdown with
    | none =>
      have skipped : Pipeline.shutdownIn (recorded ((i, plugin, policy) :: l)) world =
          Pipeline.shutdownIn (recorded l) world := by
        simp [recorded, Pipeline.shutdownIn, Plugin.watched, h]
      rw [skipped, ih]
      simp [shuts, h]
    | some shutdown =>
      have called : Pipeline.shutdownIn (recorded ((i, plugin, policy) :: l)) world =
          Pipeline.shutdownIn (recorded l) ((shutdown world.1).2, world.2 ++ [.shut i]) := by
        simp [recorded, Pipeline.shutdownIn, Plugin.watched, h]
      rw [called, ih]
      simp [shuts, h]

theorem stop_recorded (world : W × List Lifecycle) :
    ((recorded l).stop world).2 = world.2 ++ (shuts l).reverse := by
  have reversed : (recorded l).reverse = recorded l.reverse := by simp [recorded]
  rw [Pipeline.stop, reversed, shutdownIn_recorded]
  simp [shuts]

theorem startFrom_recorded (started : List (Instance × Plugin W × ErrorPolicy))
    (world : W × List Lifecycle) :
    let out := Pipeline.startFrom (recorded started) (recorded l) world
    (out.1 = none → out.2.2 = world.2 ++ inits l) ∧
      (out.1 ≠ none → ∃ k,
        out.2.2 = world.2 ++ inits (l.take k) ++ shuts ((l.take k).reverse ++ started)) := by
  induction l generalizing started world with
  | nil => exact ⟨fun _ => (List.append_nil _).symm, fun failed => absurd rfl failed⟩
  | cons x l ih =>
    -- The plugins behind start with this one in front of those that a failure shuts down.
    have step : (∃ w, Pipeline.startFrom (recorded started) (recorded (x :: l)) world =
          Pipeline.startFrom (recorded (x :: started)) (recorded l) (w, world.2 ++ inits [x])) ∨
        ∃ err w, Pipeline.startFrom (recorded started) (recorded (x :: l)) world =
          (some err, Pipeline.shutdownIn (recorded started) (w, world.2)) := by
      obtain ⟨i, plugin, policy⟩ := x
      cases h : plugin.init with
      | none =>
        exact .inl ⟨world.1, by simp [recorded, Pipeline.startFrom, Plugin.watched, inits, h]⟩
      | some init =>
        rcases inited : init world.1 with ⟨_ | err, w⟩
        · exact .inl ⟨w, by simp [recorded, Pipeline.startFrom, Plugin.watched, inits, h, inited]⟩
        · exact .inr ⟨_, w, by simp [recorded, Pipeline.startFrom, Plugin.watched, h, inited]; rfl⟩
    have front (l) : inits (x :: l) = inits [x] ++ inits l := by
      simp only [inits, ← List.map_append, ← List.filter_append, List.singleton_append]
    rcases step with ⟨w, next⟩ | ⟨err, w, failed⟩
    · rw [next]
      obtain ⟨ok, failed⟩ := ih (x :: started) (w, world.2 ++ inits [x])
      refine ⟨fun none => by rw [ok none, front l, List.append_assoc], fun some => ?_⟩
      obtain ⟨k, log⟩ := failed some
      exact ⟨k + 1, by rw [log, List.take_succ_cons, front (l.take k)]; simp⟩
    · rw [failed]
      refine ⟨nofun, fun _ => ⟨0, ?_⟩⟩
      rw [shutdownIn_recorded]
      simp [inits]

/-! All pipelines of a process -/

def Lifecycle.pipeline : Lifecycle → Nat
  | .inited i => i.1
  | .shut i => i.1

def logOf (n : Nat) (log : List Lifecycle) : List Lifecycle :=
  log.filter fun e => e.pipeline = n

def Retired (n : Nat) (p : Pipeline W) (log : List Lifecycle) : Prop :=
  ∃ k, log = inits ((p.instances n).take k) ++ (shuts ((p.instances n).take k)).reverse

theorem pipeline_of_mem {n : Nat} {e : Lifecycle} (numbered : ∀ x ∈ l, x.1.1 = n)
    (h : e ∈ inits l ++ (shuts l).reverse) : e.pipeline = n := by
  rcases List.mem_append.mp h with mem | mem
  · obtain ⟨x, found, rfl⟩ := List.mem_map.mp mem
    exact numbered x (List.mem_filter.mp found).1
  · obtain ⟨x, found, rfl⟩ := List.mem_map.mp (List.mem_reverse.mp mem)
    exact numbered x (List.mem_filter.mp found).1

theorem numbered_instances (n : Nat) (p : Pipeline W) : ∀ x ∈ p.instances n, x.1.1 = n := by
  intro x mem
  obtain ⟨y, -, rfl⟩ := List.mem_map.mp mem
  rfl

theorem Retired.own {n : Nat} {p : Pipeline W} {events : List Lifecycle}
    (h : Retired n p events) : ∀ e ∈ events, e.pipeline = n := by
  obtain ⟨k, rfl⟩ := h
  exact fun e => pipeline_of_mem fun x mem => numbered_instances n p x (List.mem_of_mem_take mem)

variable {n m : Nat} {p : Pipeline W} {log events : List Lifecycle}

theorem logOf_append_self (own : ∀ e ∈ events, e.pipeline = n) :
    logOf n (log ++ events) = logOf n log ++ events := by
  rw [logOf, List.filter_append]
  exact congrArg _ (List.filter_eq_self.mpr fun e mem => decide_eq_true (own e mem))

theorem logOf_append_of_ne (own : ∀ e ∈ events, e.pipeline = n) (other : m ≠ n) :
    logOf m (log ++ events) = logOf m log := by
  have none : logOf m events = [] := by
    refine List.filter_eq_nil_iff.mpr fun e mem same => ?_
    exact other ((of_decide_eq_true same).symm.trans (own e mem))
  rw [logOf, List.filter_append]
  exact (congrArg _ none).trans (List.append_nil _)

theorem start_watched (n : Nat) (p : Pipeline W) (world : W × List Lifecycle) :
    ∃ events, ((p.watched n).start world).2.2 = world.2 ++ events ∧
      (((p.watched n).start world).1 = none → events = inits (p.instances n)) ∧
      (((p.watched n).start world).1 ≠ none → Retired n p events) := by
  obtain ⟨ok, failed⟩ := startFrom_recorded (l := p.instances n) [] world
  by_cases started : ((p.watched n).start world).1 = none
  · exact ⟨_, ok started, fun _ => rfl, fun some => absurd started some⟩
  · obtain ⟨k, log⟩ := failed started
    refine ⟨_, log.trans (List.append_assoc _ _ _), fun none => absurd none started, fun _ => ⟨k, ?_⟩⟩
    simp [shuts]

structure Accounts (live : List Nat) (pipelines : List (Pipeline W)) (log : List Lifecycle) :
    Prop where
  nodup : live.Nodup
  built : ∀ n ∈ live, n < pipelines.length
  running : ∀ n ∈ live, logOf n log = inits ((pipelines.getD n []).instances n)
  retired : ∀ n ∉ live, Retired n (pipelines.getD n []) (logOf n log)

namespace Accounts

variable {live live' : List Nat} {pipelines : List (Pipeline W)}

section

variable (h : Accounts live pipelines log)

include h

theorem perm (same : live.Perm live') : Accounts live' pipelines log where
  nodup := same.nodup_iff.mp h.nodup
  built n mem := h.built n (same.mem_iff.mpr mem)
  running n mem := h.running n (same.mem_iff.mpr mem)
  retired n mem := h.retired n fun live => mem (same.mem_iff.mp live)

theorem fresh (unbuilt : pipelines.length ≤ n) : logOf n log = [] := by
  obtain ⟨k, records⟩ := h.retired n fun mem => absurd (h.built n mem) (Nat.not_lt.mpr unbuilt)
  rw [records, List.getD_eq_default _ _ unbuilt]
  simp [Pipeline.instances, inits, shuts]

theorem build (p : Pipeline W) : Accounts live (pipelines ++ [p]) log := by
  have older {n : Nat} (mem : n ∈ live) : (pipelines ++ [p]).getD n [] = pipelines.getD n [] :=
    List.getD_append _ _ _ _ (h.built n mem)
  refine ⟨h.nodup, fun n mem => ?_, fun n mem => ?_, fun n mem => ?_⟩
  · exact Nat.lt_of_lt_of_le (h.built n mem) (by simp)
  · rw [h.running n mem, older mem]
  · by_cases old : n < pipelines.length
    · rw [List.getD_append _ _ _ _ old]
      exact h.retired n mem
    · exact ⟨0, h.fresh (Nat.not_lt.mp old)⟩

theorem change (own : ∀ e ∈ events, e.pipeline = n) (nodup : live'.Nodup)
    (built : ∀ m ∈ live', m < pipelines.length) (others : ∀ m ≠ n, m ∈ live' ↔ m ∈ live)
    (running : n ∈ live' → logOf n log ++ events = inits ((pipelines.getD n []).instances n))
    (retired : n ∉ live' → Retired n (pipelines.getD n []) (logOf n log ++ events)) :
    Accounts live' pipelines (log ++ events) := by
  refine ⟨nodup, built, fun m mem => ?_, fun m mem => ?_⟩
  · by_cases same : m = n
    · subst same
      rw [logOf_append_self own, running mem]
    · rw [logOf_append_of_ne own same, h.running m ((others m same).mp mem)]
  · by_cases same : m = n
    · subst same
      rw [logOf_append_self own]
      exact retired mem
    · rw [logOf_append_of_ne own same]
      exact h.retired m fun found => mem ((others m same).mpr found)

end

section Start

variable {world world' : W × List Lifecycle} (h : Accounts live pipelines world.2)
  (entry : pipelines[n]? = some p) (out : n ∉ live) (unstarted : logOf n world.2 = [])
include h entry out unstarted

theorem started (run : (p.watched n).start world = (none, world')) :
    Accounts (n :: live) pipelines world'.2 ∧ ∀ m ≠ n, logOf m world'.2 = logOf m world.2 := by
  obtain ⟨events, log, ok, -⟩ := start_watched n p world
  rw [run] at log ok
  obtain rfl := ok rfl
  have own : ∀ e ∈ inits (p.instances n), e.pipeline = n := fun e mem =>
    pipeline_of_mem (numbered_instances n p) (List.mem_append_left _ mem)
  obtain ⟨bound, -⟩ := List.getElem?_eq_some_iff.mp entry
  rw [log]
  refine ⟨h.change own (List.nodup_cons.mpr ⟨out, h.nodup⟩)
    (List.forall_mem_cons.mpr ⟨bound, h.built⟩) (fun m other => ?_) (fun _ => ?_)
    fun missing => absurd (.head _) missing, fun m other => logOf_append_of_ne own other⟩
  · rw [List.mem_cons, or_iff_right other]
  · rw [unstarted, List.nil_append, List.getD_eq_getElem?_getD, entry]
    rfl

theorem aborted {failed : String × String}
    (run : (p.watched n).start world = (some failed, world')) :
    Accounts live pipelines world'.2 := by
  obtain ⟨events, log, -, retired⟩ := start_watched n p world
  rw [run] at log retired
  rw [log]
  refine h.change (retired nofun).own h.nodup h.built (fun m _ => Iff.rfl)
    (fun mem => absurd mem out) fun _ => ?_
  rw [unstarted, List.nil_append, List.getD_eq_getElem?_getD, entry]
  exact retired nofun

end Start

theorem stop (h : Accounts (n :: live) pipelines log) :
    Accounts live pipelines (log ++ (shuts ((pipelines.getD n []).instances n)).reverse) := by
  obtain ⟨out, nodup⟩ := List.nodup_cons.mp h.nodup
  refine h.change (n := n) (fun e mem => ?_) nodup (fun m mem => h.built m (.tail _ mem))
    (fun m other => ?_) (fun mem => absurd mem out)
    fun _ => ⟨((pipelines.getD n []).instances n).length, ?_⟩
  · exact pipeline_of_mem (numbered_instances n _) (List.mem_append_right _ mem)
  · rw [List.mem_cons, or_iff_right other]
  · rw [h.running n (.head _), List.take_length]

end Accounts

namespace Reloader

variable {env : Environment W} {s s' : Reloader W}

def live (s : Reloader W) : List Nat :=
  s.inbound :: s.outbound :: s.drains.flatMap fun (oldIn, oldOut) => [oldIn, oldOut]

def Sound (s : Reloader W) : Prop := Accounts s.live s.pipelines s.world.2

theorem Sound.rebuild (h : s.Sound) (hash : String) : (s.rebuild env hash).Sound := by
  unfold Reloader.rebuild
  split
  · exact h
  next newIn newOut newCfg _ =>
    have unbuilt {n : Nat} (new : s.pipelines.length ≤ n) : n ∉ s.live := fun mem =>
      Nat.not_lt.mpr new (h.built n mem)
    have built : Accounts s.live (s.pipelines ++ [newIn, newOut]) s.world.2 := by
      rw [List.append_cons]
      exact (h.build newIn).build newOut
    have first : (s.pipelines ++ [newIn, newOut])[s.pipelines.length]? = some newIn := by simp
    have second : (s.pipelines ++ [newIn, newOut])[s.pipelines.length + 1]? = some newOut := by simp
    dsimp only
    split
    · exact built
    · split
      · rename_i start
        exact built.aborted first (unbuilt (Nat.le_refl _)) (h.fresh (Nat.le_refl _)) start
      next world start =>
        obtain ⟨running, others⟩ :=
          built.started first (unbuilt (Nat.le_refl _)) (h.fresh (Nat.le_refl _)) start
        have out : s.pipelines.length + 1 ∉ s.pipelines.length :: s.live := fun mem =>
          (List.mem_cons.mp mem).elim (by omega) (unbuilt (by omega))
        have unstarted : logOf (s.pipelines.length + 1) world.2 = [] := by
          rw [others _ (by omega), h.fresh (by omega)]
        split
        next world start =>
          have stopped := (running.aborted second out unstarted start).stop
          rw [List.getD_eq_getElem?_getD, first, ← stop_recorded] at stopped
          exact stopped
        next world start =>
          obtain ⟨both, -⟩ := running.started second out unstarted start
          refine both.perm ((List.Perm.swap ..).trans (.cons _ (.cons _ ?_)))
          change s.live.Perm ((s.drains ++ [(s.inbound, s.outbound)]).flatMap _)
          rw [List.flatMap_append]
          exact (List.perm_append_comm : ([s.inbound, s.outbound] ++ _).Perm _)

/-- The old pipelines of a swap leave the list together. -/
theorem live_perm {k oldIn oldOut : Nat} (found : s.drains[k]? = some (oldIn, oldOut)) :
    s.live.Perm (oldIn :: oldOut :: live { s with drains := s.drains.eraseIdx k }) := by
  obtain ⟨bound, entry⟩ := List.getElem?_eq_some_iff.mp found
  have split : s.drains = s.drains.take k ++ (oldIn, oldOut) :: s.drains.drop (k + 1) := by
    rw [← entry, List.getElem_cons_drop, List.take_append_drop]
  have drains := (List.perm_middle.symm.trans (.of_eq split.symm)).symm.flatMap_right
    fun (oldIn, oldOut) => [oldIn, oldOut]
  rw [← List.eraseIdx_eq_take_drop_succ] at drains
  refine (List.Perm.append_left [s.inbound, s.outbound] drains).trans ?_
  exact List.perm_append_comm_assoc [s.inbound, s.outbound] [oldIn, oldOut] _

theorem step_rebuild (next : s.step env .rebuild = some s') :
    ∃ hash, { s.rebuild env hash with reading := .idle } = s' := by
  simp only [step] at next
  split at next <;> cases next
  exact ⟨_, rfl⟩

theorem Sound.step (h : s.Sound) {a : Action} (next : s.step env a = some s') : s'.Sound := by
  cases a with
  | write file =>
    cases next
    exact h
  | seed =>
    cases (Option.ite_none_right_eq_some.mp next).2
    exact h
  | readHash =>
    cases (Option.ite_none_right_eq_some.mp next).2
    fun_cases Reloader.readHash <;> exact h
  | rebuild =>
    obtain ⟨hash, rfl⟩ := step_rebuild next
    exact h.rebuild hash
  | drain k =>
    obtain ⟨⟨oldIn, oldOut⟩, found, rfl⟩ := Option.map_eq_some_iff.mp next
    have stopped := (h.perm (live_perm found)).stop.stop
    rw [← stop_recorded, ← stop_recorded] at stopped
    exact stopped

theorem sound_boot {file : Except String Bytes} {w : W} {s₀ : Reloader W}
    (h : boot env file w = some s₀) : s₀.Sound := by
  have empty : Accounts ([] : List Nat) ([] : List (Pipeline W)) [] :=
    ⟨.nil, nofun, nofun, fun _ _ => ⟨0, rfl⟩⟩
  revert h
  fun_cases boot <;> rintro ⟨⟩
  next inbound outbound cfg _ _ startIn _ startOut _ =>
    have built := (empty.build inbound).build outbound
    obtain ⟨running, others⟩ := built.started (n := 0) rfl List.not_mem_nil rfl startIn
    obtain ⟨both, -⟩ := running.started (n := 1) rfl (by decide) (others 1 (by decide)) startOut
    exact both.perm (.swap ..)

/-- What a reload that is recorded as failed must not touch. -/
def active (s : Reloader W) : Nat × Nat × Config × String :=
  (s.inbound, s.outbound, s.activeCfg, s.lastHash)

theorem active_readHash (s : Reloader W) : (s.readHash env).active = s.active := by
  fun_cases Reloader.readHash <;> rfl

theorem active_rebuild {hash : String}
    (failed : (s.rebuild env hash).status.reloadsFailed ≠ s.status.reloadsFailed) :
    (s.rebuild env hash).active = s.active := by
  revert failed
  fun_cases Reloader.rebuild env s hash <;> intro failed
  case case5 => exact absurd rfl failed
  all_goals rfl

structure Unwound (env : Environment W) (s : Reloader W) : Prop where
  running : ∀ n ∈ s.live, logOf n s.world.2 = inits ((s.pipelines.getD n []).instances n)
  drained : ∀ k oldIn oldOut, s.drains[k]? = some (oldIn, oldOut) →
    ∃ s', s.step env (.drain k) = some s' ∧ oldIn ∉ s'.live ∧ oldOut ∉ s'.live
  retired : ∀ n ∉ s.live, Retired n (s.pipelines.getD n []) (logOf n s.world.2)
  failed : ∀ a s', a = .readHash ∨ a = .rebuild → s.step env a = some s' →
    s'.status.reloadsFailed ≠ s.status.reloadsFailed → s'.active = s.active

/-- Along every run the pipelines in force stay initialised, those that left it are shut down in
reverse order of their start, and a failed reload leaves everything in force as it was. -/
theorem unwound_of_reachable {file : Except String Bytes} {w : W} {s₀ : Reloader W}
    (h : boot env file w = some s₀) (reach : (system env s₀).Reachable System.anyAction s) :
    s.Unwound env := by
  have sound : s.Sound :=
    reach.invariant (sound_boot h) fun _ _ _ sound _ next => sound.step next
  refine ⟨sound.running, fun k oldIn oldOut found => ?_, sound.retired, ?_⟩
  · have nodup := (live_perm found).nodup_iff.mp sound.nodup
    obtain ⟨first, rest⟩ := List.nodup_cons.mp nodup
    refine ⟨_, Option.map_eq_some_iff.mpr ⟨_, found, rfl⟩, ?_, (List.nodup_cons.mp rest).1⟩
    exact fun mem => first (.tail _ mem)
  · rintro a s' (rfl | rfl) next failed
    · cases (Option.ite_none_right_eq_some.mp next).2
      exact active_readHash s
    · obtain ⟨hash, rfl⟩ := step_rebuild next
      exact active_rebuild failed

/-- A reload whose second pipeline does not start, and one that succeeds and drains. -/
theorem unwound_behind_reloads :
    ∃ s, (system sampleEnvironment sampleStart).Reachable System.anyAction s ∧
      s.Unwound sampleEnvironment ∧ s.status.reloadsFailed = 1 ∧ s.status.reloadsOK = 1 ∧
      logOf 3 s.world.2 = [.inited (3, 0), .shut (3, 0)] ∧
      logOf 0 s.world.2 = [.inited (0, 0), .shut (0, 0)] ∧ logOf 4 s.world.2 = [.inited (4, 0)] := by
  have reach := System.reachable_of_run (S := system sampleEnvironment sampleStart)
    (G := System.anyAction) [.seed, .write (.ok []), .readHash, .rebuild, .write (.ok [0x61, 0x62]),
      .readHash, .rebuild, .drain 0] rfl
  exact ⟨_, reach, unwound_of_reachable boot_sampleStart reach, rfl, rfl, rfl, rfl, rfl⟩

end Reloader

end Kagenti.AuthBridge
