import Kagenti.AuthBridge.Pipeline

/-!
Rejections under the policy `observe` (`markShadowAndLog`, `markLastInvocationShadow` and
`OutcomeFromContext`). The pipeline goes on and marks the last record of the plugin in the phase,
whatever that record says.
-/

namespace Kagenti.AuthBridge

open Go

/-- What a plugin can do to the records and bodies of its context. The arguments of
`record` are those of an `Invocation` literal; `DenyAndRecord` is a `record` before a
rejection. -/
inductive ContextCall where
  | record (inv : Invocation)
  | allow (reason : String)
  | skip (reason : String)
  | observe (reason : String)
  | modify (reason : String)
  | setBody (newBody : Bytes)
  | setResponseBody (newBody : Bytes)
  deriving DecidableEq

namespace Context

variable (pctx : Context)

/-- `SetBody`: dropped while `OnFinish` runs, and only recorded under the policy
`observe`. -/
def setBody (newBody : Bytes) : Context :=
  if pctx.inFinish then pctx
  else if pctx.currentPolicy = .observe then
    pctx.recordInvocation
      { plugin := pctx.currentPlugin, action := .modify, phase := pctx.currentPhase,
        reason := "body_rewritten", path := pctx.path, details := [], shadow := true }
  else { pctx with body := newBody, bodyMutated := true }.modify "body_rewritten"

def stamp (inv : Invocation) : Invocation :=
  { inv with
    plugin := if inv.plugin = "" then pctx.currentPlugin else inv.plugin
    phase := if inv.phase = .unset then pctx.currentPhase else inv.phase
    path := if inv.path = [] then pctx.path else inv.path }

def call : ContextCall → Context
  | .record inv => pctx.recordInvocation (pctx.stamp inv)
  | .allow reason => pctx.allow reason
  | .skip reason => pctx.skip reason
  | .observe reason => pctx.observe reason
  | .modify reason => pctx.modify reason
  | .setBody newBody => pctx.setBody newBody
  | .setResponseBody newBody => pctx.setResponseBody newBody

def recordOf : ContextCall → Invocation
  | .record inv => pctx.stamp inv
  | .allow reason => ownRecord .allow reason false
  | .skip reason => ownRecord .skip reason false
  | .observe reason => ownRecord .observe reason false
  | .modify reason => ownRecord .modify reason false
  | .setBody _ | .setResponseBody _ => ownRecord .modify "body_rewritten" true
where
  ownRecord (action : InvocationAction) (reason : String) (shadow : Bool) : Invocation :=
    { plugin := pctx.currentPlugin, action := action, phase := pctx.currentPhase,
      reason := reason, path := pctx.path, details := [], shadow := shadow }

def bucket : List Invocation :=
  match pctx.direction with
  | .inbound => pctx.extensions.invocations.inbound
  | .outbound => pctx.extensions.invocations.outbound

def otherBucket : List Invocation :=
  match pctx.direction with
  | .inbound => pctx.extensions.invocations.outbound
  | .outbound => pctx.extensions.invocations.inbound

def withBucket (records : List Invocation) : Context :=
  let invocations := pctx.extensions.invocations
  let invocations :=
    match pctx.direction with
    | .inbound => { invocations with inbound := records }
    | .outbound => { invocations with outbound := records }
  { pctx with extensions := { pctx.extensions with invocations := invocations } }

end Context

def Invocation.openDeny (inv : Invocation) : Bool := inv.action = .deny && !inv.shadow

def lastDenier (records : List Invocation) : Option String :=
  (records.reverse.find? Invocation.openDeny).map Invocation.plugin

def Context.lastDenyingPlugin (pctx : Context) : Option String :=
  (lastDenier pctx.extensions.invocations.outbound).or
    (lastDenier pctx.extensions.invocations.inbound)

def outcomeFromContext (pctx : Context) : Outcome :=
  if pctx.rejectingPlugin ≠ "" then ⟨.deny, pctx.statusCode, pctx.rejectingPlugin⟩
  else
    match pctx.lastDenyingPlugin with
    | some denier => ⟨.deny, pctx.statusCode, denier⟩
    | none =>
      if pctx.statusCode = 0 then ⟨.error, pctx.statusCode, ""⟩
      else ⟨.allow, pctx.statusCode, ""⟩

namespace Context

variable {pctx : Context}

variable (records : List Invocation)

@[simp] theorem bucket_withBucket : (pctx.withBucket records).bucket = records := by
  unfold withBucket bucket
  cases pctx.direction <;> rfl

@[simp] theorem otherBucket_withBucket : (pctx.withBucket records).otherBucket = pctx.otherBucket := by
  unfold withBucket otherBucket
  cases pctx.direction <;> rfl

@[simp] theorem withBucket_withBucket (records records' : List Invocation) :
    (pctx.withBucket records).withBucket records' = pctx.withBucket records' := by
  unfold withBucket
  cases pctx.direction <;> rfl

theorem withBucket_bucket : pctx.withBucket pctx.bucket = pctx := by
  cases pctx with
  | mk direction => cases direction <;> rfl

theorem recordInvocation_withBucket (hfinish : pctx.inFinish = false) (inv : Invocation) :
    pctx.recordInvocation inv = pctx.withBucket (pctx.bucket ++ [inv]) := by
  simp only [recordInvocation, hfinish, Bool.false_eq_true, if_false]
  unfold appendInvocation withBucket bucket
  cases pctx.direction <;> rfl

theorem call_withBucket (hfinish : pctx.inFinish = false)
    (hobserve : pctx.currentPolicy = .observe) (c : ContextCall) :
    pctx.call c = pctx.withBucket (pctx.bucket ++ [pctx.recordOf c]) := by
  rw [← recordInvocation_withBucket hfinish]
  cases c with
  | setBody newBody => simp [call, setBody, recordOf, recordOf.ownRecord, hfinish, hobserve]
  | setResponseBody newBody =>
    simp [call, setResponseBody, recordOf, recordOf.ownRecord, hfinish, hobserve]
  | _ => rfl

theorem recordOf_withBucket : (pctx.withBucket records).recordOf = pctx.recordOf := by
  funext c
  cases c <;> rfl

theorem calls_withBucket (hfinish : pctx.inFinish = false)
    (hobserve : pctx.currentPolicy = .observe) (calls : List ContextCall) :
    calls.foldl call pctx = pctx.withBucket (pctx.bucket ++ calls.map pctx.recordOf) := by
  induction calls generalizing pctx with
  | nil => simp [withBucket_bucket]
  | cons c rest ih =>
    have hrest := @ih (pctx.withBucket (pctx.bucket ++ [pctx.recordOf c])) hfinish hobserve
    rw [List.foldl_cons, call_withBucket hfinish hobserve, hrest]
    simp [recordOf_withBucket]

theorem markLastInvocationShadow_eq (plugin : String) (phase : InvocationPhase) :
    pctx.markLastInvocationShadow plugin phase =
      (markLast plugin phase pctx.bucket).map pctx.withBucket := by
  unfold markLastInvocationShadow withBucket bucket
  cases pctx.direction <;> rfl

def synthesized (plugin : String) (phase : InvocationPhase) (path : Bytes)
    (violation : Violation) : Invocation where
  plugin := plugin
  action := .deny
  phase := phase
  reason := if violation.code = "" then "plugin.unspecified" else violation.code
  path := path
  details := [("synthesized", "true"), ("would_deny_reason", violation.reason)]
  shadow := true

theorem markShadow_withBucket (hfinish : pctx.inFinish = false) (plugin : String)
    (phase : InvocationPhase) (violation : Violation) :
    pctx.markShadow plugin phase violation = pctx.withBucket
      ((markLast plugin phase pctx.bucket).getD
        (pctx.bucket ++ [synthesized plugin phase pctx.path violation])) := by
  unfold markShadow
  rw [markLastInvocationShadow_eq]
  cases markLast plugin phase pctx.bucket with
  | some records => rfl
  | none => exact recordInvocation_withBucket hfinish _

end Context

namespace Shadow

def own (plugin : String) (phase : InvocationPhase) (records : List Invocation) :
    List Invocation :=
  records.filter fun inv => inv.plugin = plugin ∧ inv.phase = phase

def denials (records : List Invocation) : List Invocation :=
  records.filter fun inv => inv.action = .deny

section History

variable {plugin : String} {phase : InvocationPhase}

theorem markLast_cases (plugin : String) (phase : InvocationPhase) (records : List Invocation) :
    own plugin phase records = [] ∧ Context.markLast plugin phase records = none ∨
    ∃ before inv behind, records = before ++ inv :: behind ∧
      inv.plugin = plugin ∧ inv.phase = phase ∧ own plugin phase behind = [] ∧
      Context.markLast plugin phase records =
        some (before ++ { inv with shadow := true } :: behind) := by
  induction records with
  | nil => exact .inl ⟨rfl, rfl⟩
  | cons head rest ih =>
    rcases ih with ⟨hnone, hmark⟩ | ⟨before, inv, behind, rfl, hplugin, hphase, hbehind, hmark⟩
    · by_cases hhead : head.plugin = plugin ∧ head.phase = phase
      · refine .inr ⟨[], head, rest, rfl, hhead.1, hhead.2, hnone, ?_⟩
        simp [Context.markLast, hmark, hhead]
      · refine .inl ⟨?_, ?_⟩
        · rw [own, List.filter_cons, if_neg (by simpa using hhead)]
          exact hnone
        · simp only [Context.markLast, hmark, if_neg hhead]
    · refine .inr ⟨head :: before, inv, behind, rfl, hplugin, hphase, hbehind, ?_⟩
      simp [Context.markLast, hmark]

section Records

variable {records before behind : List Invocation} {inv : Invocation}

theorem openDeny_eq_false_iff :
    (∀ y ∈ records, y.openDeny = false) ↔ ∀ d ∈ denials records, d.shadow = true := by
  simp only [denials, List.mem_filter, decide_eq_true_eq, Invocation.openDeny,
    Bool.and_eq_false_iff, decide_eq_false_iff_not, Bool.not_eq_false', and_imp, ← imp_iff_not_or]

theorem marked_iff (records : List Invocation) (inv : Invocation) :
    ((denials (records ++ [{ inv with shadow := true }])).filter Invocation.shadow).length = 1 ∧
      (∀ y ∈ records ++ [{ inv with shadow := true }], y.openDeny = false) ↔
    (denials (records ++ [inv])).length = 1 ∧
      ((∀ d ∈ denials (records ++ [inv]), d.shadow = true) ∨ inv.action = .deny) := by
  have hkept (ds : List Invocation) : (ds.filter Invocation.shadow).length = 1 ∧
      (∀ d ∈ ds, d.shadow = true) ↔ ds.length = 1 ∧ ∀ d ∈ ds, d.shadow = true :=
    and_congr_left fun hall => by rw [List.filter_eq_self.mpr hall]
  rw [openDeny_eq_false_iff, hkept]
  by_cases hdeny : inv.action = .deny
  · have hlast (y : Invocation) (hy : y.action = .deny) :
        denials (records ++ [y]) = denials records ++ [y] := by simp [denials, hy]
    rw [hlast { inv with shadow := true } hdeny, hlast inv hdeny, List.length_append,
      List.length_append]
    refine and_congr_right fun hone => iff_of_true ?_ (.inr hdeny)
    have hnone : denials records = [] := by simpa using hone
    simp [hnone]
  · have hlast (y : Invocation) (hy : y.action ≠ .deny) :
        denials (records ++ [y]) = denials records := by simp [denials, hy]
    rw [hlast { inv with shadow := true } hdeny, hlast inv hdeny, or_iff_left hdeny]

end Records

structure ShadowsDenial (plugin : String) (phase : InvocationPhase) (pctx after : Context) :
    Prop where
  body : after.body = pctx.body ∧ after.bodyMutated = pctx.bodyMutated ∧
    after.responseBody = pctx.responseBody ∧
    after.responseBodyMutated = pctx.responseBodyMutated
  one : ((denials (own plugin phase after.bucket)).filter Invocation.shadow).length = 1
  noneOpen : ∀ inv ∈ after.bucket ++ after.otherBucket, inv.plugin = plugin → inv.openDeny = false
  outcome : (outcomeFromContext pctx).finalAction ≠ .deny →
    (outcomeFromContext after).finalAction ≠ .deny

structure DeniesLast (plugin : String) (phase : InvocationPhase) (pctx : Context)
    (made : List Invocation) : Prop where
  here : own plugin phase (pctx.bucket ++ made) = [] ∨
    (denials (own plugin phase (pctx.bucket ++ made))).length = 1 ∧
      ((∀ d ∈ denials (own plugin phase (pctx.bucket ++ made)), d.shadow = true) ∨
        ∃ d, (own plugin phase (pctx.bucket ++ made)).getLast? = some d ∧ d.action = .deny)
  elsewhere : ∀ inv ∈ (pctx.bucket ++ made).filter (fun inv => inv.phase ≠ phase) ++
    pctx.otherBucket, inv.plugin = plugin → inv.openDeny = false
  others : (outcomeFromContext pctx).finalAction = .deny ∨
    ∀ inv ∈ made, inv.plugin ≠ plugin → inv.openDeny = false

variable {records : List Invocation}

theorem lastDenier_eq_none : lastDenier records = none ↔ ∀ inv ∈ records, inv.openDeny = false := by
  simp [lastDenier]

theorem outcome_ne_deny_iff (pctx : Context) :
    (outcomeFromContext pctx).finalAction ≠ .deny ↔
      pctx.rejectingPlugin = "" ∧
        ∀ inv ∈ pctx.bucket ++ pctx.otherBucket, inv.openDeny = false := by
  have hlists : pctx.lastDenyingPlugin = none ↔
      ∀ inv ∈ pctx.bucket ++ pctx.otherBucket, inv.openDeny = false := by
    simp only [Context.lastDenyingPlugin, Option.or_eq_none_iff, lastDenier_eq_none,
      List.forall_mem_append, Context.bucket, Context.otherBucket]
    cases pctx.direction
    · exact and_comm
    · exact Iff.rfl
  rw [← hlists]
  unfold outcomeFromContext
  by_cases hrejecting : pctx.rejectingPlugin = ""
  · grind
  · simp [hrejecting]

/-- The records after the mark; `extra` is the record that is added if there is none. -/
def marked (plugin : String) (phase : InvocationPhase) (extra : Invocation)
    (records : List Invocation) : List Invocation :=
  (Context.markLast plugin phase records).getD (records ++ [extra])

variable {inv : Invocation}

theorem mem_own :
    inv ∈ own plugin phase records ↔ inv ∈ records ∧ inv.plugin = plugin ∧ inv.phase = phase := by
  simp [own]

variable {extra : Invocation}

theorem mem_marked_of_other (records : List Invocation)
    (hextra : extra.plugin = plugin ∧ extra.phase = phase)
    (hother : ¬ (inv.plugin = plugin ∧ inv.phase = phase)) :
    inv ∈ marked plugin phase extra records ↔ inv ∈ records := by
  have hne (y : Invocation) (hy : y.plugin = plugin ∧ y.phase = phase) : inv ≠ y := by
    rintro rfl
    exact hother hy
  unfold marked
  rcases markLast_cases plugin phase records with
    ⟨-, hmark⟩ | ⟨before, x, behind, rfl, hplugin, hphase, -, hmark⟩
  · simp [hmark, hne extra hextra]
  · simp [hmark, hne x ⟨hplugin, hphase⟩, hne { x with shadow := true } ⟨hplugin, hphase⟩]

theorem own_marked_iff (records : List Invocation)
    (hextra : extra.plugin = plugin ∧ extra.phase = phase)
    (hdeny : extra.action = .deny ∧ extra.shadow = true) :
    ((denials (own plugin phase (marked plugin phase extra records))).filter
        Invocation.shadow).length = 1 ∧
      (∀ inv ∈ own plugin phase (marked plugin phase extra records), inv.openDeny = false) ↔
    own plugin phase records = [] ∨
      (denials (own plugin phase records)).length = 1 ∧
        ((∀ d ∈ denials (own plugin phase records), d.shadow = true) ∨
          ∃ d, (own plugin phase records).getLast? = some d ∧ d.action = .deny) := by
  unfold marked
  rcases markLast_cases plugin phase records with
    ⟨hnone, hmark⟩ | ⟨before, x, behind, rfl, hplugin, hphase, hbehind, hmark⟩
  · have hown : own plugin phase (records ++ [extra]) = [extra] := by
      rw [own, List.filter_append, ← own, hnone]
      simp [hextra]
    rw [hmark, Option.getD_none, hown]
    refine iff_of_true ?_ (.inl hnone)
    simp [denials, hdeny, Invocation.openDeny]
  · have hown : ∀ y : Invocation, y.plugin = plugin → y.phase = phase →
        own plugin phase (before ++ y :: behind) = own plugin phase before ++ [y] := by
      intro y hy hy'
      rw [own, List.filter_append, List.filter_cons, if_pos (by simp [hy, hy'])]
      rw [← own, ← own, hbehind]
    rw [hmark, Option.getD_some, hown x hplugin hphase,
      hown { x with shadow := true } hplugin hphase, marked_iff]
    simp

theorem shadowsDenial_iff {pctx after : Context} {made : List Invocation}
    (hbody : after.body = pctx.body ∧ after.bodyMutated = pctx.bodyMutated ∧
      after.responseBody = pctx.responseBody ∧
      after.responseBodyMutated = pctx.responseBodyMutated)
    (hrejecting : after.rejectingPlugin = pctx.rejectingPlugin)
    (hother : after.otherBucket = pctx.otherBucket)
    (hextra : extra.plugin = plugin ∧ extra.phase = phase)
    (hdeny : extra.action = .deny ∧ extra.shadow = true)
    (hbucket : after.bucket = marked plugin phase extra (pctx.bucket ++ made)) :
    ShadowsDenial plugin phase pctx after ↔ DeniesLast plugin phase pctx made := by
  have hown := own_marked_iff (pctx.bucket ++ made) hextra hdeny
  have hrest {inv : Invocation} (hinv : ¬ (inv.plugin = plugin ∧ inv.phase = phase)) :
      inv ∈ after.bucket ↔ inv ∈ pctx.bucket ++ made := by
    rw [hbucket]
    exact mem_marked_of_other _ hextra hinv
  rw [← hbucket] at hown
  have hnone : (∀ inv ∈ after.bucket ++ after.otherBucket, inv.plugin = plugin →
        inv.openDeny = false) ↔
      (∀ inv ∈ own plugin phase after.bucket, inv.openDeny = false) ∧
        ∀ inv ∈ (pctx.bucket ++ made).filter (fun inv => inv.phase ≠ phase) ++ pctx.otherBucket,
          inv.plugin = plugin → inv.openDeny = false := by
    rw [hother, List.forall_mem_append, List.forall_mem_append, ← and_assoc]
    refine and_congr_left fun _ => ⟨fun h => ⟨fun inv hinv => ?_, fun inv hinv => ?_⟩, ?_⟩
    · exact h inv (mem_own.mp hinv).1 (mem_own.mp hinv).2.1
    · obtain ⟨hmem, hphase⟩ := List.mem_filter.mp hinv
      exact h inv ((hrest fun hsame => of_decide_eq_true hphase hsame.2).mpr hmem)
    · grind [mem_own]
  have houtcome (hopen : ∀ inv ∈ after.bucket ++ after.otherBucket, inv.plugin = plugin →
        inv.openDeny = false) :
      ((outcomeFromContext pctx).finalAction ≠ .deny →
        (outcomeFromContext after).finalAction ≠ .deny) ↔
      ((outcomeFromContext pctx).finalAction = .deny ∨
        ∀ inv ∈ made, inv.plugin ≠ plugin → inv.openDeny = false) := by
    rw [or_iff_not_imp_left]
    refine imp_congr_right fun hbefore => ?_
    obtain ⟨hrejected, hclosed⟩ := (outcome_ne_deny_iff pctx).mp hbefore
    rw [outcome_ne_deny_iff, and_iff_right (hrejecting.trans hrejected)]
    constructor
    · grind
    · intro h inv hinv
      by_cases hplugin : inv.plugin = plugin
      · exact hopen inv hinv hplugin
      rcases List.mem_append.mp hinv with hinv | hinv
      · rcases List.mem_append.mp ((hrest fun hsame => hplugin hsame.1).mp hinv) with hmem | hmem
        · exact hclosed inv (List.mem_append_left _ hmem)
        · exact h inv hmem hplugin
      · exact hclosed inv (List.mem_append_right _ (hother ▸ hinv))
  constructor
  · intro h
    obtain ⟨here, elsewhere⟩ := hnone.mp h.noneOpen
    exact ⟨hown.mp ⟨h.one, here⟩, elsewhere, (houtcome h.noneOpen).mp h.outcome⟩
  · intro h
    obtain ⟨hone, here⟩ := hown.mpr h.here
    have hopen := hnone.mpr ⟨here, h.elsewhere⟩
    exact ⟨hbody, hone, hopen, (houtcome hopen).mpr h.others⟩

end History

section Dispatch

variable {W : Type*}

abbrev Behaviour (W : Type*) := W → Context → List ContextCall × Option Violation × W

def Behaviour.hook (b : Behaviour W) : Hook W := fun w pctx =>
  let (calls, violation, w) := b w pctx
  (.reject violation, w, calls.foldl Context.call pctx)

/-- The three loops of the pipeline that dispatch into plugins. -/
inductive Loop where
  | request (i : Nat)
  | response
  | frame (bytes : Bytes) (last : Bool)

namespace Loop

def phase : Loop → InvocationPhase
  | .request _ => .request
  | .response | .frame _ _ => .response

def hook (plugin : Plugin W) : Loop → Option (Hook W)
  | .request _ => some plugin.onRequest
  | .response => if plugin.onResponseFrame.isSome then none else some plugin.onResponse
  | .frame bytes last => plugin.onResponseFrame.map fun hook => hook bytes last

def run (ctxErr : Pipeline.CtxErr W) : Loop → Pipeline W → Hook W
  | .request i => Pipeline.runFrom ctxErr i
  | .response => Pipeline.respondIn ctxErr
  | .frame bytes last => Pipeline.frameIn ctxErr bytes last

def next : Loop → Loop
  | .request i => .request (i + 1)
  | loop => loop

/-- `Run` notes the index before it calls the plugin. -/
def enter (pctx : Context) : Loop → Context
  | .request i => { pctx with dispatched := pctx.dispatched ++ [i] }
  | .response | .frame _ _ => pctx

variable {plugin : Plugin W} {hook : Hook W}

theorem run_cons (ctxErr : Pipeline.CtxErr W) (loop : Loop) {policy : ErrorPolicy}
    (hpolicy : policy ≠ .off) (hhook : loop.hook plugin = some hook) (rest : Pipeline W)
    {w w₁ : W} (hctx : ctxErr w = (false, w₁)) (pctx : Context)
    (hgoes : (Pipeline.dispatch plugin.name policy loop.phase hook w₁ (loop.enter pctx)).1 = none) :
    let out := Pipeline.dispatch plugin.name policy loop.phase hook w₁ (loop.enter pctx)
    loop.run ctxErr ((plugin, policy) :: rest) w pctx =
      loop.next.run ctxErr rest out.2.1 out.2.2 := by
  intro out
  have hout : Pipeline.dispatch plugin.name policy loop.phase hook w₁ (loop.enter pctx) =
      (none, out.2.1, out.2.2) := by
    rw [← hgoes]
  cases loop with
  | request i =>
    cases hhook
    rw [phase, enter] at hout
    simp [run, next, Pipeline.runFrom, hpolicy, hctx, hout]
  | response =>
    simp only [Loop.hook, Option.ite_none_left_eq_some, Option.some.injEq] at hhook
    obtain ⟨hframe, rfl⟩ := hhook
    rw [phase, enter] at hout
    simp [run, next, Pipeline.respondIn, hpolicy, hframe, hctx, hout]
  | frame bytes last =>
    simp only [Loop.hook, Option.map_eq_some_iff] at hhook
    obtain ⟨streaming, hframe, rfl⟩ := hhook
    rw [phase, enter] at hout
    simp [run, next, Pipeline.frameIn, hpolicy, hctx, hframe, hout]

end Loop

variable {w w' : W} {name : String} {pctx : Context} {violation : Option Violation}

theorem dispatch_observe_reject {phase : InvocationPhase} {hook : Hook W} {after : Context}
    (h : hook w (pctx.setCurrent name phase .observe) = (.reject violation, w', after)) :
    Pipeline.dispatch name .observe phase hook w pctx =
      (none, w', ((pctx.setCurrent name phase .observe).keepPrivate
        after).clearCurrent.markShadow name phase (Violation.stamp name violation)) := by
  simp [Pipeline.dispatch, h]

theorem dispatch_observe_behaviour {phase : InvocationPhase} {b : Behaviour W} {stamped : Context}
    {calls : List ContextCall} (hstamped : pctx.setCurrent name phase .observe = stamped)
    (hfinish : stamped.inFinish = false) (hb : b w stamped = (calls, violation, w')) :
    Pipeline.dispatch name .observe phase b.hook w pctx = (none, w', stamped.clearCurrent.withBucket
      (marked name phase (Context.synthesized name phase stamped.path
        (Violation.stamp name violation)) (stamped.bucket ++ calls.map stamped.recordOf))) := by
  have hobserve : stamped.currentPolicy = .observe := by
    rw [← hstamped]
    rfl
  have hcalls := Context.calls_withBucket hfinish hobserve calls
  have hhooked : b.hook w (pctx.setCurrent name phase .observe) =
      (.reject violation, w', stamped.withBucket (stamped.bucket ++ calls.map stamped.recordOf)) := by
    simp only [hstamped, Behaviour.hook, hb, hcalls]
  have hmark := @Context.markShadow_withBucket (stamped.clearCurrent.withBucket
    (stamped.bucket ++ calls.map stamped.recordOf)) hfinish name phase
    (Violation.stamp name violation)
  rw [Context.bucket_withBucket, Context.withBucket_withBucket] at hmark
  rw [dispatch_observe_reject hhooked, marked, hstamped]
  exact congrArg (fun after => (none, w', after)) hmark

/-- A rejection under `observe`, for every plugin behaviour and in each of the three
dispatching loops: the phase goes on with the next plugin and the rejection is shadowed,
exactly if the history of the records is one in which the mark meets the denial. -/
theorem observe_shadows_iff (ctxErr : Pipeline.CtxErr W) (loop : Loop) (plugin : Plugin W)
    (b : Behaviour W) (hhook : loop.hook plugin = some b.hook) (rest : Pipeline W) (w w₁ : W)
    (hctx : ctxErr w = (false, w₁)) (pctx : Context) (hfinish : pctx.inFinish = false) :
    let stamped := (loop.enter pctx).setCurrent plugin.name loop.phase .observe
    let after :=
      (Pipeline.dispatch plugin.name .observe loop.phase b.hook w₁ (loop.enter pctx)).2.2
    loop.run ctxErr ((plugin, .observe) :: rest) w pctx =
        loop.next.run ctxErr rest (b w₁ stamped).2.2 after ∧
      ShadowsDenial plugin.name loop.phase pctx after ↔
    DeniesLast plugin.name loop.phase pctx ((b w₁ stamped).1.map stamped.recordOf) := by
  intro stamped after
  have hentered : stamped.bucket = pctx.bucket ∧ stamped.otherBucket = pctx.otherBucket := by
    cases loop <;> exact ⟨rfl, rfl⟩
  have hstamped : stamped.inFinish = false := by
    cases loop <;> exact hfinish
  rcases hb : b w₁ stamped with ⟨calls, violation, w'⟩
  have hdispatch := dispatch_observe_behaviour (rfl : _ = stamped) hstamped hb
  have hafter : after = stamped.clearCurrent.withBucket
      (marked plugin.name loop.phase (Context.synthesized plugin.name loop.phase stamped.path
        (Violation.stamp plugin.name violation))
        (stamped.bucket ++ calls.map stamped.recordOf)) := by
    rw [show after = _ from congrArg (fun out => out.2.2) hdispatch]
  have hpolicy : ErrorPolicy.observe ≠ .off := by simp
  have hrun := Loop.run_cons ctxErr loop hpolicy hhook rest hctx pctx (by rw [hdispatch])
  rw [hdispatch] at hrun
  rw [← hafter] at hrun
  let extra := Context.synthesized plugin.name loop.phase stamped.path
    (Violation.stamp plugin.name violation)
  have hbucket : after.bucket =
      marked plugin.name loop.phase extra (pctx.bucket ++ calls.map stamped.recordOf) := by
    rw [hafter, Context.bucket_withBucket, hentered.1]
  have hiff : ShadowsDenial plugin.name loop.phase pctx after ↔
      DeniesLast plugin.name loop.phase pctx (calls.map stamped.recordOf) := by
    refine shadowsDenial_iff ?_ ?_ ?_ ⟨rfl, rfl⟩ ⟨rfl, rfl⟩ hbucket <;> rw [hafter]
    · cases loop <;> exact ⟨rfl, rfl, rfl, rfl⟩
    · cases loop <;> rfl
    · rw [Context.otherBucket_withBucket]
      exact hentered.2
  exact ⟨fun h => hiff.mp h.2, fun h => ⟨hrun, hiff.mpr h⟩⟩

end Dispatch

/-- A guard whose `OnRequest` makes these calls and then rejects. -/
def guardBehaviour (calls : List ContextCall) : Behaviour Unit := fun w _ => (calls, none, w)

def guardPlugin (calls : List ContextCall) : Plugin Unit where
  name := "guard"
  capabilities := ⟨false, false, [], []⟩
  onRequest := (guardBehaviour calls).hook
  onResponse := fun w pctx => (.cont, w, pctx)

def toolRequest : Context := Context.ofRequest .outbound "POST" "http" "tool" (bytes "/") ∅ []

def denyRecord (reason : String) : Invocation where
  plugin := ""
  action := .deny
  phase := .request
  reason := reason
  path := []
  details := []
  shadow := false

/-- A guard that allows, and then denies with its last record. -/
theorem observe_shadows_guard :
    let pctx := toolRequest.setCurrent "guard" .request .observe
    let calls := [ContextCall.allow "checked", .record (denyRecord "denied")]
    DeniesLast "guard" .request toolRequest
        (calls.map ((Loop.request 0).enter pctx).recordOf) ∧
      ShadowsDenial "guard" .request toolRequest
        (Pipeline.dispatch "guard" .observe .request (guardBehaviour calls).hook ()
          ((Loop.request 0).enter toolRequest)).2.2 := by
  intro pctx calls
  have hlast : DeniesLast "guard" .request toolRequest
      (calls.map ((Loop.request 0).enter pctx).recordOf) := by
    refine ⟨.inr ⟨by decide +kernel, .inr ?_⟩, by decide +kernel, .inr (by decide +kernel)⟩
    exact ⟨((Loop.request 0).enter pctx).recordOf (.record (denyRecord "denied")), rfl, rfl⟩
  have hshadows := (observe_shadows_iff (fun w => (false, w)) (.request 0) (guardPlugin calls)
    (guardBehaviour calls) rfl [] () () rfl toolRequest rfl).mpr hlast
  exact ⟨hlast, hshadows.2⟩

def observed (calls : List ContextCall) : Context :=
  ((Loop.request 0).run (fun w => (false, w)) [(guardPlugin calls, .observe)] ()
    toolRequest).2.2

/-- A record behind the denial takes its mark: the denial still counts, and the request that
went through is reported as denied. A record without a denial takes the mark as well, and no
denial is left at all. -/
theorem mark_misses_denial :
    (observed [.record (denyRecord "denied"), .observe "evaluated"]).bucket.map
        (fun inv => (inv.action, inv.shadow)) = [(.deny, false), (.observe, true)] ∧
      (outcomeFromContext toolRequest).finalAction ≠ .deny ∧
      (outcomeFromContext
        (observed [.record (denyRecord "denied"), .observe "evaluated"])).finalAction = .deny ∧
    denials (observed [.allow "checked"]).bucket = [] := by
  decide +kernel

end Shadow

end Kagenti.AuthBridge
