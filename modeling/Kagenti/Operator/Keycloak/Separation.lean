import Kagenti.Lib.Transition
import Kagenti.Operator.Keycloak.AudienceSpec

/-!
The audience scopes of all workloads registered in one realm. A scope is found by a name that joins
namespace and name with a hyphen, so workloads can share one.
-/

namespace Kagenti.Operator.Keycloak

open Lib Go Fallible

/-! Kubernetes names -/

def isLabelText (cs : List Char) : Bool :=
  cs.all (fun c => c.isLower || c.isDigit || c = '-') && cs.head?.any (· ≠ '-') &&
    cs.getLast?.any (· ≠ '-')

/-- The names of namespaces. -/
def isDNS1123Label (s : String) : Bool := isLabelText s.toList && s.length ≤ 63

/-- The names of workloads. -/
def isDNS1123Subdomain (s : String) : Bool :=
  (s.toList.splitOn '.').all isLabelText && s.length ≤ 253

structure Workload where
  ns : String
  workloadName : String
  ns_valid : isDNS1123Label ns = true
  workloadName_valid : isDNS1123Subdomain workloadName = true
  deriving DecidableEq

variable {c : Char}

theorem isLabelText_mem {cs : List Char} (h : isLabelText cs = true) (hc : c ∈ cs) : c ≠ '/' := by
  simp only [isLabelText, Bool.and_eq_true, List.all_eq_true] at h
  rintro rfl
  exact absurd (h.1.1 _ hc) (by decide)

theorem mem_intercalate {α : Type} {sep : List α} {ls : List (List α)} {a : α}
    (h : a ∈ sep.intercalate ls) : a ∈ sep ∨ ∃ l ∈ ls, a ∈ l := by
  induction ls with
  | nil => simp [List.intercalate] at h
  | cons l ls ih =>
    cases ls with
    | nil => exact .inr ⟨l, by simp, by simpa [List.intercalate] using h⟩
    | cons l' ls =>
      have hsplit : a ∈ l ∨ a ∈ sep ∨ a ∈ sep.intercalate (l' :: ls) := by
        simpa [List.intercalate] using h
      rcases hsplit with hl | hsep | hrest
      · exact .inr ⟨l, by simp, hl⟩
      · exact .inl hsep
      · grind

variable {s : String}

theorem isDNS1123Subdomain_char (h : isDNS1123Subdomain s = true) (hc : c ∈ s.toList) :
    (c.isLower || c.isDigit || c = '-' || c = '.') = true := by
  simp only [isDNS1123Subdomain, Bool.and_eq_true, List.all_eq_true] at h
  have hjoin : ['.'].intercalate (s.toList.splitOn '.') = s.toList := List.intercalate_splitOn '.'
  rw [← hjoin] at hc
  rcases mem_intercalate hc with hdot | ⟨part, hpart, hc⟩
  · simp only [List.mem_singleton] at hdot
    simp [hdot]
  · have label := h.1 part hpart
    simp only [isLabelText, Bool.and_eq_true, List.all_eq_true] at label
    rw [label.1.1 c hc, Bool.true_or]

theorem isDNS1123Subdomain_mem (h : isDNS1123Subdomain s = true) (hc : c ∈ s.toList) : c ≠ '/' := by
  rintro rfl
  exact absurd (isDNS1123Subdomain_char h hc) (by decide)

namespace Workload

variable (w w' : Workload)

def clientName : String := w.ns ++ "/" ++ w.workloadName

def scopeName : String := audienceScopeName w.clientName

theorem scopeName_toList : w.scopeName.toList =
    "agent-".toList ++ (w.ns.toList ++ '-' :: w.workloadName.toList) ++ "-aud".toList := by
  have hreplace : ∀ cs : List Char, (∀ c ∈ cs, c ≠ '/') →
      cs.map (fun c => if c = '/' then '-' else c) = cs := by
    intro cs hcs
    exact (List.map_congr_left fun c hc => if_neg (hcs c hc)).trans (List.map_id cs)
  have hns : ∀ c ∈ w.ns.toList, c ≠ '/' := by
    intro c hc
    have hvalid := w.ns_valid
    simp only [isDNS1123Label, Bool.and_eq_true] at hvalid
    exact isLabelText_mem hvalid.1 hc
  have hname : ∀ c ∈ w.workloadName.toList, c ≠ '/' := fun c hc =>
    isDNS1123Subdomain_mem w.workloadName_valid hc
  simp [scopeName, audienceScopeName, clientName, hreplace _ hns, hreplace _ hname]

def Collides : Prop :=
  ∃ mid : String, w'.ns = w.ns ++ "-" ++ mid ∧ w.workloadName = mid ++ "-" ++ w'.workloadName

variable {w w'}

theorem Collides.scopeName_eq (h : Collides w w') : w.scopeName = w'.scopeName := by
  obtain ⟨mid, hns, hname⟩ := h
  apply String.toList_inj.mp
  simp [scopeName_toList, hns, hname]

theorem eq_or_collides_of_append {mid : List Char} (hns : w'.ns.toList = w.ns.toList ++ mid)
    (hname : '-' :: w.workloadName.toList = mid ++ '-' :: w'.workloadName.toList) :
    w = w' ∨ Collides w w' := by
  cases mid with
  | nil =>
    left
    have hns : w.ns = w'.ns := String.toList_inj.mp (by simpa using hns.symm)
    have hname : w.workloadName = w'.workloadName := String.toList_inj.mp (by simpa using hname)
    cases w
    cases w'
    cases hns
    cases hname
    rfl
  | cons c mid =>
    obtain ⟨rfl, hname⟩ := List.cons.inj hname
    have hns' : w'.ns = w.ns ++ "-" ++ String.ofList mid :=
      String.toList_inj.mp (by simpa using hns)
    have hname' : w.workloadName = String.ofList mid ++ "-" ++ w'.workloadName :=
      String.toList_inj.mp (by simpa using hname)
    exact .inr ⟨String.ofList mid, hns', hname'⟩

theorem eq_or_collides (h : w.scopeName = w'.scopeName) :
    w = w' ∨ Collides w w' ∨ Collides w' w := by
  have hjoined : w.ns.toList ++ '-' :: w.workloadName.toList =
      w'.ns.toList ++ '-' :: w'.workloadName.toList := by
    have hlists := String.toList_inj.mpr h
    rw [scopeName_toList, scopeName_toList] at hlists
    exact List.append_cancel_left (List.append_cancel_right hlists)
  rcases List.append_eq_append_iff.mp hjoined with ⟨mid, hns, hname⟩ | ⟨mid, hns, hname⟩
  · exact (eq_or_collides_of_append hns hname).imp_right .inl
  · exact (eq_or_collides_of_append hns hname).imp Eq.symm .inr

theorem Collides.ne (h : Collides w w') : w ≠ w' := by
  rintro rfl
  obtain ⟨mid, hns, -⟩ := h
  have hlen := congrArg String.length hns
  have hhyphen : "-".length = 1 := rfl
  simp only [String.length_append] at hlen
  omega

end Workload

/-! Registration -/

def resolveKeycloakClientID (ns workloadName serviceAccount : String) (spireEnabled : Bool)
    (trustDomain : String) : Except String String :=
  let sa := if trimSpace serviceAccount = "" then "default" else trimSpace serviceAccount
  if spireEnabled = false then .ok (ns ++ "/" ++ workloadName)
  else if sa = "default" then
    .error ("SPIRE enabled: set spec.template.spec.serviceAccountName to a dedicated " ++
      "ServiceAccount (not default) on the workload for a stable SPIFFE client ID")
  else if trustDomain = "" then
    .error ("SPIRE enabled: operator --spire-trust-domain is required for " ++
      "operator-managed client registration")
  else .ok ("spiffe://" ++ trustDomain ++ "/ns/" ++ ns ++ "/sa/" ++ sa)

def parsePlatformClientIDs (raw : String) : List String :=
  let out := (((trimSpace raw).toList.splitOn ',').map fun p =>
    trimSpace (String.ofList p)).filter (· ≠ "")
  if trimSpace raw = "" ∨ out = [] then ["kagenti"] else out

structure ClientRegistration where
  spireTrustDomain : String
  serviceAccountName : Workload → String

structure Call where
  workload : Workload
  keycloakAudienceScopeEnabled : String
  platformClientIDs : String
  agentClientUUID : Option Nat

def Call.audienceScopeOn (c : Call) : Bool := trimSpace c.keycloakAudienceScopeEnabled ≠ "false"

structure Registered (N : Type) where
  world : N × Realm
  registered : List Workload

namespace ClientRegistration

variable (r : ClientRegistration)

def clientID (w : Workload) : Except String String :=
  resolveKeycloakClientID w.ns w.workloadName (r.serviceAccountName w) (r.spireTrustDomain ≠ "")
    r.spireTrustDomain

def audienceParams (c : Call) (clientID : String) : AudienceParams where
  clientName := c.workload.clientName
  audienceClientID := clientID
  platformClientIDs := parsePlatformClientIDs c.platformClientIDs
  audienceScopeEnabled := c.audienceScopeOn
  agentClientUUID := c.agentClientUUID

variable {N : Type} (net : Network N)

/-- The call of `EnsureAudienceScope` in a reconcile. Where the feature is off the call does
nothing, and no scope is ensured. -/
def reconcile (s : Registered N) (c : Call) : Registered N :=
  match r.clientID c.workload with
  | .error _ => s
  | .ok clientID =>
    match (ensureAudienceScope net (audienceParams c clientID)).runFrom s.world with
    | (.error _, world) => { s with world := world }
    | (.ok (), world) =>
      if c.audienceScopeOn then ⟨world, c.workload :: s.registered⟩
      else { s with world := world }

def system (world : N × Realm) : Transition.System (Registered N) Call where
  init := ⟨world, []⟩
  step s c := some (r.reconcile net s c)

def CarriesOwn (realm : Realm) (w : Workload) : Prop :=
  ∃ audience, r.clientID w = .ok audience ∧ Carries realm w.scopeName audience

def Separated (ws : List Workload) : Prop :=
  ∀ (N : Type) (net : Network N) (world : N × Realm) (s : Registered N),
    (r.system net world).Reachable (fun _ c => c.workload ∈ ws) s →
      ∀ w ∈ s.registered, r.CarriesOwn s.world.2 w

/-! Steps and runs -/

variable {r net} {w : Workload} {c : Call} {s : Registered N}

theorem CarriesOwn.ensure {clientID : String} (hid : r.clientID c.workload = .ok clientID)
    {world : N × Realm} (h : r.CarriesOwn world.2 w)
    (hne : w ≠ c.workload → w.scopeName ≠ c.workload.scopeName) :
    r.CarriesOwn ((ensureAudienceScope net (audienceParams c clientID)).runFrom world).2.2 w := by
  obtain ⟨audience, haudience, hcarries⟩ := h
  refine ⟨audience, haudience, ?_⟩
  by_cases heq : w = c.workload
  · subst heq
    obtain rfl : clientID = audience := Except.ok.inj (hid.symm.trans haudience)
    exact (ensureAudienceScope_keeps_own net (audienceParams c clientID)).runFrom hcarries
  · exact (ensureAudienceScope_keeps_other net (audienceParams c clientID) (hne heq)).runFrom
      hcarries

theorem reconcile_registered (hw : w ∈ (r.reconcile net s c).registered) :
    w ∈ s.registered ∨ w = c.workload ∧ r.CarriesOwn (r.reconcile net s c).world.2 w := by
  unfold reconcile at hw ⊢
  cases hid : r.clientID c.workload with
  | error err =>
    simp only [hid] at hw
    exact .inl hw
  | ok clientID =>
    simp only [hid] at hw ⊢
    rcases hrun : (ensureAudienceScope net (audienceParams c clientID)).runFrom s.world with
      ⟨_ | _, world⟩
    · simp only [hrun] at hw
      exact .inl hw
    · simp only [hrun] at hw ⊢
      split at hw
      next hon =>
        rcases List.mem_cons.mp hw with rfl | hold
        · right
          have henabled : (audienceParams c clientID).audienceScopeEnabled = true := by
            simpa only [audienceParams] using hon
          have hensured := (ensureAudienceScope_satisfies net _ henabled).of_ok trivial hrun
          rw [if_pos hon]
          exact ⟨rfl, clientID, hid, hensured⟩
        · exact .inl hold
      · exact .inl hw

theorem reconcile_keeps (h : r.CarriesOwn s.world.2 w)
    (hne : w ≠ c.workload → w.scopeName ≠ c.workload.scopeName) :
    r.CarriesOwn (r.reconcile net s c).world.2 w := by
  unfold reconcile
  cases hid : r.clientID c.workload with
  | error err => exact h
  | ok clientID =>
    have hkept : r.CarriesOwn
        ((ensureAudienceScope net (audienceParams c clientID)).runFrom s.world).2.2 w :=
      h.ensure hid hne
    rcases hrun : (ensureAudienceScope net (audienceParams c clientID)).runFrom s.world with
      ⟨_ | _, world⟩
    · simpa only [hrun] using hkept
    · rw [hrun] at hkept
      simp only [hrun]
      split <;> exact hkept

theorem separated_of_scopeNames {ws : List Workload}
    (hnames : ∀ w ∈ ws, ∀ w' ∈ ws, w ≠ w' → w.scopeName ≠ w'.scopeName) : r.Separated ws := by
  intro N net world s hreach
  suffices hinv : ∀ w ∈ s.registered, w ∈ ws ∧ r.CarriesOwn s.world.2 w from
    fun w hw => (hinv w hw).2
  refine hreach.invariant (I := fun s : Registered N => ∀ w ∈ s.registered, w ∈ ws ∧
    r.CarriesOwn s.world.2 w) (fun _ hw => absurd hw List.not_mem_nil) ?_
  rintro s c s' hinv hc hstep w hw
  obtain rfl := Option.some.inj hstep
  rcases reconcile_registered hw with hold | ⟨rfl, hown⟩
  · obtain ⟨hmem, hown⟩ := hinv w hold
    exact ⟨hmem, reconcile_keeps hown (hnames w hmem c.workload hc)⟩
  · exact ⟨hc, hown⟩

/-- Exactly the sets of workloads no two of which collide have a scope and an audience for each
of them. -/
theorem audiences_separate_iff (r : ClientRegistration) (ws : List Workload) :
    (∀ w ∈ ws, ∀ w' ∈ ws, w ≠ w' → w.scopeName ≠ w'.scopeName) ∧ r.Separated ws ↔
      ∀ w ∈ ws, ∀ w' ∈ ws, ¬ w.Collides w' := by
  constructor
  · rintro ⟨hnames, -⟩ w hw w' hw' hcollides
    exact hnames w hw w' hw' hcollides.ne hcollides.scopeName_eq
  · intro hfree
    have hnames : ∀ w ∈ ws, ∀ w' ∈ ws, w ≠ w' → w.scopeName ≠ w'.scopeName := by
      intro w hw w' hw' hne heq
      rcases Workload.eq_or_collides heq with rfl | hcollides | hcollides
      · exact hne rfl
      · exact hfree w hw w' hw' hcollides
      · exact hfree w' hw' w hw hcollides
    exact ⟨hnames, separated_of_scopeNames hnames⟩

/-! Two workloads with one scope name -/

def teamAB : Workload := ⟨"team", "a-b", by decide, by decide⟩

def teamAThenB : Workload := ⟨"team-a", "b", by decide, by decide⟩

def plain : ClientRegistration := ⟨"", fun _ => ""⟩

/-- Both registrations succeed, and the second overwrites the audience of the first. -/
theorem hyphens_share_scope : teamAB ≠ teamAThenB ∧ teamAB.scopeName = teamAThenB.scopeName ∧
    ¬ plain.Separated [teamAB, teamAThenB] := by
  refine ⟨by decide, by decide, ?_⟩
  intro hseparated
  obtain ⟨s, hrun, hmem, t, ht, hname, m, hm, haudience⟩ :
      ∃ s ∈ (plain.system reliable ((), emptyRealm)).run
        (fun _ c => c.workload ∈ [teamAB, teamAThenB])
        [⟨teamAB, "", "", none⟩, ⟨teamAThenB, "", "", none⟩], teamAB ∈ s.registered ∧
      ∃ t ∈ s.world.2.scopes.lookup 0, t.name = teamAB.scopeName ∧
      ∃ m ∈ t.mappers.lookup teamAB.scopeName, m.audience = some teamAThenB.clientName := by
    decide +kernel
  obtain ⟨audience, hid, hcarries⟩ :=
    hseparated Unit reliable _ s (Transition.System.reachable_of_run _ hrun) teamAB hmem
  obtain ⟨m', ⟨t', ht', -, hm'⟩, hfor⟩ := hcarries.holds ⟨t, ht, hname⟩
  obtain rfl : t = t' := Option.some.inj (ht.symm.trans ht')
  obtain rfl : m = m' := Option.some.inj (hm.symm.trans hm')
  obtain rfl : teamAThenB.clientName = audience := Option.some.inj (haudience.symm.trans hfor.2)
  exact absurd (Except.ok.inj hid) (by decide)

end ClientRegistration

end Kagenti.Operator.Keycloak
