import Kagenti.Lib.Transition
import Kagenti.Operator.BundleService.Policies

/-!
The bundle service as a system: the informer's store and its handler, the three caches
(`bundleservice/cache`), and `GetBundle` calls that share builds. A step is one access under a lock.
`ContentHash` and `Build` are arbitrary functions of the policies; bundles expire at any time.
-/

namespace Kagenti.Operator.BundleService

open Lib.Transition

abbrev Data := List UInt8

structure ServiceConfig where
  service : String
  contentHash : List PolicyEntry → String
  build : List PolicyEntry → Option Data

def maxBundleSize : Nat := 5 * 1024 * 1024

def maxConcurrentBuilds : Nat := 10

/-! Invalidation -/

inductive CacheOp where
  | invalidateGlobal
  | invalidateNamespace (nspace : String)
  | invalidateAllETags
  | invalidateAllBundles
  | invalidateETag (id : ObjectKey)
  | invalidateBundle (id : ObjectKey)
  deriving DecidableEq

/-- The operations of `invalidate` for the object of an event. -/
def invalidate (service : String) (o : AuthorizationPolicy) : List CacheOp :=
  match o.spec.scope with
  | .global =>
    if o.key.nspace ≠ service then []
    else [.invalidateGlobal, .invalidateAllETags, .invalidateAllBundles]
  | .nspace =>
    [.invalidateNamespace o.key.nspace, .invalidateAllETags, .invalidateAllBundles]
  | .client => [.invalidateETag o.key, .invalidateBundle o.key]

/-! Calls -/

inductive Answer where
  | notModified (etag : String)
  | bundle (data : Data) (etag : String)
  | failed
  | cancelled
  deriving DecidableEq

inductive CallState where
  | begun
  | bundleCache
  -- the bundle cache had a bundle, whose ETag is stored next
  | hit (data : Data) (etag : String)
  | enter
  -- in the singleflight group
  | waiting
  | returned (answer : Answer)
  deriving DecidableEq

structure Call where
  id : ObjectKey
  ifNoneMatch : String
  state : CallState
  settled : Bool
  deriving DecidableEq

def Call.inProgress (c : Call) : Bool :=
  match c.state with
  | .returned _ => false
  | _ => true

inductive BuildState where
  | acquire
  | global
  | readGlobal
  | storeGlobal (global : List PolicyEntry)
  | nspace (global : List PolicyEntry)
  | readNamespace (global : List PolicyEntry)
  | storeNamespace (global nspace : List PolicyEntry)
  | client (global nspace : List PolicyEntry)
  | etag (policies : List PolicyEntry)
  | bundle (policies : List PolicyEntry)
  deriving DecidableEq

structure Service where
  store : PolicyStore
  -- events whose handler has not started, and what the running handler has left to do
  pending : List AuthorizationPolicy
  handling : List CacheOp
  global : Option (List PolicyEntry)
  nspaces : AList fun _ : String => List PolicyEntry
  etags : AList fun _ : ObjectKey => String
  bundles : AList fun _ : ObjectKey => Data × String
  builds : AList fun _ : ObjectKey => BuildState
  calls : List Call

inductive ServiceAction where
  | apply (o : AuthorizationPolicy)
  | delete (key : ObjectKey)
  | redeliver (key : ObjectKey)
  | notify
  | handle
  | expire (id : ObjectKey)
  | getBundle (id : ObjectKey) (ifNoneMatch : String)
  | call (i : Nat)
  -- a step of a build, with the order in which it lists the index if it does
  | build (id : ObjectKey) (listed : List AuthorizationPolicy)
  | cancel (id : ObjectKey)

namespace Service

def init : Service := ⟨∅, [], [], none, ∅, ∅, ∅, ∅, []⟩

variable (s : Service)

def handleOp : CacheOp → Service
  | .invalidateGlobal => { s with global := none }
  | .invalidateNamespace nspace => { s with nspaces := s.nspaces.erase nspace }
  | .invalidateAllETags => { s with etags := ∅ }
  | .invalidateAllBundles => { s with bundles := ∅ }
  | .invalidateETag id => { s with etags := s.etags.erase id }
  | .invalidateBundle id => { s with bundles := s.bundles.erase id }

def event (store : PolicyStore) (o : AuthorizationPolicy) : Service :=
  { s with
    store := store
    pending := s.pending ++ [o]
    calls := s.calls.map fun c => { c with settled := false } }

def quiet : Bool :=
  s.pending.isEmpty && s.handling.isEmpty && s.calls.all fun c => !c.inProgress || c.settled

def stepCall (c : Call) : Option (Service × CallState) :=
  match c.state with
  | .begun =>
    match s.etags.lookup c.id with
    | some etag =>
      if c.ifNoneMatch ≠ "" ∧ c.ifNoneMatch = etag then
        some (s, .returned (.notModified etag))
      else some (s, .bundleCache)
    | none => some (s, .bundleCache)
  | .bundleCache =>
    match s.bundles.lookup c.id with
    | some (data, etag) => some (s, .hit data etag)
    | none => some (s, .enter)
  | .hit data etag =>
    some ({ s with etags := s.etags.insert c.id etag }, .returned (.bundle data etag))
  | .enter =>
    match s.builds.lookup c.id with
    | some _ => some (s, .waiting)
    | none => some ({ s with builds := s.builds.insert c.id .acquire }, .waiting)
  | .waiting => none
  | .returned _ => none

def finish (id : ObjectKey) (answer : Answer) : Service :=
  { s with
    builds := s.builds.erase id
    calls := s.calls.map fun c =>
      if c.id = id ∧ c.state = .waiting then { c with state := .returned answer } else c }

def setBuild (id : ObjectKey) (b : BuildState) : Service :=
  { s with builds := s.builds.insert id b }

def running : Nat := (s.builds.entries.filter fun b => b.2 ≠ .acquire).length

def stepBuild (config : ServiceConfig) (id : ObjectKey) (listed : List AuthorizationPolicy) :
    BuildState → Option Service
  | .acquire => if s.running < maxConcurrentBuilds then some (s.setBuild id .global) else none
  | .global =>
    match s.global with
    | some policies => some (s.setBuild id (.nspace policies))
    | none => some (s.setBuild id .readGlobal)
  | .readGlobal =>
    if listed.Perm (globalPolicies config.service s.store) then
      some (s.setBuild id (.storeGlobal (extractPolicies listed)))
    else none
  | .storeGlobal policies =>
    some ({ s with global := some policies }.setBuild id (.nspace policies))
  | .nspace global =>
    match s.nspaces.lookup id.nspace with
    | some policies => some (s.setBuild id (.client global policies))
    | none => some (s.setBuild id (.readNamespace global))
  | .readNamespace global =>
    if listed.Perm (namespacePolicies id.nspace s.store) then
      some (s.setBuild id (.storeNamespace global (extractPolicies listed)))
    else none
  | .storeNamespace global policies =>
    some ({ s with nspaces := s.nspaces.insert id.nspace policies }.setBuild id
      (.client global policies))
  | .client global nspace =>
    match clientPolicies id s.store with
    | none => some (s.finish id .failed)
    | some client => some (s.setBuild id (.etag (gather global nspace client)))
  | .etag policies =>
    some ({ s with etags := s.etags.insert id (config.contentHash policies) }.setBuild id
      (.bundle policies))
  | .bundle policies =>
    match config.build policies with
    | none => some (s.finish id .failed)
    | some data =>
      if maxBundleSize < data.length then some (s.finish id .failed)
      else
        let etag := config.contentHash policies
        some ({ s with bundles := s.bundles.insert id (data, etag) }.finish id
          (.bundle data etag))

def step (config : ServiceConfig) : ServiceAction → Option Service
  | .apply o => some (s.event (s.store.insert o.key o.spec) o)
  | .delete key => (s.store.lookup key).map fun spec => s.event (s.store.erase key) ⟨key, spec⟩
  | .redeliver key => (s.store.lookup key).map fun spec => s.event s.store ⟨key, spec⟩
  | .notify =>
    match s.handling, s.pending with
    | [], o :: rest =>
      some { s with handling := invalidate config.service o, pending := rest }
    | _, _ => none
  | .handle =>
    match s.handling with
    | [] => none
    | op :: rest => some { s.handleOp op with handling := rest }
  | .expire id => some { s with bundles := s.bundles.erase id }
  | .getBundle id ifNoneMatch =>
    some { s with calls := s.calls ++ [⟨id, ifNoneMatch, .begun, s.quiet⟩] }
  | .call i =>
    match s.calls[i]? with
    | none => none
    | some c =>
      (s.stepCall c).map fun (s, state) => { s with calls := s.calls.set i { c with state := state } }
  | .build id listed =>
    match s.builds.lookup id with
    | none => none
    | some b => s.stepBuild config id listed b
  | .cancel id =>
    match s.builds.lookup id with
    | some .acquire => some (s.finish id .cancelled)
    | _ => none

end Service

/-- The service under any interleaving of events, handler and calls. -/
def serviceSystem (config : ServiceConfig) : System Service ServiceAction where
  init := .init
  step s := s.step config

end Kagenti.Operator.BundleService
