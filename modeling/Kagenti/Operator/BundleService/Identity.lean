import Kagenti.Go.Utf8
import Kagenti.Operator.BundleService.Service

/-!
The client of a request: `spiffeid.Parse`, and `FromRequest` and `CacheKey` of
`bundleservice/identity`. The quoting of texts in errors is a parameter.
-/

namespace Kagenti.Operator.BundleService

open Go

structure Identity where
  trustDomain : String
  nspace : String
  name : String
  deriving DecidableEq

/-- `spiffeid.Parse` of a text that should read trust-domain/ns/namespace/sa/name. -/
def parse (quote : String → String) (raw : String) : Except String Identity :=
  let trustDomain := raw.toList.takeWhile (· ≠ '/')
  if '/' ∉ raw.toList then .error ("SPIFFE ID missing path: " ++ quote raw)
  else if trustDomain = [] then .error ("SPIFFE ID has empty trust domain: " ++ quote raw)
  else
    let path := raw.toList.drop (trustDomain.length + 1)
    let wrongPath := .error ("SPIFFE ID path must be ns/\x7bnamespace\x7d/sa/\x7bname\x7d, got " ++
      quote (String.ofList path))
    match path.splitOn '/' with
    | [ns, nspace, sa, name] =>
      if ns ≠ "ns".toList ∨ sa ≠ "sa".toList then wrongPath
      else if nspace = [] ∨ name = [] then
        .error ("SPIFFE ID has empty namespace or name: " ++ quote raw)
      else .ok ⟨String.ofList trustDomain, String.ofList nspace, String.ofList name⟩
    | _ => wrongPath

/-- `FromRequest`, with the value of the query parameter `spiffe`. -/
def fromRequest (quote : String → String) (spiffe : String) : Except String ObjectKey :=
  if spiffe = "" then .error "missing client identity query parameter"
  else (parse quote spiffe).map fun id => ⟨id.nspace, id.name⟩

/-- The key of a client in the caches and in the group of builds. -/
def cacheKey (id : ObjectKey) : String := id.nspace ++ "/" ++ id.name

theorem separator_notMem_splitOn {α : Type*} [DecidableEq α] (separator : α) (l : List α) :
    ∀ part ∈ l.splitOn separator, separator ∉ part := by
  induction l with
  | nil => simp
  | cons a l ih =>
    rw [List.splitOn_cons_eq_if_modifyHead]
    split
    · exact List.forall_mem_cons.mpr ⟨List.not_mem_nil, ih⟩
    next other =>
      cases split : l.splitOn separator with
      | nil => exact absurd split (List.splitOn_ne_nil _ _)
      | cons first parts =>
        rw [split, List.forall_mem_cons] at ih
        refine List.forall_mem_cons.mpr ⟨?_, ih.2⟩
        rw [List.mem_cons, not_or]
        exact ⟨fun same => other (by simp [same]), ih.1⟩

variable {quote : String → String} {raw raw' : String} {id id' : ObjectKey}

theorem slash_notMem_nspace (h : fromRequest quote raw = .ok id) : '/' ∉ id.nspace.toList := by
  unfold fromRequest at h
  split at h
  · cases h
  cases parsed : parse quote raw with
  | error e => simp [parsed, Except.map] at h
  | ok identity =>
    rw [parsed] at h
    cases h
    unfold parse at parsed
    dsimp only at parsed
    split at parsed
    · cases parsed
    split at parsed
    · cases parsed
    split at parsed
    next split =>
      split at parsed
      · cases parsed
      split at parsed
      · cases parsed
      cases parsed
      rw [String.toList_ofList]
      exact separator_notMem_splitOn _ _ _ (by rw [split]; simp)
    · cases parsed

/-- No two clients that requests can name share a key. -/
theorem cacheKey_inj (h : fromRequest quote raw = .ok id) (h' : fromRequest quote raw' = .ok id') :
    cacheKey id = cacheKey id' ↔ id = id' := by
  refine ⟨fun same => ?_, fun same => by rw [same]⟩
  have chars := congrArg String.toList same
  have slash : "/".toList = ['/'] := by decide
  simp only [cacheKey, String.toList_append, List.append_assoc, slash, List.singleton_append] at chars
  obtain ⟨nspace, name⟩ :=
    append_separator_inj (slash_notMem_nspace h) (slash_notMem_nspace h') chars
  exact congrArg₂ ObjectKey.mk (String.toList_injective nspace) (String.toList_injective name)

end Kagenti.Operator.BundleService
