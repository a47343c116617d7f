import Kagenti.Go.MarshalText

/-!
`map[string]string`. Two maps are the same map when they agree at every key.
-/

namespace Kagenti.Go

abbrev StringMap := AList fun _ : String => String

namespace StringMap

/-- `m[key]`, the empty string for a key that is not there. -/
def value (m : StringMap) (key : String) : String := (m.lookup key).getD ""

def Agrees (m m' : StringMap) : Prop := ∀ key, m.lookup key = m'.lookup key

theorem Agrees.refl (m : StringMap) : m.Agrees m := fun _ => rfl

/-- Assigns the entries of `src` to `dst` one after the other. -/
def copyInto (dst src : StringMap) : StringMap :=
  src.entries.foldl (fun m e => m.insert e.1 e.2) dst

private theorem lookup_foldl_insert (es : List (Sigma fun _ : String => String)) (dst : StringMap)
    (hkeys : es.NodupKeys) (key : String) :
    (es.foldl (fun m e => m.insert e.1 e.2) dst).lookup key =
      (es.dlookup key).or (dst.lookup key) := by
  induction es generalizing dst with
  | nil => rfl
  | cons e es ih =>
    rw [List.nodupKeys_cons] at hkeys
    rw [List.foldl_cons, ih _ hkeys.2]
    by_cases hkey : key = e.1
    · subst hkey
      rw [List.dlookup_cons_eq, List.dlookup_eq_none.mpr hkeys.1, AList.lookup_insert]
      rfl
    · rw [List.dlookup_cons_ne _ _ hkey, AList.lookup_insert_ne hkey]

theorem lookup_copyInto (dst src : StringMap) (key : String) :
    (dst.copyInto src).lookup key = (src.lookup key).or (dst.lookup key) :=
  lookup_foldl_insert src.entries dst src.nodupKeys key

/-- The entries in the order in which `json.Marshal` writes them. -/
def sorted (m : StringMap) : List (String × String) :=
  sortMembers (m.entries.map fun e => (e.1, e.2))

theorem lastMember_entries (m : StringMap) (key : String) :
    lastMember (m.entries.map fun e => (e.1, e.2)) key = m.lookup key := by
  have hkeys : ((m.entries.map fun e => (e.1, e.2)).map Prod.fst).Nodup := by
    rw [List.map_map]
    exact m.nodupKeys
  refine Option.ext fun value => ?_
  constructor
  · intro hlast
    obtain ⟨e, he, heq⟩ := List.mem_map.mp (mem_of_lastMember hlast)
    cases heq
    exact AList.mem_lookup_iff.mpr he
  · intro hlookup
    exact lastMember_of_mem hkeys (List.mem_map.mpr ⟨_, AList.mem_lookup_iff.mp hlookup, rfl⟩)

variable {m m' : StringMap}

theorem sorted_eq_iff : m.sorted = m'.sorted ↔ m.Agrees m' := by
  simp only [sorted, sortMembers_eq_iff, lastMember_entries, Agrees]

def isEmpty (m : StringMap) : Bool := m.entries.isEmpty

theorem isEmpty_iff : m.isEmpty = true ↔ ∀ key, m.lookup key = none := by
  rw [isEmpty, List.isEmpty_iff]
  constructor
  · intro hnil key
    rw [AList.lookup, hnil]
    rfl
  · intro hnone
    refine List.eq_nil_iff_forall_not_mem.mpr fun e he => ?_
    have hsome := AList.mem_lookup_iff.mpr he
    rw [hnone] at hsome
    cases hsome

theorem Agrees.isEmpty_eq (h : m.Agrees m') : m.isEmpty = m'.isEmpty := by
  rw [Bool.eq_iff_iff, isEmpty_iff, isEmpty_iff]
  exact forall_congr' fun key => by rw [h key]

end StringMap

end Kagenti.Go
