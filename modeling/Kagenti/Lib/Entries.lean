import Mathlib.Data.List.AList

/-!
Lookups in an association list after an insertion or a deletion.
-/

namespace Kagenti.Lib.Entries

variable {α β : Type*} [DecidableEq α] {m : AList fun _ : α => β}

theorem lookup_insert (m : AList fun _ : α => β) (k a : α) (v : β) :
    (m.insert k v).lookup a = if a = k then some v else m.lookup a := by
  split
  · subst a
    exact AList.lookup_insert m
  · exact AList.lookup_insert_ne ‹_›

theorem lookup_erase (m : AList fun _ : α => β) (k a : α) :
    (m.erase k).lookup a = if a = k then none else m.lookup a := by
  split
  · subst a
    exact AList.lookup_erase k m
  · exact AList.lookup_erase_ne ‹_›

variable {k : α} {a : α} {b : β}

theorem lookup_erase_eq_some : (m.erase k).lookup a = some b ↔ a ≠ k ∧ m.lookup a = some b := by
  rw [lookup_erase, Option.ite_none_left_eq_some]

theorem lookup_of_erase (h : (m.erase k).lookup a = some b) : m.lookup a = some b :=
  (lookup_erase_eq_some.mp h).2

theorem length_keys_insert_le (m : AList fun _ : α => β) (k : α) (v : β) :
    (m.insert k v).keys.length ≤ m.keys.length + 1 := by
  rw [AList.keys_insert, List.length_cons]
  exact Nat.succ_le_succ List.length_erase_le

theorem length_keys_insert_of_notMem (v : β) (h : k ∉ m) :
    (m.insert k v).keys.length = m.keys.length + 1 := by
  rw [AList.keys_insert, List.erase_of_not_mem fun member => h (AList.mem_keys.mpr member),
    List.length_cons]

theorem length_keys_erase_of_mem (h : k ∈ m) : (m.erase k).keys.length = m.keys.length - 1 := by
  rw [AList.keys_erase, List.length_erase_of_mem (AList.mem_keys.mp h)]

theorem mem_of_lookup (h : m.lookup a = some b) : a ∈ m :=
  AList.lookup_isSome.mp (h ▸ rfl)

theorem exists_lookup (h : a ∈ m) : ∃ b, m.lookup a = some b :=
  Option.isSome_iff_exists.mp (AList.lookup_isSome.mpr h)

def Forall (P : α → β → Prop) (m : AList fun _ : α => β) : Prop :=
  ∀ a b, m.lookup a = some b → P a b

namespace Forall

variable {P : α → β → Prop}

theorem empty : Forall P ∅ := by
  intro a b found
  simp at found

theorem insert {v : β} (h : Forall P m) (new : P k v) : Forall P (m.insert k v) := by
  intro a b found
  rw [lookup_insert] at found
  split at found
  · subst a
    exact Option.some.inj found ▸ new
  · exact h a b found

theorem erase (k : α) (h : Forall P m) : Forall P (m.erase k) :=
  fun a b found => h a b (lookup_of_erase found)

end Forall

end Kagenti.Lib.Entries
