import Mathlib.Data.List.AList

/-! Dictionaries filled entry by entry, each key once: which entries they hold. -/

namespace Dictionary

variable {α β γ : Type*} [DecidableEq α]

def Holds (d : AList fun _ : α => β) (pairs : List (α × β)) : Prop :=
  ∀ k v, d.lookup k = some v ↔ (k, v) ∈ pairs

variable {d : AList fun _ : α => β} {pairs : List (α × β)}

theorem holds_empty : Holds (∅ : AList fun _ : α => β) [] := by
  intro k v
  simp

theorem Holds.insert (h : Holds d pairs) {k : α} (hk : k ∉ pairs.map Prod.fst) (v : β) :
    Holds (d.insert k v) (pairs ++ [(k, v)]) := by
  intro k' v'
  by_cases heq : k' = k
  · subst heq
    have hnone : (k', v') ∉ pairs := fun hmem => hk (List.mem_map_of_mem hmem)
    simp [AList.lookup_insert, hnone, eq_comm]
  · rw [AList.lookup_insert_ne heq, h k' v']
    simp [heq]

/-- Entries added one after another, of keys that are new. -/
theorem Holds.foldl_insert (key : γ → α) (val : γ → β) {xs : List γ} (h : Holds d pairs)
    (hkeys : (pairs.map Prod.fst ++ xs.map key).Nodup) :
    Holds (xs.foldl (fun d x => d.insert (key x) (val x)) d) (pairs ++ xs.map fun x => (key x, val x)) := by
  induction xs generalizing d pairs with
  | nil => simpa using h
  | cons x xs ih =>
    have hnew : key x ∉ pairs.map Prod.fst := by
      have hdisjoint := (List.nodup_append.mp hkeys).2.2
      exact fun hmem => hdisjoint _ hmem _ List.mem_cons_self rfl
    rw [List.foldl_cons, List.map_cons, List.append_cons]
    refine ih (h.insert hnew (val x)) ?_
    rw [List.map_append, List.append_assoc]
    exact hkeys

theorem Holds.mem_iff (h : Holds d pairs) {k : α} : k ∈ d ↔ k ∈ pairs.map Prod.fst := by
  rw [← AList.lookup_isSome, Option.isSome_iff_exists, List.mem_map]
  constructor
  · rintro ⟨v, hv⟩
    exact ⟨(k, v), (h k v).mp hv, rfl⟩
  · rintro ⟨⟨k', v⟩, hmem, rfl⟩
    exact ⟨v, (h k' v).mpr hmem⟩

end Dictionary
