import Mathlib.Data.List.Induction
import Mathlib.Data.List.Nodup

/-! Items gathered by their keys in one pass: a dictionary whose entry is made at the first
item of its key, and added to at each. -/

namespace Grouped

universe u

variable {κ τ : Type u} {α : Type*} [DecidableEq κ]

/-- The entry of `k`, made from `zero` where there is none, after `f`. -/
def upsert (zero : τ) (f : τ → τ) (k : κ) : List (κ × τ) → List (κ × τ)
  | [] => [(k, f zero)]
  | (k', t) :: rest => if k' = k then (k', f t) :: rest else (k', t) :: upsert zero f k rest

def get? (d : List (κ × τ)) (k : κ) : Option τ := (d.find? fun e => e.1 = k).map Prod.snd

variable {zero : τ} {f : τ → τ} {k k' : κ} {d : List (κ × τ)}

theorem get?_cons (e : κ × τ) : get? (e :: d) k = if e.1 = k then some e.2 else get? d k := by
  unfold get?
  rw [List.find?_cons]
  by_cases h : e.1 = k
  · simp [h]
  · simp [h]

theorem get?_of_mem {t : τ} (hnodup : (d.map Prod.fst).Nodup) (h : (k, t) ∈ d) : get? d k = some t := by
  induction d with
  | nil => cases h
  | cons e d ih =>
    rw [List.map_cons, List.nodup_cons] at hnodup
    rw [get?_cons]
    rcases List.mem_cons.mp h with rfl | h
    · exact if_pos rfl
    · have hne : e.1 ≠ k := fun heq => hnodup.1 (heq ▸ List.mem_map_of_mem h)
      rw [if_neg hne]
      exact ih hnodup.2 h

theorem get?_upsert_self : get? (upsert zero f k d) k = some (f ((get? d k).getD zero)) := by
  induction d with
  | nil => simp [upsert, get?]
  | cons e d ih =>
    unfold upsert
    split_ifs with h
    · simp [get?_cons, h]
    · rw [get?_cons, if_neg h, ih, get?_cons, if_neg h]

theorem get?_upsert_ne (h : k' ≠ k) : get? (upsert zero f k d) k' = get? d k' := by
  induction d with
  | nil => simp [upsert, get?, h.symm]
  | cons e d ih =>
    unfold upsert
    split_ifs with he
    · have hne : e.1 ≠ k' := fun heq => h (heq.symm.trans he)
      simp [get?_cons, hne]
    · rw [get?_cons, get?_cons, ih]

theorem keys_upsert : (upsert zero f k d).map Prod.fst =
    if k ∈ d.map Prod.fst then d.map Prod.fst else d.map Prod.fst ++ [k] := by
  induction d with
  | nil => simp [upsert]
  | cons e d ih =>
    unfold upsert
    by_cases he : e.1 = k
    · simp [he]
    · rw [if_neg he, List.map_cons, ih]
      by_cases hk : k ∈ d.map Prod.fst
      · have hmem : k ∈ (e :: d).map Prod.fst := List.mem_cons_of_mem _ hk
        rw [if_pos hk, if_pos hmem, List.map_cons]
      · have hnot : k ∉ (e :: d).map Prod.fst := by
          rw [List.map_cons, List.mem_cons]
          exact fun h => h.elim (fun heq => he heq.symm) hk
        rw [if_neg hk, if_neg hnot, List.map_cons, List.cons_append]

theorem get?_map {σ : Type u} (g : τ → σ) : get? (d.map fun e => (e.1, g e.2)) k = (get? d k).map g := by
  unfold get?
  rw [List.find?_map, Option.map_map, Option.map_map]
  rfl

variable (zero : τ) (add : τ → α → τ) (key : α → κ)

def group (xs : List α) : List (κ × τ) :=
  xs.foldl (fun d a => upsert zero (fun t => add t a) (key a) d) []

/-- The same, where what an item adds is computed first, and may fail. -/
def groupM {ε : Type*} {β : Type u} (zero : τ) (add : τ → β → τ) (key : α → κ) (f : α → Except ε β) (xs : List α) :
    Except ε (List (κ × τ)) :=
  xs.foldlM (fun d a => do
    let b ← f a
    pure (upsert zero (fun t => add t b) (key a) d)) []

variable {zero add key}

/-- A key has an entry if an item has it, and the entry is what its own items alone make of
it, in their order. -/
theorem get?_group (xs : List α) (k : κ) :
    get? (group zero add key xs) k =
      if xs.filter (fun a => key a = k) = [] then none
      else some ((xs.filter fun a => key a = k).foldl add zero) := by
  induction xs using List.reverseRecOn with
  | nil => simp [group, get?]
  | append_singleton xs a ih =>
    have hsnoc : group zero add key (xs ++ [a]) = upsert zero (fun t => add t a) (key a) (group zero add key xs) := by
      unfold group
      rw [List.foldl_append]
      rfl
    rw [hsnoc, List.filter_append]
    by_cases hk : key a = k
    · subst hk
      have hself : [a].filter (fun b => key b = key a) = [a] := by simp
      rw [get?_upsert_self, hself, if_neg (by simp), List.foldl_append, ih]
      by_cases hnil : xs.filter (fun b => key b = key a) = []
      · rw [if_pos hnil, hnil]
        rfl
      · rw [if_neg hnil]
        rfl
    · have hnone : [a].filter (fun b => key b = k) = [] := by simp [hk]
      rw [get?_upsert_ne (Ne.symm hk), hnone, List.append_nil, ih]

/-- No key has two entries. -/
theorem nodup_group (xs : List α) : ((group zero add key xs).map Prod.fst).Nodup := by
  induction xs using List.reverseRecOn with
  | nil => exact List.nodup_nil
  | append_singleton xs a ih =>
    have hsnoc : group zero add key (xs ++ [a]) = upsert zero (fun t => add t a) (key a) (group zero add key xs) := by
      unfold group
      rw [List.foldl_append]
      rfl
    rw [hsnoc, keys_upsert]
    split_ifs with h
    · exact ih
    · exact List.nodup_append.mpr ⟨ih, List.nodup_singleton _, fun x hx y hy heq =>
        h (by rw [List.mem_singleton] at hy; rw [← hy, ← heq]; exact hx)⟩

/-- Without a failure the pass is that over the results. -/
theorem groupM_ok {ε : Type*} {β : Type u} {add : τ → β → τ} {f : α → Except ε β} {xs : List α} {d : List (κ × τ)}
    (h : groupM zero add key f xs = .ok d) :
    ∃ bs : List (α × β), bs.map Prod.fst = xs ∧ (∀ ab ∈ bs, f ab.1 = .ok ab.2) ∧
      d = group zero (fun t ab => add t ab.2) (fun ab => key ab.1) bs := by
  induction xs using List.reverseRecOn generalizing d with
  | nil =>
    cases h
    exact ⟨[], rfl, List.forall_mem_nil _, rfl⟩
  | append_singleton xs a ih =>
    unfold groupM at h
    rw [List.foldlM_append] at h
    cases hxs : groupM zero add key f xs with
    | error e =>
      unfold groupM at hxs
      rw [hxs] at h
      cases h
    | ok d' =>
      obtain ⟨bs, hbs, hok, hd'⟩ := ih hxs
      unfold groupM at hxs
      rw [hxs] at h
      cases hf : f a with
      | error e =>
        simp only [List.foldlM_cons, hf] at h
        cases h
      | ok b =>
        simp only [List.foldlM_cons, hf] at h
        cases h
        refine ⟨bs ++ [(a, b)], ?_, ?_, ?_⟩
        · rw [List.map_append, hbs]
          rfl
        · intro ab hab
          rcases List.mem_append.mp hab with hab | hab
          · exact hok ab hab
          · cases List.mem_singleton.mp hab
            exact hf
        · rw [hd', group, group, List.foldl_append]
          rfl

end Grouped
