import Mathlib.Data.List.Sort

/-! The first page of a list sorted by descending key: what is on it, and that it
holds, with an element, everything of a larger key. -/

namespace Page

variable {α K : Type*} [LinearOrder K] {key : α → K} {l : List α} {n : ℕ} {a b : α}

/-- The `n` of the largest keys. -/
def newest (key : α → K) (l : List α) (n : ℕ) : List α :=
  (l.insertionSort fun a b => key b ≤ key a).take n

/-- In a list of strictly descending keys the first `n` are those with fewer than
`n` before them. -/
theorem mem_take_iff (h : l.Pairwise fun a b => key b < key a) :
    a ∈ l.take n ↔ a ∈ l ∧ l.countP (fun b => key a < key b) < n := by
  induction l generalizing n with
  | nil => simp
  | cons b l ih =>
    obtain ⟨hb, hl⟩ := List.pairwise_cons.mp h
    cases n with
    | zero => simp
    | succ n =>
      rw [List.take_succ_cons, List.mem_cons, List.mem_cons, ih hl, List.countP_cons]
      constructor
      · rintro (rfl | ⟨hmem, hcount⟩)
        · have hnone : l.countP (fun b => key a < key b) = 0 := by
            rw [List.countP_eq_zero]
            intro c hc
            simpa using (hb c hc).le
          simp [hnone]
        · have hle : (if key a < key b then 1 else 0) ≤ 1 := by split_ifs <;> omega
          refine ⟨.inr hmem, ?_⟩
          simp only [decide_eq_true_eq]
          omega
      · rintro ⟨rfl | hmem, hcount⟩
        · exact .inl rfl
        · rw [if_pos (by simpa using hb a hmem)] at hcount
          exact .inr ⟨hmem, by omega⟩

theorem pairwise_sorted (h : (l.map key).Nodup) :
    (l.insertionSort fun a b => key b ≤ key a).Pairwise fun a b => key b < key a := by
  have : Std.Total fun a b : α => key b ≤ key a := ⟨fun a b => le_total _ _⟩
  have : IsTrans α fun a b => key b ≤ key a := ⟨fun a b c h1 h2 => h2.trans h1⟩
  have hsorted := List.pairwise_insertionSort (fun a b : α => key b ≤ key a) l
  have hnodup : ((l.insertionSort fun a b => key b ≤ key a).map key).Nodup :=
    ((List.perm_insertionSort _ l).map key).nodup_iff.mpr h
  exact hsorted.imp₂ (fun a b hle hne => lt_of_le_of_ne hle hne.symm) (List.pairwise_map.mp hnodup)

/-- An element is on the page where fewer than `n` have a larger key. -/
theorem mem_newest_iff (h : (l.map key).Nodup) :
    a ∈ newest key l n ↔ a ∈ l ∧ l.countP (fun b => key a < key b) < n := by
  unfold newest
  rw [mem_take_iff (pairwise_sorted h), List.mem_insertionSort,
    (List.perm_insertionSort _ l).countP_eq]

theorem pairwise_newest (h : (l.map key).Nodup) (n : ℕ) :
    (newest key l n).Pairwise fun a b => key b < key a :=
  (pairwise_sorted h).sublist (List.take_sublist n _)

/-- What is found first on the page has the largest key of all it holds of. -/
theorem find?_newest (h : (l.map key).Nodup) {p : α → Bool}
    (hfind : (newest key l n).find? p = some a) :
    a ∈ newest key l n ∧ p a = true ∧ ∀ b ∈ newest key l n, p b = true → key b ≤ key a := by
  obtain ⟨hp, pre, post, hsplit, hpre⟩ := List.find?_eq_some_iff_append.mp hfind
  have hpair := pairwise_newest h n
  rw [hsplit] at hpair ⊢
  refine ⟨by simp, hp, fun b hb hpb => ?_⟩
  rcases List.mem_append.mp hb with hb | hb
  · have hno := hpre b hb
    simp [hpb] at hno
  · rcases List.mem_cons.mp hb with rfl | hb
    · exact le_rfl
    · exact ((List.pairwise_cons.mp (List.pairwise_append.mp hpair).2.1).1 b hb).le

end Page
