import Mathlib.Data.List.Sort

/-! A stable sort of a list with one element more: where the element lands, and
which elements stand before it. -/

namespace StableSort

open List

variable {α : Type*} {r : α → α → Prop} [DecidableRel r]

/-- Where `p` holds of what stands before an element it holds of, the elements
with it are an initial segment. -/
theorem takeWhile_eq_filter_of_closed {p : α → Bool} {l : List α}
    (h : l.Pairwise fun b c => p c = true → p b = true) :
    l.takeWhile p = l.filter p ∧ l.dropWhile p = l.filter fun b => !p b := by
  induction l with
  | nil => exact ⟨rfl, rfl⟩
  | cons b l ih =>
    obtain ⟨hb, hl⟩ := pairwise_cons.mp h
    by_cases hp : p b = true
    · obtain ⟨ht, hd⟩ := ih hl
      simp [hp, ht, hd]
    · have hnone : l.filter p = [] := by
        rw [filter_eq_nil_iff]
        exact fun c hc hpc => hp (hb c hc hpc)
      have hself : l.filter (fun b => !p b) = l := by
        rw [filter_eq_self]
        intro c hc
        simpa using fun hpc => hp (hb c hc hpc)
      simp [hp, hnone, hself]

/-- In a sorted list what is not at or after `a` is an initial segment. -/
theorem takeWhile_eq_filter [IsTrans α r] {l : List α} (h : l.Pairwise r) (a : α) :
    l.takeWhile (fun b => !decide (r a b)) = l.filter (fun b => !decide (r a b)) ∧
      l.dropWhile (fun b => !decide (r a b)) = l.filter (fun b => r a b) := by
  have hclosed : l.Pairwise fun b c => (!decide (r a c)) = true → (!decide (r a b)) = true := by
    refine h.imp fun {b c} hbc hac => ?_
    simp only [Bool.not_eq_true', decide_eq_false_iff_not] at hac ⊢
    exact fun hab => hac (IsTrans.trans _ _ _ hab hbc)
  simpa using takeWhile_eq_filter_of_closed hclosed

/-- Inserting into a sorted list splits it at the element. -/
theorem orderedInsert_eq_filter [IsTrans α r] {l : List α} (h : l.Pairwise r) (a : α) :
    l.orderedInsert r a = l.filter (fun b => !decide (r a b)) ++ a :: l.filter (fun b => r a b) := by
  obtain ⟨ht, hd⟩ := takeWhile_eq_filter h a
  simp only [orderedInsert_eq_take_drop, decide_not, ht, hd]

/-- One element more in a list: it lands somewhere in the sorted rest. Before it
stand the elements listed earlier that may precede it, and those listed later
that must. -/
theorem insertionSort_split [Std.Total r] [IsTrans α r] (x : List α) (a : α) (y : List α) :
    ∃ s t, (x ++ a :: y).insertionSort r = s ++ a :: t ∧ (x ++ y).insertionSort r = s ++ t ∧
      ∀ b, b ∈ s ↔ (b ∈ x ∧ r b a) ∨ (b ∈ y ∧ ¬ r a b) := by
  induction x with
  | nil =>
    have hsorted := pairwise_insertionSort r y
    refine ⟨(y.insertionSort r).filter fun b => !decide (r a b), (y.insertionSort r).filter fun b => r a b,
      ?_, ?_, ?_⟩
    · rw [nil_append, insertionSort_cons, orderedInsert_eq_filter hsorted]
    · rw [nil_append, ← (takeWhile_eq_filter hsorted a).1, ← (takeWhile_eq_filter hsorted a).2,
        takeWhile_append_dropWhile]
    · simp
  | cons c x ih =>
    obtain ⟨s, t, hwith, hwithout, hmem⟩ := ih
    have hsorted := pairwise_insertionSort r (x ++ a :: y)
    have hrest := pairwise_insertionSort r (x ++ y)
    rw [cons_append, cons_append, insertionSort_cons, insertionSort_cons,
      orderedInsert_eq_filter hsorted, orderedInsert_eq_filter hrest, hwith, hwithout]
    rw [hwith] at hsorted
    obtain ⟨hs, hat, hsa⟩ := pairwise_append.mp hsorted
    by_cases hca : r c a
    · -- `c` goes among the elements before `a`, or right before it
      have htc : ∀ b ∈ t, r c b := fun b hb => IsTrans.trans _ _ _ hca ((pairwise_cons.mp hat).1 b hb)
      have hnone : t.filter (fun b => !decide (r c b)) = [] := by
        rw [filter_eq_nil_iff]
        intro b hb
        simpa using htc b hb
      have hself : t.filter (fun b => r c b) = t := by
        rw [filter_eq_self]
        intro b hb
        simpa using htc b hb
      refine ⟨s.filter (fun b => !decide (r c b)) ++ c :: s.filter fun b => r c b, t, ?_, ?_, fun b => ?_⟩
      · simp only [filter_append, filter_cons, hca, hnone, hself]
        simp
      · simp only [filter_append, hnone, hself]
        simp
      · have hsplit : b ∈ s.filter (fun b => !decide (r c b)) ++ c :: s.filter (fun b => r c b) ↔
            b = c ∨ b ∈ s := by
          by_cases hcb : r c b <;> simp [hcb]
          exact or_comm
        rw [hsplit, hmem, mem_cons]
        constructor
        · rintro (rfl | ⟨hb, hba⟩ | hb)
          · exact .inl ⟨.inl rfl, hca⟩
          · exact .inl ⟨.inr hb, hba⟩
          · exact .inr hb
        · rintro (⟨rfl | hb, hba⟩ | hb)
          · exact .inl rfl
          · exact .inr (.inl ⟨hb, hba⟩)
          · exact .inr (.inr hb)
    · -- `c` goes after `a`
      have hsc : ∀ b ∈ s, ¬ r c b := fun b hb hcb =>
        hca (IsTrans.trans _ _ _ hcb (hsa b hb a mem_cons_self))
      have hself : s.filter (fun b => !decide (r c b)) = s := by
        rw [filter_eq_self]
        intro b hb
        simpa using hsc b hb
      have hnone : s.filter (fun b => r c b) = [] := by
        rw [filter_eq_nil_iff]
        intro b hb
        simpa using hsc b hb
      refine ⟨s, t.filter (fun b => !decide (r c b)) ++ c :: t.filter fun b => r c b, ?_, ?_, fun b => ?_⟩
      · simp only [filter_append, filter_cons, hca, hnone, hself]
        simp
      · simp only [filter_append, hnone, hself]
        simp
      · rw [hmem, mem_cons]
        constructor
        · rintro (⟨hb, hba⟩ | hb)
          · exact .inl ⟨.inr hb, hba⟩
          · exact .inr hb
        · rintro (⟨rfl | hb, hba⟩ | hb)
          · exact (hca hba).elim
          · exact .inl ⟨hb, hba⟩
          · exact .inr hb

/-- Elements that may stand in either order keep the one they were listed in. -/
theorem filter_insertionSort [Std.Total r] [IsTrans α r] {p : α → Bool} {l : List α}
    (h : ∀ a b, p a = true → p b = true → r a b) : (l.insertionSort r).filter p = l.filter p := by
  have hsorted : (l.filter p).Pairwise r := pairwise_of_forall_mem_list fun a ha b hb =>
    h a b (mem_filter.mp ha).2 (mem_filter.mp hb).2
  have hsub : l.filter p <+ (l.insertionSort r).filter p := by
    simpa using (sublist_insertionSort hsorted filter_sublist).filter p
  exact (hsub.eq_of_length ((perm_insertionSort r l).filter p).length_eq.symm).symm

/-- A stable sort leaves the order of the list as the order of ties. -/
theorem pairwise_stable [Std.Total r] [IsTrans α r] {t : α → α → Prop} {l : List α}
    (h : l.Pairwise t) : (l.insertionSort r).Pairwise fun a b => r a b ∧ (r b a → t a b) := by
  induction l with
  | nil => exact .nil
  | cons c l ih =>
    obtain ⟨hc, hl⟩ := pairwise_cons.mp h
    have hrest := ih hl
    have hmem : ∀ b ∈ l.insertionSort r, t c b := fun b hb => hc b ((mem_insertionSort r).mp hb)
    rw [insertionSort_cons, orderedInsert_eq_filter (hrest.imp fun h => h.1), pairwise_append,
      pairwise_cons]
    refine ⟨hrest.filter _, ⟨fun b hb => ?_, hrest.filter _⟩, fun a ha b hb => ?_⟩
    · obtain ⟨hb, hcb⟩ := mem_filter.mp hb
      exact ⟨by simpa using hcb, fun _ => hmem b hb⟩
    · obtain ⟨-, hca⟩ := mem_filter.mp ha
      have hca : ¬ r c a := by simpa using hca
      have hac : r a c := (Std.Total.total a c).resolve_right hca
      rcases mem_cons.mp hb with rfl | hb
      · exact ⟨hac, fun h => absurd h hca⟩
      · have hcb : r c b := by simpa using (mem_filter.mp hb).2
        exact ⟨IsTrans.trans _ _ _ hac hcb, fun hba => absurd (IsTrans.trans _ _ _ hcb hba) hca⟩

end StableSort
