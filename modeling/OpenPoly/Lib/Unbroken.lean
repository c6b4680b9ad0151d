import Mathlib.Data.Finset.Card
import Mathlib.Data.Finset.Max
import Mathlib.Data.List.TakeWhile

/-! Observations in a row, each with a stamp: how many distinct ones the unbroken
run of good observations at the head of a list has, and when a counter kept
beside the list is backed by them. The newest observation comes first. -/

namespace Unbroken

variable {α K : Type*} [LinearOrder K] (good : α → Bool) (stamp : α → Option K)

def stamps (l : List α) : Finset K := ((l.takeWhile good).filterMap stamp).toFinset

/-- A counter and the stamp it counted last: where it is positive, the run has as
many distinct stamps up to that one. -/
def Backs (l : List α) (n : ℕ) (last : Option K) : Prop :=
  0 < n → ∃ k, last = some k ∧ k ∈ stamps good stamp l ∧
    n ≤ ((stamps good stamp l).filter (· ≤ k)).card

variable {good stamp} {l : List α} {a : α} {n : ℕ} {last : Option K} {k k' : K}

theorem stamps_cons (ha : good a = true) (hk : stamp a = some k) :
    stamps good stamp (a :: l) = insert k (stamps good stamp l) := by
  simp [stamps, List.takeWhile_cons_of_pos ha, hk]

theorem mem_stamps (h : k ∈ stamps good stamp l) : k ∈ l.filterMap stamp := by
  unfold stamps at h
  rw [List.mem_toFinset] at h
  exact ((List.takeWhile_sublist good).filterMap stamp).subset h

theorem backs_zero (l : List α) (last : Option K) : Backs good stamp l 0 last :=
  fun h => absurd h (lt_irrefl 0)

/-- A good observation that is not counted leaves the counter backed. -/
theorem Backs.extend (h : Backs good stamp l n last) (ha : good a = true) (hk : stamp a = some k) :
    Backs good stamp (a :: l) n last := by
  intro hn
  obtain ⟨j, hlast, hmem, hle⟩ := h hn
  rw [stamps_cons ha hk]
  refine ⟨j, hlast, Finset.mem_insert_of_mem hmem, hle.trans (Finset.card_le_card ?_)⟩
  exact Finset.filter_subset_filter _ (Finset.subset_insert _ _)

/-- A good observation with a later stamp than the last counted one counts. -/
theorem Backs.count (h : Backs good stamp l n last) (ha : good a = true) (hk : stamp a = some k)
    (hlater : 0 < n → ∀ j, last = some j → j < k) : Backs good stamp (a :: l) (n + 1) (some k) := by
  intro _
  rw [stamps_cons ha hk]
  refine ⟨k, rfl, Finset.mem_insert_self _ _, ?_⟩
  rcases Nat.eq_zero_or_pos n with rfl | hn
  · exact Finset.card_pos.mpr ⟨k, by simp⟩
  obtain ⟨j, hlast, hmem, hle⟩ := h hn
  have hjk := hlater hn j hlast
  have hnot : k ∉ (stamps good stamp l).filter (· ≤ j) := by
    simp [hjk]
  calc n + 1 ≤ ((stamps good stamp l).filter (· ≤ j)).card + 1 := Nat.succ_le_succ hle
    _ = (insert k ((stamps good stamp l).filter (· ≤ j))).card := (Finset.card_insert_of_notMem hnot).symm
    _ ≤ _ := Finset.card_le_card ?_
  intro i hi
  rcases Finset.mem_insert.mp hi with rfl | hi
  · simp
  · obtain ⟨hi, hij⟩ := Finset.mem_filter.mp hi
    exact Finset.mem_filter.mpr ⟨Finset.mem_insert_of_mem hi, hij.trans hjk.le⟩

/-- The counter, less one where the last counted stamp is the one at hand, is
backed by stamps strictly before it. -/
theorem Backs.older (h : Backs good stamp l n last) (hlast : ∀ j, last = some j → 0 < n → j ≤ k) :
    (if last = some k ∧ 0 < n then n - 1 else n) ≤
      ((stamps good stamp l).filter (· < k)).card := by
  rcases Nat.eq_zero_or_pos n with rfl | hn
  · simp
  obtain ⟨j, rfl, hmem, hle⟩ := h hn
  have hjk := hlast j rfl hn
  split_ifs with heq
  · obtain rfl : j = k := Option.some.inj heq.1
    have hsplit : (stamps good stamp l).filter (· ≤ j) ⊆
        insert j ((stamps good stamp l).filter (· < j)) := by
      intro i hi
      obtain ⟨hi, hij⟩ := Finset.mem_filter.mp hi
      rcases hij.eq_or_lt with rfl | hlt
      · exact Finset.mem_insert_self _ _
      · exact Finset.mem_insert_of_mem (Finset.mem_filter.mpr ⟨hi, hlt⟩)
    have hcard := (Finset.card_le_card hsplit).trans (Finset.card_insert_le _ _)
    omega
  · have hlt : j < k := by
      refine lt_of_le_of_ne hjk fun hne => heq ⟨by rw [hne], hn⟩
    refine hle.trans (Finset.card_le_card fun i hi => ?_)
    obtain ⟨hi, hij⟩ := Finset.mem_filter.mp hi
    exact Finset.mem_filter.mpr ⟨hi, hij.trans_lt hlt⟩

end Unbroken
