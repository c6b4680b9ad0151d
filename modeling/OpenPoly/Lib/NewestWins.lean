import Mathlib.Data.List.Basic
import Mathlib.Order.Lattice

/-! A register whose stored values and burials carry stamps: a value is stored
only where it is no older than the one held and newer than the burial, and may be
dropped once the floor has passed it. The floor bounds from below every stamp
still to be stored. -/

namespace NewestWins

variable {K : Type*} [LinearOrder K]

/-- The stamp of the value held and of the burial mark. -/
@[ext] structure Register (K : Type*) where
  held : Option K
  buried : Option K

inductive Entry (K : Type*) where
  | stored (stamp : K)
  | buried (stamp : K)

def Entry.stamp : Entry K → K
  | .stored stamp => stamp
  | .buried stamp => stamp

/-- What an earlier entry demands of a later one: a store follows stores no newer
and burials older than it. -/
def Entry.Precedes : Entry K → Entry K → Prop
  | .stored a, .stored b => a ≤ b
  | .buried g, .stored b => g < b
  | _, .buried _ => True

/-- The register still answers for an entry: by the floor, by its value, or by
its mark. -/
def Register.Recalls (r : Register K) (floor : K) : Entry K → Prop
  | .stored a => a ≤ floor ∨ (∃ c ∈ r.held, a ≤ c) ∨ ∃ g ∈ r.buried, a ≤ g
  | .buried g => g < floor ∨ (∃ c ∈ r.held, g < c) ∨ ∃ g' ∈ r.buried, g ≤ g'

structure Inv (r : Register K) (floor : K) (history : List (Entry K)) : Prop where
  exclusive : r.buried ≠ none → r.held = none
  recalls : ∀ e ∈ history, r.Recalls floor e
  fresh : ∀ c ∈ r.held, ∀ g, Entry.buried g ∈ history → g < c
  ordered : history.Pairwise Entry.Precedes

variable {r : Register K} {floor stamp : K} {history : List (Entry K)}

theorem inv_empty (floor : K) : Inv (⟨none, none⟩ : Register K) floor [] := by
  constructor <;> simp

theorem Inv.raise (h : Inv r floor history) {floor' : K} (hle : floor ≤ floor') :
    Inv r floor' history where
  exclusive := h.exclusive
  recalls e he := by
    cases e with
    | stored a => exact (h.recalls _ he).imp_left fun ha => ha.trans hle
    | buried g => exact (h.recalls _ he).imp_left fun hg => hg.trans_le hle
  fresh := h.fresh
  ordered := h.ordered

/-- A recalled entry may stand before a store that the register accepts. -/
theorem Register.Recalls.precedes {e : Entry K} (h : r.Recalls floor e) (hfloor : floor ≤ stamp)
    (hheld : ∀ c ∈ r.held, c ≤ stamp) (hburied : ∀ g ∈ r.buried, g < stamp) :
    e.Precedes (.stored stamp) := by
  cases e with
  | stored a =>
    rcases h with ha | ⟨c, hc, ha⟩ | ⟨g, hg, ha⟩
    · exact ha.trans hfloor
    · exact ha.trans (hheld c hc)
    · exact ha.trans (hburied g hg).le
  | buried g =>
    rcases h with hg | ⟨c, hc, hg⟩ | ⟨g', hg', hle⟩
    · exact hg.trans_le hfloor
    · exact hg.trans_le (hheld c hc)
    · exact hle.trans_lt (hburied g' hg')

/-- Storing what is no older than the value held and newer than the mark. -/
theorem Inv.store (h : Inv r floor history) (hfloor : floor ≤ stamp)
    (hheld : ∀ c ∈ r.held, c ≤ stamp) (hburied : ∀ g ∈ r.buried, g < stamp) :
    Inv ⟨some stamp, none⟩ floor (history ++ [.stored stamp]) := by
  have hprec : ∀ e ∈ history, e.Precedes (.stored stamp) := fun e he =>
    (h.recalls e he).precedes hfloor hheld hburied
  constructor
  · simp
  · intro e he
    rcases List.mem_append.mp he with he | he
    · have := hprec e he
      cases e with
      | stored a => exact .inr (.inl ⟨stamp, rfl, this⟩)
      | buried g => exact .inr (.inl ⟨stamp, rfl, this⟩)
    · rw [List.mem_singleton.mp he]
      exact .inr (.inl ⟨stamp, rfl, le_rfl⟩)
  · rintro c hc g hg
    obtain rfl : stamp = c := Option.some.inj hc
    rcases List.mem_append.mp hg with hg | hg
    · exact hprec _ hg
    · cases List.mem_singleton.mp hg
  · refine List.pairwise_append.mpr ⟨h.ordered, List.pairwise_singleton _ _, fun e he e' he' => ?_⟩
    rw [List.mem_singleton.mp he']
    exact hprec e he

/-- A burial no earlier than anything so far evicts the value. -/
theorem Inv.bury (h : Inv r floor history) (hle : ∀ e ∈ history, e.stamp ≤ stamp) :
    Inv ⟨none, some stamp⟩ floor (history ++ [.buried stamp]) := by
  constructor
  · simp
  · intro e he
    rcases List.mem_append.mp he with he | he
    · cases e with
      | stored a => exact .inr (.inr ⟨stamp, rfl, hle _ he⟩)
      | buried g => exact .inr (.inr ⟨stamp, rfl, hle _ he⟩)
    · rw [List.mem_singleton.mp he]
      exact .inr (.inr ⟨stamp, rfl, le_rfl⟩)
  · rintro c hc
    cases hc
  · refine List.pairwise_append.mpr ⟨h.ordered, List.pairwise_singleton _ _, fun e he e' he' => ?_⟩
    rw [List.mem_singleton.mp he']
    cases e <;> trivial

/-- A value the floor has reached may be dropped. -/
theorem Inv.drop (h : Inv r floor history) (hle : ∀ c ∈ r.held, c ≤ floor) :
    Inv ⟨none, r.buried⟩ floor history := by
  constructor
  · simp
  · intro e he
    cases e with
    | stored a =>
      rcases h.recalls _ he with ha | ⟨c, hc, ha⟩ | hg
      · exact .inl ha
      · exact .inl (ha.trans (hle c hc))
      · exact .inr (.inr hg)
    | buried g =>
      rcases h.recalls _ he with hg | ⟨c, hc, hg⟩ | hg
      · exact .inl hg
      · exact .inl (hg.trans_le (hle c hc))
      · exact .inr (.inr hg)
  · rintro c hc
    cases hc
  · exact h.ordered

end NewestWins
