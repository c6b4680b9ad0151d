import Mathlib.Data.List.Nodup
import Mathlib.Data.List.Basic

/-! A registry of claims: a set of keys kept beside the holders that claimed
them. Claiming only keys found absent, and releasing through the holder, keeps
one holder a key. -/

namespace Registry

variable {κ α : Type*} (key : α → κ)

/-- The registered keys are the keys of the holders, each held once. -/
structure Tracks (held : List κ) (holders : List α) : Prop where
  mem : ∀ k, k ∈ held ↔ ∃ c ∈ holders, key c = k
  nodup : (holders.map key).Nodup

def discard [DecidableEq κ] (k : κ) (held : List κ) : List κ := held.filter (· ≠ k)

variable {key} {held : List κ} {holders : List α} {c d : α} {k : κ}

theorem tracks_nil : Tracks key [] [] := ⟨by simp, by simp⟩

theorem Tracks.exclusive (h : Tracks key held holders) (hc : c ∈ holders) (hd : d ∈ holders)
    (hkey : key c = key d) : c = d :=
  List.inj_on_of_nodup_map h.nodup hc hd hkey

theorem Tracks.registered (h : Tracks key held holders) (hc : c ∈ holders) : key c ∈ held :=
  (h.mem _).mpr ⟨c, hc, rfl⟩

/-- Claiming a key nobody holds. -/
theorem Tracks.claim [DecidableEq κ] (h : Tracks key held holders) (c : α) (hk : key c ∉ held) :
    Tracks key (held.insert (key c)) (c :: holders) where
  mem := by
    intro k
    rw [List.mem_insert_iff, h.mem]
    simp [eq_comm]
  nodup := by
    rw [List.map_cons, List.nodup_cons]
    refine ⟨fun hmem => ?_, h.nodup⟩
    obtain ⟨d, hd, hkey⟩ := List.mem_map.mp hmem
    exact hk (hkey ▸ h.registered hd)

theorem Tracks.release [DecidableEq κ] (h : Tracks key held holders) (k : κ) :
    Tracks key (discard k held) (holders.filter fun c => key c ≠ k) where
  mem := by
    intro k'
    simp only [discard, List.mem_filter, h.mem, decide_eq_true_eq]
    constructor
    · rintro ⟨⟨c, hc, rfl⟩, hne⟩
      exact ⟨c, ⟨hc, hne⟩, rfl⟩
    · rintro ⟨c, ⟨hc, hne⟩, rfl⟩
      exact ⟨⟨c, hc, rfl⟩, hne⟩
  nodup := h.nodup.sublist (List.filter_sublist.map key)

/-- Holders may change, as long as each keeps its key. -/
theorem Tracks.update (h : Tracks key held holders) {f : α → α} (hf : ∀ c, key (f c) = key c) :
    Tracks key held (holders.map f) where
  mem := by
    intro k
    rw [h.mem]
    simp [hf]
  nodup := by
    have : key ∘ f = key := funext hf
    rw [List.map_map, this]
    exact h.nodup

end Registry
