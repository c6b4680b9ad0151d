import OpenPoly.Lib.Custody
import OpenPoly.Proofs.Posted
import OpenPoly.Spec.ModeDesk

/-! Which positions are open, and what opens and closes them: a disposal opens
none, a buy at most the one its result names. -/

namespace OpenPoly

def Db.IsOpen (db : Db) (i : ℕ) : Prop := ∃ p ∈ db.positions, p.id = i ∧ p.status = .open

theorem isOpen_iff_mem (db : Db) (i : ℕ) :
    db.IsOpen i ↔ i ∈ db.getOpenPositions.map HeldPosition.positionId := by
  unfold Db.IsOpen Db.getOpenPositions
  rw [List.map_map, List.mem_map]
  constructor
  · intro h
    obtain ⟨p, hp, hid, ho⟩ := h
    exact ⟨p, List.mem_filter.mpr ⟨hp, by simpa using ho⟩, hid⟩
  · intro h
    obtain ⟨p, hp, hid⟩ := h
    obtain ⟨hmem, ho⟩ := List.mem_filter.mp hp
    exact ⟨p, hmem, hid, by simpa using ho⟩

theorem getOpenPositions_nil_iff (db : Db) : db.getOpenPositions = [] ↔ ∀ i, ¬ db.IsOpen i := by
  simp only [isOpen_iff_mem, ← List.eq_nil_iff_forall_not_mem, List.map_eq_nil_iff]

/-- What a test of every open position says of the open ids. -/
theorem all_open_iff (db : Db) (test : ℕ → Bool) :
    (db.getOpenPositions.all fun p => test p.positionId) = true ↔
      ∀ i, db.IsOpen i → test i = true := by
  simp only [isOpen_iff_mem, List.all_eq_true, List.mem_map, forall_exists_index, and_imp,
    forall_apply_eq_imp_iff₂]

theorem checkFlat_ok_iff (db : Db) : checkFlat db = .ok () ↔ ∀ i, ¬ db.IsOpen i := by
  rw [← getOpenPositions_nil_iff]
  unfold checkFlat
  split_ifs with h
  · simp [h]
  · simp [h]

theorem Disposal.isOpen {db db' : Db} {i j : ℕ} {pos row : PositionRow} {fill : FillRow}
    (hd : Disposal db i pos row fill db') (hid : row.id = pos.id) (h : db'.IsOpen j) :
    db.IsOpen j := by
  obtain ⟨p, hp, hpid, ho⟩ := h
  rw [hd.after] at hp
  rcases Db.mem_setRow hp with rfl | ⟨hmem, -⟩
  · exact ⟨pos, (Db.get_mem hd.found).1, by rw [← hid, hpid], hd.wasOpen⟩
  · exact ⟨p, hmem, hpid, ho⟩

/-- What a close or a sell may do to the ledger: nothing, or one disposal. -/
theorem dispose_cases (db : Db) (d : Dispose) (outage : Option PyErr) :
    db.attempt ⟨d.call, outage⟩ = db ∨
      ∃ i pos row fill, Disposal db i pos row fill (db.attempt ⟨d.call, outage⟩) ∧
        row.id = pos.id := by
  rcases attempt_effect db ⟨d.call, outage⟩ with heq | ⟨a, hc, -⟩ | ⟨i, a, r, pos, -, -, -, hd⟩ |
    ⟨i, a, r, pos, -, -, -, hd⟩
  · exact .inl heq
  · cases d <;> cases hc
  · exact .inr ⟨i, pos, _, _, hd, rfl⟩
  · exact .inr ⟨i, pos, _, _, hd, soldRow_id db pos a⟩

theorem dispose_isOpen {db : Db} {d : Dispose} {outage : Option PyErr} {i : ℕ}
    (h : (db.attempt ⟨d.call, outage⟩).IsOpen i) : db.IsOpen i := by
  rcases dispose_cases db d outage with heq | ⟨j, pos, row, fill, hd, hid⟩
  · rwa [heq] at h
  · exact hd.isOpen hid h

theorem dispose_ids (db : Db) (d : Dispose) (outage : Option PyErr) :
    (db.attempt ⟨d.call, outage⟩).positions.map PositionRow.id =
      db.positions.map PositionRow.id := by
  rcases dispose_cases db d outage with heq | ⟨j, pos, row, fill, hd, -⟩
  · rw [heq]
  · exact hd.ids

/-- What an `open_position` that returns adds: one open row, of a new id. -/
theorem openPosition_isOpen {db db' : Db} {a : OpenArgs} {held : HeldPosition}
    (h : db.openPosition a = .ok (held, db')) :
    held.positionId ∉ db.positions.map PositionRow.id ∧
      db'.positions.map PositionRow.id = db.positions.map PositionRow.id ++ [held.positionId] ∧
      ∀ i, db'.IsOpen i → db.IsOpen i ∨ i = held.positionId := by
  obtain ⟨-, rfl, rfl⟩ := openPosition_ok h
  refine ⟨nextId_notMem _, by simp [Db.opened]; rfl, ?_⟩
  intro i hopen
  obtain ⟨p, hp, hid, ho⟩ := hopen
  rcases List.mem_append.mp hp with hp | hp
  · exact .inl ⟨p, hp, hid, ho⟩
  · obtain rfl := List.mem_singleton.mp hp
    exact .inr hid.symm

end OpenPoly
