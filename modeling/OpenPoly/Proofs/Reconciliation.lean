import OpenPoly.Proofs.Store
import OpenPoly.Spec.Reconciliation

/-! What a reconciled close takes for proof of absence: the tick closes a
position whose pair it did not read, and which lists prove that the wallet
holds nothing of the position's token. -/

namespace OpenPoly

/-- A close attempt closes the open row of its own id, where the database lets
it, and nothing else. -/
theorem closeAttempt_get (t : ReconTick) (pos : HeldPosition) {db : Db} {i : ℕ} {row : PositionRow}
    (h : db.get i = some row) :
    ∃ row', (db.attempt (t.closeAttempt pos)).get i = some row' ∧
      (row'.status = .closed ↔
        row.status = .closed ∨ (pos.positionId = i ∧ t.outage i = none)) := by
  rcases attempt_get h (t.closeAttempt pos) with hsame | ⟨hout, hopen, ⟨a, hc, hnew⟩ | ⟨a, hc, -⟩⟩
  · refine ⟨row, hsame, ⟨.inl, ?_⟩⟩
    rintro (hcl | ⟨rfl, hout⟩)
    · exact hcl
    · by_contra hne
      have hopen : row.status = .open := by
        cases hs : row.status with
        | «open» => rfl
        | closed => exact (hne hs).elim
      have hnew : (db.attempt (t.closeAttempt pos)).get pos.positionId =
          some (db.closedRow row (reconciledClose pos t.ts)) := by
        have hget : (db.addFill (sellFill row (reconciledClose pos t.ts).sellPrice row.qty 0 t.ts
            (some "reconciled") none none)).get pos.positionId = some row := h
        simp only [Db.attempt, ReconTick.closeAttempt, hout, Db.call, Db.closePosition,
          requireOpen_of_get h hopen, bind, Except.bind, pure, Except.pure, Except.map]
        rw [Db.get_setRow]
        exact (congrArg _ hget).trans (congrArg some (if_pos rfl))
      rw [hsame] at hnew
      have hclosed : (db.closedRow row (reconciledClose pos t.ts)).status = .closed := rfl
      rw [← Option.some.inj hnew, hopen] at hclosed
      cases hclosed
  · obtain ⟨hid, -⟩ := Call.closePosition.inj hc
    refine ⟨_, hnew, ⟨fun _ => .inr ⟨hid, hid ▸ hout⟩, fun _ => rfl⟩⟩
  · cases hc

/-- A row is closed after the sweep if it was before, or if the sweep closes a
position of its id. -/
theorem sweep_closed_iff (t : ReconTick) (held : List (String × String)) (opens : List HeldPosition)
    {db : Db} {i : ℕ} {row : PositionRow} (h : db.get i = some row) :
    (∃ row', (t.sweep held opens db).get i = some row' ∧ row'.status = .closed) ↔
      row.status = .closed ∨
        ∃ pos ∈ opens, pos.positionId = i ∧ t.flat held pos = true ∧ t.outage i = none := by
  induction opens generalizing db row with
  | nil => simp [ReconTick.sweep, h]
  | cons pos rest ih =>
    unfold ReconTick.sweep
    by_cases hflat : t.flat held pos = true
    · obtain ⟨row', hget, hclosed⟩ := closeAttempt_get t pos h
      rw [if_pos hflat, ih hget, hclosed]
      simp only [List.exists_mem_cons_iff, hflat, true_and]
      tauto
    · rw [if_neg hflat, ih h]
      simp [hflat]

/-- The tick closes the open row of this id. -/
def ReconTick.Reconciles (t : ReconTick) (i : ℕ) : Prop :=
  (∃ row, t.sweptAt.get i = some row ∧ row.status = .open) ∧
    ∃ row', t.run.get i = some row' ∧ row'.status = .closed

/-- Only its pair not being read keeps the tick from closing the position: the
row is open when the sweep comes to it, out of grace and unclaimed, and the
database takes the write. -/
structure ReconTick.Eligible (t : ReconTick) (pos : HeldPosition) : Prop where
  isOpen : ∃ row, t.sweptAt.get pos.positionId = some row ∧ row.status = .open
  grace : ¬ t.ts - pos.openedAt < t.grace
  unclaimed : pos.positionId ∉ t.closing
  lands : t.outage pos.positionId = none

theorem getOpenPositions_inj {db : Db} (h : (db.positions.map PositionRow.id).Nodup)
    {p q : HeldPosition} (hp : p ∈ db.getOpenPositions) (hq : q ∈ db.getOpenPositions)
    (hid : p.positionId = q.positionId) : p = q := by
  obtain ⟨row, hrow, rfl⟩ := List.mem_map.mp hp
  obtain ⟨row', hrow', rfl⟩ := List.mem_map.mp hq
  rw [List.inj_on_of_nodup_map h (List.mem_filter.mp hrow).1 (List.mem_filter.mp hrow').1 hid]

/-- What the tick closes was in the list it read. -/
theorem reconciles_listed {t : ReconTick} {i : ℕ} (h : t.Reconciles i) :
    ∃ pos ∈ t.opensAt.getOpenPositions, pos.positionId = i := by
  obtain ⟨⟨row, hget, hopen⟩, row', hget', hclosed⟩ := h
  unfold ReconTick.run at hget'
  cases hf : fetchHeldConditionSides t.repr t.answer with
  | error exc =>
    simp only [hf, hget, Option.some.injEq] at hget'
    rw [← hget', hopen] at hclosed
    cases hclosed
  | ok held =>
    simp only [hf] at hget'
    rcases (sweep_closed_iff t held _ hget).mp ⟨row', hget', hclosed⟩ with hcl | ⟨pos, hpos, hid, -⟩
    · rw [hopen] at hcl
      cases hcl
    · exact ⟨pos, hpos, hid⟩

theorem reconciles_iff {t : ReconTick} (hids : (t.opensAt.positions.map PositionRow.id).Nodup)
    {pos : HeldPosition} (hpos : pos ∈ t.opensAt.getOpenPositions) :
    t.Reconciles pos.positionId ↔
      t.Eligible pos ∧ ∃ held, fetchHeldConditionSides t.repr t.answer = .ok held ∧
        (pos.conditionId, pos.side.name) ∉ held := by
  unfold ReconTick.Reconciles ReconTick.run
  cases hf : fetchHeldConditionSides t.repr t.answer with
  | error exc =>
    simp only [reduceCtorEq, false_and, exists_false, and_false, iff_false]
    rintro ⟨⟨row, hget, hopen⟩, row', hget', hclosed⟩
    rw [hget] at hget'
    rw [Option.some.inj hget', hclosed] at hopen
    cases hopen
  | ok held =>
    constructor
    · rintro ⟨⟨row, hget, hopen⟩, hclosed⟩
      rw [sweep_closed_iff t held _ hget, hopen] at hclosed
      rcases hclosed with hcl | ⟨q, hq, hid, hflat, hlands⟩
      · cases hcl
      obtain rfl := getOpenPositions_inj hids hq hpos hid
      simp only [ReconTick.flat, Bool.and_eq_true, Bool.not_eq_true', decide_eq_false_iff_not,
        List.contains_eq_mem] at hflat
      exact ⟨⟨⟨row, hget, hopen⟩, hflat.1.1, hflat.2, hlands⟩, held, rfl, hflat.1.2⟩
    · rintro ⟨⟨⟨row, hget, hopen⟩, hgrace, hunclaimed, hlands⟩, held', hheld, habsent⟩
      obtain rfl := Except.ok.inj hheld
      have hflat : t.flat held pos = true := by
        simp [ReconTick.flat, hgrace, hunclaimed, habsent]
      exact ⟨⟨row, hget, hopen⟩,
        (sweep_closed_iff t held _ hget).mpr (.inr ⟨pos, hpos, rfl, hflat, hlands⟩)⟩

/-- A well-formed entry of the indexer's list. -/
structure Holding where
  conditionId : String
  outcome : String
  size : ℚ

/-- The entry names a condition and an outcome, and its size is a number. -/
def readHolding : Json → Option Holding
  | .obj pos =>
    match entryCondition pos, Dict.get pos "outcome", Dict.get pos "size" with
    | .str cid, .str outcome, raw =>
      if cid = "" then none
      else
        match raw with
        | .null => none
        | .bool _ => none
        | raw =>
          match pyFloat raw with
          | .ok (.fin size) => if 0 ≤ size then some ⟨cid, outcome, size⟩ else none
          | _ => none
    | _, _, _ => none
  | _ => none

/-- The outcome labels of a market's two tokens, in the order of the tokens. -/
abbrev OutcomeLabels := String → String × String

def labelOf (labels : OutcomeLabels) (pos : HeldPosition) : String :=
  match pos.side with
  | .yes => (labels pos.conditionId).1
  | .no => (labels pos.conditionId).2

/-- The total size a list reports for the position's token. -/
def reportedTotal (labels : OutcomeLabels) (entries : List Json) (pos : HeldPosition) : ℚ :=
  (((entries.filterMap readHolding).filter fun h =>
    h.conditionId = pos.conditionId ∧ h.outcome = labelOf labels pos).map Holding.size).sum

/-- The answer is a well-formed list whose total for the position's token is dust. -/
def ProvenAbsent (labels : OutcomeLabels) (answer : Except PyErr Json) (pos : HeldPosition) : Prop :=
  ∃ entries, answer = .ok (.arr entries) ∧ (∀ e ∈ entries, (readHolding e).isSome = true) ∧
    reportedTotal labels entries pos < minSellableQty

/-- An entry counted as holding the position's market and side, whatever the
market calls its tokens. -/
structure CountsAsHeld (repr : Json → String) (pos : HeldPosition) (fields : Dict) : Prop where
  named : (entryCondition fields).truthy = true
  condition : (entryCondition fields).text repr = pos.conditionId
  outcome : ∃ s, fields.get "outcome" = .str s ∧ pyLower (pyStrip s) = pos.side.name
  size : ∃ size, entrySize fields = .ok size ∧ sizeBelow minSellableQty size = false

/-- The answers on which the tick does right by a position it could close: none,
a size too large for a float, an entry counted as the holding, or a list of
well-formed holdings with dust of the token. -/
def ReadsRight (repr : Json → String) (labels : OutcomeLabels) (answer : Except PyErr Json)
    (pos : HeldPosition) : Prop :=
  match answer with
  | .error _ => True
  | .ok (.arr entries) =>
    (∃ fields, .obj fields ∈ entries ∧ entrySize fields = .error .overflowError) ∨
    (∃ fields, .obj fields ∈ entries ∧ CountsAsHeld repr pos fields) ∨
    ((∀ e ∈ entries, (readHolding e).isSome = true) ∧
      reportedTotal labels entries pos < minSellableQty)
  | .ok _ => False

theorem entrySize_error {fields : Dict} {exc : PyErr} (h : entrySize fields = .error exc) :
    exc = .overflowError := by
  unfold entrySize at h
  grind

theorem heldEntry_error_iff {repr : Json → String} {minSize : ℚ} {e : Json} :
    (∃ exc, heldEntry repr minSize e = .error exc) ↔
      ∃ fields, e = .obj fields ∧ entrySize fields = .error .overflowError := by
  cases e with
  | obj fields =>
    cases hs : entrySize fields with
    | error exc =>
      obtain rfl := entrySize_error hs
      simp [heldEntry, hs, bind, Except.bind]
    | ok size =>
      simp only [heldEntry, hs, bind, Except.bind, pure, Except.pure]
      grind
  | _ => simp [heldEntry]

theorem heldEntry_some_iff {repr : Json → String} {pos : HeldPosition} {e : Json} :
    heldEntry repr minSellableQty e = .ok (some (pos.conditionId, pos.side.name)) ↔
      ∃ fields, e = .obj fields ∧ CountsAsHeld repr pos fields := by
  constructor
  · intro h
    cases e with
    | obj fields =>
      refine ⟨fields, rfl, ?_⟩
      cases hs : entrySize fields with
      | error exc => simp [heldEntry, hs, bind, Except.bind] at h
      | ok size =>
        simp only [heldEntry, hs, bind, Except.bind, pure, Except.pure] at h
        split at h
        · rename_i s hnamed hout
          cases hb : sizeBelow minSellableQty size with
          | true => simp [hb] at h
          | false =>
            simp only [hb, Bool.false_eq_true, if_false, Except.ok.injEq, Option.some.injEq,
              Prod.mk.injEq] at h
            exact ⟨hnamed, h.1, ⟨s, hout, h.2⟩, ⟨size, hs, hb⟩⟩
        · simp at h
    | _ => simp [heldEntry] at h
  · rintro ⟨fields, rfl, hnamed, hcond, ⟨s, hout, hside⟩, ⟨size, hs, hb⟩⟩
    simp [heldEntry, hs, hnamed, hout, hb, hcond, hside, bind, Except.bind, pure, Except.pure]

theorem heldEntries_ok {repr : Json → String} {minSize : ℚ} {entries : List Json}
    {held : List (String × String)} (h : heldEntries repr minSize entries = .ok held)
    (pair : String × String) :
    pair ∈ held ↔ ∃ e ∈ entries, heldEntry repr minSize e = .ok (some pair) := by
  induction entries generalizing held with
  | nil =>
    obtain rfl := Except.ok.inj h
    simp
  | cons e rest ih =>
    unfold heldEntries at h
    obtain ⟨found, he, h⟩ := Results.except_bind_ok h
    obtain ⟨found', hr, h⟩ := Results.except_bind_ok h
    obtain rfl := Except.ok.inj h
    rw [List.mem_append, ih hr]
    simp [he, Option.mem_toList, eq_comm]

/-- The parse raises exactly where one entry does. -/
theorem heldEntries_error_iff (repr : Json → String) (minSize : ℚ) (entries : List Json) :
    (∃ exc, heldEntries repr minSize entries = .error exc) ↔
      ∃ e ∈ entries, ∃ exc, heldEntry repr minSize e = .error exc := by
  induction entries with
  | nil => simp [heldEntries]
  | cons e rest ih =>
    rw [List.exists_mem_cons_iff, ← ih]
    refine Results.fails_bind_congr (x := heldEntry repr minSize e) Iff.rfl fun found => ?_
    rw [Results.fails_bind_const (q := False) fun found' => iff_of_false Results.fails_pure id, or_false]
    rfl

theorem exists_obj_mem {entries : List Json} {p : Dict → Prop} :
    (∃ e ∈ entries, ∃ fields, e = .obj fields ∧ p fields) ↔
      ∃ fields, .obj fields ∈ entries ∧ p fields := by
  constructor
  · rintro ⟨-, hmem, fields, rfl, hp⟩
    exact ⟨fields, hmem, hp⟩
  · rintro ⟨fields, hmem, hp⟩
    exact ⟨_, hmem, fields, rfl, hp⟩

/-- An unread pair is proof of absence exactly where the answer reads right. -/
theorem readsRight_iff (repr : Json → String) (labels : OutcomeLabels)
    (answer : Except PyErr Json) (pos : HeldPosition) :
    ReadsRight repr labels answer pos ↔
      ((∃ held, fetchHeldConditionSides repr answer = .ok held ∧
        (pos.conditionId, pos.side.name) ∉ held) → ProvenAbsent labels answer pos) := by
  unfold ReadsRight fetchHeldConditionSides ProvenAbsent
  cases answer with
  | error exc => simp
  | ok payload =>
    cases payload with
    | arr entries =>
      have hraises := heldEntries_error_iff repr minSellableQty entries
      simp only [heldEntry_error_iff, exists_obj_mem] at hraises
      simp only [Except.ok.injEq, Json.arr.injEq, exists_eq_left', ← hraises]
      cases hh : heldEntries repr minSellableQty entries with
      | error exc => simp
      | ok held =>
        have hmem := heldEntries_ok hh (pos.conditionId, pos.side.name)
        simp only [heldEntry_some_iff, exists_obj_mem] at hmem
        simp only [reduceCtorEq, exists_false, false_or, Except.ok.injEq, exists_eq_left', hmem]
        exact or_iff_not_imp_left
    | _ => simp

def bookedRow : PositionRow :=
  openRow 1 { marketId := "m1", side := .yes, tokenId := "0xt", conditionId := "0xc",
              price := 1 / 2, qty := 10, ts := 0 }

/-- A tick over one open position, well past the grace period. -/
def tickOn (answer : Json) : ReconTick where
  opensAt := ⟨[bookedRow], []⟩
  answer := .ok answer
  repr _ := ""
  ts := 1000
  sweptAt := ⟨[bookedRow], []⟩
  closing := []

def holdingOf (conditionId outcome size : String) : Json :=
  .obj [("conditionId", .str conditionId), ("outcome", .str outcome), ("size", .str size)]

theorem reconciles_sample {answer : Json} (h : ((tickOn answer).run.get 1).map PositionRow.status =
    some .closed) : (tickOn answer).Reconciles 1 := by
  obtain ⟨row, hget, hclosed⟩ := Option.map_eq_some_iff.mp h
  exact ⟨⟨_, rfl, rfl⟩, row, hget, hclosed⟩

def dustOnly : Json := .arr [holdingOf "0xd" "Yes" "5", holdingOf "0xc" "Yes" "0.001"]

def errorBody : Json := .obj [("error", .str "rate limited")]

def upHeld : Json := .arr [holdingOf "0xc" "Up" "10"]

end OpenPoly
