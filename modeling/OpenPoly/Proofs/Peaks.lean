import OpenPoly.Lib.HighWater
import OpenPoly.Lib.Run
import OpenPoly.Proofs.ExitRun
import OpenPoly.Proofs.Holdings
import OpenPoly.Proofs.Reconciliation
import OpenPoly.Proofs.ThinStreak

/-! The peak of a position: what the exit section is handed is the highest of the
seed and of the marks its ticks and the observer saw, as long as it is open. -/

namespace OpenPoly

open Transition HighWater

/-- The mark a record adds to the peak: a seed, an observed mark, the guarded mark
of an evaluation. -/
def MarkRecord.mark : MarkRecord → Option ℚ
  | .seeded peak => some peak
  | .observed mark => some mark
  | .evaluated _ marked _ => if marked.thin then none else some marked.currentPrice
  | _ => none

/-- The peak the section was handed, unless on a thin mark. -/
def MarkRecord.handed : MarkRecord → Option ℚ
  | .evaluated _ marked _ => if marked.thin then none else some marked.peakPrice
  | _ => none

/-- The peak kept is the highest mark, and so were the peaks handed over. -/
structure Slot.Peaked (s : Slot) : Prop where
  peak : s.position.peak = highest MarkRecord.mark s.records
  shows : Shows MarkRecord.mark MarkRecord.handed s.records

variable {s s' : Slot} {exit : ExitSection} {held : HeldPosition} {book : OrderBook}
  {stamp : Option ℚ} {now ts : ℚ} {d : MarkDecision} {r : MarkRecord} {g : Grounds}

theorem Slot.Peaked.same (h : s.Peaked) (hpeak : s'.position.peak = s.position.peak)
    (hrecords : s'.records = s.records) : s'.Peaked :=
  ⟨by rw [hpeak, hrecords, h.peak], hrecords ▸ h.shows⟩

theorem Slot.Peaked.core (h : s.Peaked) (hcore : s'.core = s.core) : s'.Peaked := by
  simp only [Slot.core, Prod.mk.injEq] at hcore
  exact h.same hcore.1 hcore.2.2.2

theorem peaked_empty (log : List ExitDecision) : (⟨none, log, []⟩ : Slot).Peaked :=
  ⟨rfl, shows_nil⟩

/-- A look that is no mark leaves the peak. -/
theorem Slot.Peaked.record (h : s.Peaked) (hmark : r.mark = none) (hhanded : r.handed = none) :
    (s.record r).Peaked := by
  refine ⟨?_, h.shows.skip hhanded⟩
  rw [record_position, record_records, highest_skip hmark]
  exact h.peak

theorem decide_peaked (h : s.Peaked) (exit : ExitSection) (held : HeldPosition) (book : OrderBook)
    (stamp : Option ℚ) (now : ℚ) : (s.decide exit held book stamp now).2.Peaked := by
  rcases hd : s.decide exit held book stamp now with ⟨decision, s'⟩
  cases decision with
  | none =>
    obtain ⟨-, rfl⟩ := decide_none hd
    split_ifs <;> exact h.record rfl rfl
  | some d =>
    obtain ⟨price, thin, -, -, -, -, rfl⟩ := decide_some hd
    cases thin with
    | true =>
      have hput : (s.put s.position).Peaked := h.same rfl rfl
      exact hput.record rfl rfl
    | false =>
      have hmax : highest MarkRecord.mark (.evaluated exit
          (markedPosition held book s.position stamp now price false) stamp :: s.records) =
          some (s.position.peakAt price false) := by
        have hmark : MarkRecord.mark (.evaluated exit
            (markedPosition held book s.position stamp now price false) stamp) = some price := rfl
        rw [highest_cons hmark, ← h.peak]
        rfl
      refine ⟨hmax.symm, h.shows.cons fun k hk => ?_⟩
      exact hmax.trans hk

/-- The streak is no part of the peak. -/
theorem track_peaked (h : s.Peaked) (decision : Option MarkDecision) :
    (s.trackThinStreak decision).Peaked := by
  unfold Slot.trackThinStreak
  split
  · dsimp only
    split_ifs <;> exact h.same rfl rfl
  · refine h.same ?_ rfl
    rw [map_position s (f := fun p => { p with thinStreak := 0, thinStamp := none }) rfl]

theorem conclude_peaked (h : s.Peaked) (held : HeldPosition) (ts : ℚ) (g : Grounds)
    (decision : Option MarkDecision) : (s.conclude held ts g decision).2.Peaked :=
  (track_peaked h decision).core (conclude_core s held ts g decision)

theorem act_peaked (h : s.Peaked) (held : HeldPosition) (ts : ℚ) (g : Grounds) (d : MarkDecision) :
    (s.act held ts g d).2.Peaked := by
  have hcore := act_core s held ts g d
  split_ifs at hcore
  · exact h.core hcore
  · exact (track_peaked h _).core hcore

theorem evaluate_peaked (h : s.Peaked) (exit : ExitSection) (held : HeldPosition) (ts : ℚ)
    (g : Grounds) (sight : Sight) : (s.evaluate exit held ts g sight).2.Peaked := by
  have hdecide : ∀ {book stamp now decision s'}, s.decide exit held book stamp now = (decision, s') →
      s'.Peaked := by
    intro book stamp now decision s' hd
    have := decide_peaked h exit held book stamp now
    rwa [hd] at this
  have hpath := evaluate_path s exit held ts g sight
  generalize s.evaluate exit held ts g sight = out at hpath ⊢
  cases hpath with
  | dust => exact h.core (noteDust_core s held ts)
  | noBook => exact (h.record (r := .unseen) rfl rfl).core (holdOnce_core _ held ts _)
  | noBids => exact h.record rfl rfl
  | unmarked _ _ _ hd => exact conclude_peaked (hdecide hd) held ts g none
  | kept _ _ hd _ => exact conclude_peaked (hdecide hd) held ts g _
  | young _ _ hd _ _ => exact act_peaked (hdecide hd) held ts g _
  | old _ _ hd _ _ => exact hdecide hd

theorem confirm_peaked (h : s.Peaked) (exit : ExitSection) (held : HeldPosition) (ts : ℚ)
    (g : Grounds) (d : MarkDecision) (r : Refetched) :
    (s.confirm exit held ts g d r).2.Peaked := by
  have hdecide : ∀ {book stamp now decision s'}, s.decide exit held book stamp now = (decision, s') →
      s'.Peaked := by
    intro book stamp now decision s' hd
    have := decide_peaked h exit held book stamp now
    rwa [hd] at this
  have hpath := confirm_path s exit held ts g d r
  generalize s.confirm exit held ts g d r = out at hpath ⊢
  cases hpath with
  | held _ => exact h.core (holdOnce_core s held ts _)
  | asIs _ => exact act_peaked h held ts g d
  | unmarked _ hd => exact act_peaked (hdecide hd) held ts g d
  | marked _ hd => exact act_peaked (hdecide hd) held ts g _

theorem raise_peaked (mark : ℚ) (h : s.Peaked) :
    (⟨some (raisePeak s.position mark), s.log, .observed mark :: s.records⟩ : Slot).Peaked := by
  refine ⟨?_, h.shows.skip rfl⟩
  have hmark : (MarkRecord.observed mark).mark = some mark := rfl
  rw [highest_cons hmark, ← h.peak]
  show (raisePeak s.position mark).peak = _
  unfold raisePeak
  cases hp : s.position.peak with
  | none => simp
  | some peak =>
    by_cases hlt : peak < mark
    · simp [hlt, max_eq_right hlt.le]
    · simp [hlt, hp, max_eq_left (not_lt.mp hlt)]

variable {m m' : ExitMonitor}

structure ExitMonitor.Fresh (m : ExitMonitor) (id : ℕ) : Prop where
  state : m.states id = none
  records : m.records id = []
  listed : m.listed id = none

/-- The row of the position exists, and is no larger than the position was read. -/
def Bounds (db : Db) (held : HeldPosition) : Prop :=
  held.positionId ∈ db.positions.map PositionRow.id ∧
    ∀ row, db.get held.positionId = some row → row.status = .open → row.qty ≤ held.qty

theorem stillOpen_iff {id : ℕ} :
    m.stillOpen id = true ↔ ∃ row, m.live.db.get id = some row ∧ row.status = .open := by
  simp [ExitMonitor.stillOpen, Option.any_eq_true]

/-- Peaks are right for what is open; what is open and was listed is watched. -/
structure PeakInv (m : ExitMonitor) : Prop where
  ids : (m.live.db.positions.map PositionRow.id).Nodup
  fresh : ∀ id, id ∉ m.live.db.positions.map PositionRow.id → m.Fresh id
  watch : ∀ token id, id ∈ m.watch token → m.listed id = some token
  watched : ∀ id, m.stillOpen id = true → ∀ token, m.listed id = some token → id ∈ m.watch token
  peaked : ∀ id, m.stillOpen id = true → (m.slot id).Peaked

/-- What the tick may take for granted of its list: it was all that was open but
for what was opened since, and none has grown. A sell that reports all that was
held has closed the row. -/
def ExitMonitor.PhaseOk (m : ExitMonitor) : TickPhase → Prop
  | .idle => True
  | .read _ opens => (opens.map HeldPosition.positionId).Nodup ∧
      (∀ held ∈ opens, Bounds m.live.db held) ∧
      ∀ id, m.stillOpen id = true → id ∈ opens.map HeldPosition.positionId ∨ m.Fresh id
  | .sweeping _ rest => ∀ x ∈ rest, Bounds m.live.db x
  | .refetching _ held _ rest => ∀ x ∈ held :: rest, Bounds m.live.db x
  | .selling _ held _ rest => ∀ x ∈ held :: rest, Bounds m.live.db x
  | .sold _ held _ result rest => (∀ x ∈ held :: rest, Bounds m.live.db x) ∧
      ∀ r, result = .ok r → r.fillPrice.isSome = true → held.qty ≤ r.soldOf held →
        m.stillOpen held.positionId = false

/-- The ledger is written, and nothing that is kept of the positions changes. -/
structure Follows (m m' : ExitMonitor) : Prop where
  states : m'.states = m.states
  records : m'.records = m.records
  listed : m'.listed = m.listed
  watch : m'.watch = m.watch
  ledger : Shrinks m.live.db m'.live.db

theorem Follows.fresh (hf : Follows m m') {id : ℕ} (h : m.Fresh id) : m'.Fresh id :=
  ⟨hf.states ▸ h.state, hf.records ▸ h.records, hf.listed ▸ h.listed⟩

theorem Follows.core (hf : Follows m m') (id : ℕ) : (m'.slot id).core = (m.slot id).core := by
  simp [Slot.core, Slot.position, ExitMonitor.slot, hf.states, hf.records]

/-- What is open now was open before, or nothing was kept of it. -/
theorem Follows.open_before (hf : Follows m m') (h : PeakInv m) {id : ℕ}
    (ho : m'.stillOpen id = true) : m.stillOpen id = true ∨ m.Fresh id := by
  obtain ⟨row, hget, hopen⟩ := stillOpen_iff.mp ho
  rcases hf.ledger.opens id row hget hopen with hnew | ⟨row', hget', ho', -⟩
  · exact .inr (h.fresh id hnew)
  · exact .inl (stillOpen_iff.mpr ⟨row', hget', ho'⟩)

theorem PeakInv.follow (h : PeakInv m) (hf : Follows m m') : PeakInv m' := by
  refine ⟨hf.ledger.ids h.ids, fun id hid => ?_, ?_, fun id ho token hlisted => ?_, fun id ho => ?_⟩
  · exact hf.fresh (h.fresh id fun hknown => hid (hf.ledger.known id hknown))
  · rw [hf.watch, hf.listed]
    exact h.watch
  · rw [hf.listed] at hlisted
    rcases hf.open_before h ho with ho | hfresh
    · rw [hf.watch]
      exact h.watched id ho token hlisted
    · rw [hfresh.listed] at hlisted
      cases hlisted
  · rcases hf.open_before h ho with ho | hfresh
    · exact (h.peaked id ho).core (hf.core id)
    · have hempty : m.slot id = ⟨none, m.log, []⟩ := by
        simp [ExitMonitor.slot, hfresh.state, hfresh.records]
      exact (hempty ▸ peaked_empty m.log : (m.slot id).Peaked).core (hf.core id)

theorem Bounds.shrinks {db db' : Db} (h : Bounds db held) (hdb : Shrinks db db') :
    Bounds db' held := by
  refine ⟨hdb.known _ h.1, fun row hget ho => ?_⟩
  rcases hdb.opens _ row hget ho with hnew | ⟨row', hget', ho', hqty⟩
  · exact (hnew h.1).elim
  · exact hqty.trans (h.2 row' hget' ho')

theorem ExitMonitor.PhaseOk.follow {p : TickPhase} (hp : m.PhaseOk p) (h : PeakInv m)
    (hf : Follows m m') : m'.PhaseOk p := by
  cases p with
  | idle => trivial
  | read ts opens =>
    obtain ⟨hnodup, hbounds, hall⟩ := hp
    refine ⟨hnodup, fun x hx => (hbounds x hx).shrinks hf.ledger, fun id ho => ?_⟩
    rcases hf.open_before h ho with ho | hfresh
    · exact (hall id ho).imp_right hf.fresh
    · exact .inr (hf.fresh hfresh)
  | sweeping ts rest => exact fun x hx => (hp x hx).shrinks hf.ledger
  | refetching ts held d rest => exact fun x hx => (hp x hx).shrinks hf.ledger
  | selling ts held order rest => exact fun x hx => (hp x hx).shrinks hf.ledger
  | sold ts held order result rest =>
    refine ⟨fun x hx => (hp.1 x hx).shrinks hf.ledger, fun r hr hfill hqty => ?_⟩
    by_contra ho
    obtain ⟨row, hget, hopen⟩ := stillOpen_iff.mp (by simpa using ho)
    rcases hf.ledger.opens _ row hget hopen with hnew | ⟨row', hget', ho', -⟩
    · exact hnew (hp.1 held List.mem_cons_self).1
    · have hbefore := hp.2 r hr hfill hqty
      rw [stillOpen_iff.mpr ⟨row', hget', ho'⟩] at hbefore
      cases hbefore

variable {rest opens : List HeldPosition} {order : SellOrder} {clock : ℚ} {outage : Option PyErr}

theorem PeakInv.setSlot (h : PeakInv m) {id : ℕ} {s : Slot}
    (hknown : id ∈ m.live.db.positions.map PositionRow.id) (hs : m.stillOpen id = true → s.Peaked) :
    PeakInv (m.setSlot id s) := by
  refine ⟨h.ids, fun id' hid => ?_, h.watch, h.watched, fun id' ho => ?_⟩
  · obtain ⟨hstate, hrecords, hlisted⟩ := h.fresh id' hid
    have hne : id' ≠ id := fun heq => hid (heq ▸ hknown)
    refine ⟨?_, ?_, hlisted⟩
    · simpa [ExitMonitor.setSlot, hne] using hstate
    · simpa [ExitMonitor.setSlot, hne] using hrecords
  · rcases eq_or_ne id' id with rfl | hne
    · rw [setSlot_slot]
      exact hs ho
    · exact (h.peaked id' ho).core (setSlot_core_of_ne m s hne)

theorem advance_follows (m : ExitMonitor) (ts : ℚ) (held : HeldPosition) (rest : List HeldPosition)
    (out : Next × Slot) : Follows (m.setSlot held.positionId out.2) (m.advance ts held rest out) := by
  unfold ExitMonitor.advance
  cases out.1 <;> exact ⟨rfl, rfl, rfl, rfl, .refl _⟩

theorem advance_phaseOk (m : ExitMonitor) (ts : ℚ) (out : Next × Slot)
    (h : ∀ x ∈ held :: rest, Bounds m.live.db x) :
    (m.advance ts held rest out).PhaseOk (m.advance ts held rest out).phase := by
  unfold ExitMonitor.advance
  cases out.1 with
  | done blocked => exact fun x hx => h x (List.mem_cons_of_mem _ hx)
  | refetch d age => exact h
  | sell order => exact h

/-- Only an id that is closed is no longer watched. -/
theorem PeakInv.unwatch (h : PeakInv m) {id : ℕ} (hclosed : m.stillOpen id = false)
    (token : String) : PeakInv { m with watch := m.unwatch token id } := by
  refine ⟨h.ids, fun id' hid => ?_, fun t id' hmem => ?_, fun id' ho t hlisted => ?_, h.peaked⟩
  · obtain ⟨hstate, hrecords, hlisted⟩ := h.fresh id' hid
    exact ⟨hstate, hrecords, hlisted⟩
  · refine h.watch t id' ?_
    rcases eq_or_ne t token with rfl | hne
    · simp only [ExitMonitor.unwatch, Function.update_self] at hmem
      exact List.mem_of_mem_erase hmem
    · simpa [ExitMonitor.unwatch, hne] using hmem
  · have hmem := h.watched id' ho t hlisted
    have hne : id' ≠ id := by
      rintro rfl
      exact Bool.false_ne_true (hclosed.symm.trans ho)
    show id' ∈ m.unwatch token id t
    rcases eq_or_ne t token with rfl | hne'
    · simp only [ExitMonitor.unwatch, Function.update_self]
      exact (List.mem_erase_of_ne hne).mpr hmem
    · simpa [ExitMonitor.unwatch, hne'] using hmem

/-- A sell that was no partial one has closed the row. -/
theorem soldOut_closed {result : Except PyErr ExecResult} {r : ExecResult}
    (h : m.PhaseOk (.sold ts held order result rest)) (hr : result = .ok r)
    (hfill : r.fillPrice.isSome = true) (hout : m.soldOut held r = true) :
    m.stillOpen held.positionId = false := by
  by_cases hqty : held.qty ≤ r.soldOf held
  · exact h.2 r hr hfill hqty
  · simpa [ExitMonitor.soldOut, not_le.mp hqty] using hout

theorem PeakInv.finishSell {r : ExecResult} (h : PeakInv m)
    (hp : m.PhaseOk (.sold ts held order (.ok r) rest)) :
    PeakInv (m.finishSell ts held order rest clock outage r) := by
  have hslot : PeakInv (m.setSlot held.positionId ((m.slot held.positionId).finishClose held ts clock
      order r (m.soldOut held r) (m.realized held r outage) m.tick)) := by
    refine h.setSlot (hp.1 held List.mem_cons_self).1 fun ho => ?_
    have hcore := @finishClose_core (m.slot held.positionId) held ts clock order r (m.soldOut held r)
      (m.realized held r outage) m.tick
    have hpartial : ¬ (r.fillPrice.isSome && m.soldOut held r) = true := by
      intro hfull
      obtain ⟨hfill, hout⟩ := Bool.and_eq_true_iff.mp hfull
      rw [soldOut_closed hp rfl hfill hout] at ho
      cases ho
    rw [if_neg hpartial] at hcore
    exact (h.peaked held.positionId ho).core hcore
  by_cases hfull : (r.fillPrice.isSome && m.soldOut held r) = true
  · obtain ⟨hfill, hout⟩ := Bool.and_eq_true_iff.mp hfull
    have hclosed := soldOut_closed hp rfl hfill hout
    exact (hslot.unwatch hclosed held.tokenId).follow ⟨rfl, rfl, rfl, if_pos hfull, .refl _⟩
  · exact hslot.follow ⟨rfl, rfl, rfl, if_neg hfull, .refl _⟩

theorem finishSell_phaseOk {r : ExecResult}
    (hp : m.PhaseOk (.sold ts held order (.ok r) rest)) :
    (m.finishSell ts held order rest clock outage r).PhaseOk
      (m.finishSell ts held order rest clock outage r).phase :=
  fun x hx => hp.1 x (List.mem_cons_of_mem _ hx)

theorem observe_fresh (h : PeakInv m) (book : OrderBook) {id : ℕ} (hf : m.Fresh id) :
    (m.observeBook book).Fresh id := by
  have hnot : id ∉ m.watch book.tokenId := by
    intro hmem
    have hlisted := h.watch _ _ hmem
    rw [hf.listed] at hlisted
    cases hlisted
  unfold ExitMonitor.observeBook
  split
  · exact hf
  · exact ⟨by simpa [hnot] using hf.state, by simpa [hf.listed] using hf.records, hf.listed⟩

theorem observe_keeps (m : ExitMonitor) (book : OrderBook) :
    (m.observeBook book).live = m.live ∧ (m.observeBook book).phase = m.phase ∧
      (m.observeBook book).listed = m.listed ∧ (m.observeBook book).watch = m.watch := by
  unfold ExitMonitor.observeBook
  split <;> exact ⟨rfl, rfl, rfl, rfl⟩

/-- The observer raises the peaks of the watching positions, and these are the
listed ones among what is open. -/
theorem PeakInv.observe (h : PeakInv m) (book : OrderBook) : PeakInv (m.observeBook book) := by
  obtain ⟨hlive, -, hlisted, hwatch⟩ := observe_keeps m book
  refine ⟨by rw [hlive]; exact h.ids, fun id hid => ?_, by rw [hlisted, hwatch]; exact h.watch,
    fun id ho => ?_, fun id ho => ?_⟩
  · rw [hlive] at hid
    exact observe_fresh h book (h.fresh id hid)
  · rw [ExitMonitor.stillOpen, hlive] at ho
    rw [hlisted, hwatch]
    exact h.watched id ho
  · rw [ExitMonitor.stillOpen, hlive] at ho
    have hpeaked := h.peaked id ho
    unfold ExitMonitor.observeBook
    split
    · exact hpeaked
    · rename_i mark _
      by_cases hmem : id ∈ m.watch book.tokenId
      · have hlisted := h.watch _ _ hmem
        refine (raise_peaked mark hpeaked).same ?_ ?_
        · simp [ExitMonitor.slot, Slot.position, hmem]
        · simp [ExitMonitor.slot, hlisted]
      · have hlisted : m.listed id ≠ some book.tokenId := fun heq => hmem (h.watched id ho _ heq)
        refine hpeaked.same ?_ ?_
        · simp [ExitMonitor.slot, Slot.position, hmem]
        · simp [ExitMonitor.slot, hlisted]

theorem observe_phaseOk (h : PeakInv m) {p : TickPhase} (hp : m.PhaseOk p) (book : OrderBook) :
    (m.observeBook book).PhaseOk p := by
  have hlive := (observe_keeps m book).1
  cases p with
  | idle => trivial
  | read ts opens =>
    obtain ⟨hnodup, hbounds, hall⟩ := hp
    refine ⟨hnodup, by rw [hlive]; exact hbounds, fun id ho => ?_⟩
    rw [ExitMonitor.stillOpen, hlive] at ho
    exact (hall id ho).imp_right (observe_fresh h book)
  | sweeping ts rest => simpa only [ExitMonitor.PhaseOk, hlive] using hp
  | refetching ts held d rest => simpa only [ExitMonitor.PhaseOk, hlive] using hp
  | selling ts held order rest => simpa only [ExitMonitor.PhaseOk, hlive] using hp
  | sold ts held order result rest =>
    simpa only [ExitMonitor.PhaseOk, ExitMonitor.stillOpen, hlive] using hp

theorem watchOf_listed (hnodup : (opens.map HeldPosition.positionId).Nodup) {token : String} {id : ℕ}
    (h : id ∈ watchOf opens token) :
    (opens.find? fun held => held.positionId = id).map HeldPosition.tokenId = some token := by
  obtain ⟨held, hheld, rfl⟩ := List.mem_map.mp h
  obtain ⟨hmem, htoken⟩ := List.mem_filter.mp hheld
  cases hfind : opens.find? fun x => x.positionId = held.positionId with
  | none => simpa using List.find?_eq_none.mp hfind held hmem
  | some x =>
    have hid : x.positionId = held.positionId := by simpa using List.find?_some hfind
    obtain rfl := List.inj_on_of_nodup_map hnodup (List.mem_of_find?_eq_some hfind) hmem hid
    simpa using htoken

theorem PeakInv.sweep (h : PeakInv m) (hp : m.PhaseOk (.read ts opens)) :
    PeakInv (m.beginSweep ts opens) := by
  obtain ⟨hnodup, hbounds, hall⟩ := hp
  have hlist : ∀ id, id ∉ opens.map HeldPosition.positionId →
      (opens.find? fun held => held.positionId = id) = none := by
    intro id hid
    refine List.find?_eq_none.mpr fun held hheld heq => hid ?_
    have heq : held.positionId = id := by simpa using heq
    exact heq ▸ List.mem_map_of_mem hheld
  refine ⟨h.ids, fun id hid => ?_, fun token id hmem => ?_, fun id ho token hlisted => ?_,
    fun id ho => ?_⟩
  · obtain ⟨hstate, hrecords, hlisted⟩ := h.fresh id hid
    have hnot : id ∉ opens.map HeldPosition.positionId := by
      intro hmem
      obtain ⟨held, hheld, rfl⟩ := List.mem_map.mp hmem
      exact hid (hbounds held hheld).1
    refine ⟨?_, hrecords, ?_⟩
    · exact if_neg hnot
    · simp [ExitMonitor.beginSweep, hlist id hnot, hlisted]
  · simp [ExitMonitor.beginSweep, watchOf_listed hnodup hmem]
  · cases hfind : opens.find? fun held => held.positionId = id with
    | some held =>
      have hid : held.positionId = id := by simpa using List.find?_some hfind
      have htoken : held.tokenId = token := by
        simpa [ExitMonitor.beginSweep, hfind] using hlisted
      refine List.mem_map.mpr ⟨held, List.mem_filter.mpr ⟨List.mem_of_find?_eq_some hfind, ?_⟩, hid⟩
      simpa using htoken
    | none =>
      have hold : m.listed id = some token := by simpa [ExitMonitor.beginSweep, hfind] using hlisted
      rcases hall id ho with hmem | hfresh
      · obtain ⟨held, hheld, hid⟩ := List.mem_map.mp hmem
        simpa [hid] using List.find?_eq_none.mp hfind held hheld
      · rw [hfresh.listed] at hold
        cases hold
  · rcases hall id ho with hmem | hfresh
    · refine (h.peaked id ho).same ?_ rfl
      simp only [Slot.position, ExitMonitor.slot, ExitMonitor.beginSweep, if_pos hmem]
    · refine (h.peaked id ho).same ?_ rfl
      simp [Slot.position, ExitMonitor.slot, ExitMonitor.beginSweep, hfresh.state]

theorem isFor_position {request : SellRequest} (h : request.isFor ts held order = true) :
    request.position = held := by
  cases request <;> simp only [SellRequest.isFor, decide_eq_true_eq] at h <;> exact h.1

theorem bounds_of_open {db : Db} (h : (db.positions.map PositionRow.id).Nodup) :
    ∀ held ∈ db.getOpenPositions, Bounds db held := by
  intro held hheld
  obtain ⟨row, hrow, rfl⟩ := List.mem_map.mp hheld
  have hget := Db.get_of_mem h (List.mem_filter.mp hrow).1
  refine ⟨Db.known_of_get hget, fun row' hget' _ => ?_⟩
  obtain rfl : row = row' := Option.some.inj (hget.symm.trans hget')
  exact le_rfl

/-- Positive quantities, as every other writer of the ledger passes them. -/
def ExitEvent.Positive : ExitEvent → Prop
  | .ledger e => e.call.Positive
  | _ => True

theorem peakInv_step {e : ExitEvent} (h : PeakInv m) (hp : m.PhaseOk m.phase) (he : e.Positive)
    (hstep : m.step e = some m') : PeakInv m' ∧ m'.PhaseOk m'.phase := by
  have hsame : ∀ {m'}, Follows m m' → m'.phase = m.phase → PeakInv m' ∧ m'.PhaseOk m'.phase := by
    intro m' hf hphase
    refine ⟨h.follow hf, ?_⟩
    rw [hphase]
    exact hp.follow h hf
  have hmoved : ∀ {m'}, Follows m m' → m'.PhaseOk m'.phase → PeakInv m' ∧ m'.PhaseOk m'.phase :=
    fun hf hp' => ⟨h.follow hf, hp'⟩
  cases step_stepped hstep with
  | @readOpens ts hphase =>
    refine hmoved ⟨rfl, rfl, rfl, rfl, .refl _⟩ ⟨?_, bounds_of_open h.ids, fun id ho => .inl ?_⟩
    · unfold Db.getOpenPositions
      rw [List.map_map]
      exact (List.filter_sublist.map _).nodup h.ids
    · obtain ⟨row, hget, hopen⟩ := stillOpen_iff.mp ho
      obtain ⟨hmem, rfl⟩ := Db.get_mem hget
      have hrow : row ∈ m.live.db.positions.filter fun p => p.status = .open :=
        List.mem_filter.mpr ⟨hmem, by simpa using hopen⟩
      exact List.mem_map.mpr ⟨row.toHeld, List.mem_map_of_mem hrow, rfl⟩
  | @sweep ts opens hphase =>
    rw [hphase] at hp
    exact ⟨h.sweep hp, hp.2.1⟩
  | @evaluate sight clock ts held rest hphase hreads =>
    rw [hphase] at hp
    refine ⟨(h.setSlot (hp held List.mem_cons_self).1 fun ho => ?_).follow
      (advance_follows m ts held rest _), advance_phaseOk m ts _ hp⟩
    exact evaluate_peaked (h.peaked _ ho) _ _ _ _ _
  | @refetched r clock ts held d rest hphase hreads =>
    rw [hphase] at hp
    refine ⟨(h.setSlot (hp held List.mem_cons_self).1 fun ho => ?_).follow
      (advance_follows m ts held rest _), advance_phaseOk m ts _ hp⟩
    exact confirm_peaked (h.peaked _ ho) _ _ _ _ _ _
  | @execute request ts held order rest hphase hfor =>
    rw [hphase] at hp
    have hheld := isFor_position hfor
    have hwrites := request_writes m.live request
    rw [hheld] at hwrites
    have hf : Follows m { m with
        live := (request.execute m.live).1
        phase := .sold ts held order (request.execute m.live).2 rest } :=
      ⟨rfl, rfl, rfl, rfl, hwrites.shrinks⟩
    refine hmoved hf ⟨fun x hx => (hp x hx).shrinks hwrites.shrinks, fun r hr hfill hqty => ?_⟩
    rw [hr] at hwrites
    have hclosed := hwrites.closed hfill (hp held List.mem_cons_self).2 hqty
    by_contra ho
    obtain ⟨row, hget, hopen⟩ := stillOpen_iff.mp (by simpa using ho)
    exact hclosed row hget hopen
  | @raised clock outage ts held order exc rest hphase =>
    rw [hphase] at hp
    exact hmoved ⟨rfl, rfl, rfl, rfl, .refl _⟩ fun x hx => hp.1 x (List.mem_cons_of_mem _ hx)
  | @finish clock outage ts held order r rest hphase =>
    rw [hphase] at hp
    have hf : Follows m { m with closing := Registry.discard held.positionId m.closing } :=
      ⟨rfl, rfl, rfl, rfl, .refl _⟩
    exact ⟨(h.follow hf).finishSell (hp.follow h hf), finishSell_phaseOk (hp.follow h hf)⟩
  | tickDone hphase => exact hmoved ⟨rfl, rfl, rfl, rfl, .refl _⟩ trivial
  | @observe book =>
    refine ⟨h.observe book, ?_⟩
    rw [(observe_keeps m book).2.1]
    exact observe_phaseOk h hp book
  | replaceExit => exact hsame ⟨rfl, rfl, rfl, rfl, .refl _⟩ rfl
  | ledger => exact hsame ⟨rfl, rfl, rfl, rfl, attempt_shrinks (Call.Positive.sellsSome he)⟩ rfl
  | trade => exact hsame ⟨rfl, rfl, rfl, rfl, liveCall_shrinks _ _⟩ rfl
  | mark => exact hsame ⟨rfl, rfl, rfl, rfl, .refl _⟩ rfl
  | clear => exact hsame ⟨rfl, rfl, rfl, rfl, .refl _⟩ rfl

theorem peakInv_boot (exit : ExitSection) {live : LiveState}
    (hids : (live.db.positions.map PositionRow.id).Nodup)
    (snapshots : Option (List OrderBookSnapshot)) : PeakInv (.boot exit live snapshots) := by
  have hstart : PeakInv (.start exit live) :=
    ⟨hids, fun _ _ => ⟨rfl, rfl, rfl⟩, fun _ _ h => (by cases h), fun _ _ _ h => (by cases h),
      fun _ _ => peaked_empty []⟩
  cases snapshots with
  | none => exact hstart
  | some snapshots =>
    refine ⟨hids, fun id hid => ?_, fun _ _ h => (by cases h), fun _ _ _ h => (by cases h),
      fun id _ => ?_⟩
    · have hnone : live.db.getOpenPositions.find? (fun held => held.positionId = id) = none := by
        refine List.find?_eq_none.mpr fun held hheld heq => hid ?_
        have heq : held.positionId = id := by simpa using heq
        exact heq ▸ (bounds_of_open hids held hheld).1
      constructor <;>
        simp [ExitMonitor.boot, ExitMonitor.bootstrapPeaks, ExitMonitor.start, hnone]
    · simp only [ExitMonitor.boot, ExitMonitor.bootstrapPeaks, ExitMonitor.slot, ExitMonitor.start]
      cases (live.db.getOpenPositions.find? fun held => held.positionId = id) with
      | none => exact peaked_empty []
      | some held => exact ⟨rfl, shows_nil.skip rfl⟩

/-- What is kept right after a sweep has begun is of positions it lists. -/
theorem sweep_prunes (h : m.step .sweep = some m') :
    ∃ ts opens, m.phase = .read ts opens ∧
      ∀ id, m'.states id ≠ none → id ∈ opens.map HeldPosition.positionId := by
  cases step_stepped h with
  | @sweep ts opens hphase =>
    refine ⟨ts, opens, hphase, fun id hid => ?_⟩
    by_contra hnot
    exact hid (if_neg hnot)

/-- Over every run, the peak handed to the exit section on a mark that is not thin
is the highest of the seed and of the guarded marks seen up to then, as long as the
position is open, and so never goes down; and a sweep keeps nothing of a position
it does not list. -/
theorem peak_is_highest_mark {live : LiveState} {snapshots : Option (List OrderBookSnapshot)}
    {es : List ExitEvent} (hids : (live.db.positions.map PositionRow.id).Nodup)
    (h : Run (guarded (fun _ e => e.Positive) ExitStep) (.boot exit live snapshots) es m) :
    (∀ id, m.stillOpen id = true →
      Shows MarkRecord.mark MarkRecord.handed (m.records id) ∧
        ((m.records id).filterMap MarkRecord.handed).Pairwise fun later earlier => earlier ≤ later) ∧
    ∀ m', m.step .sweep = some m' → ∃ ts opens, m.phase = .read ts opens ∧
      ∀ id, m'.states id ≠ none → id ∈ opens.map HeldPosition.positionId := by
  have hinv : PeakInv m ∧ m.PhaseOk m.phase := by
    have hphase : (ExitMonitor.boot exit live snapshots).PhaseOk
        (ExitMonitor.boot exit live snapshots).phase := by
      cases snapshots <;> trivial
    refine @Run.invariant _ _ _ _ _ _ (fun m => PeakInv m ∧ m.PhaseOk m.phase) ?_ h
      ⟨peakInv_boot exit hids snapshots, hphase⟩
    rintro m e m' ⟨hpeak, hphase⟩ ⟨he, hstep⟩
    exact peakInv_step hpeak hphase he hstep
  refine ⟨fun id ho => ?_, fun m' hstep => sweep_prunes hstep⟩
  have hshows := (hinv.1.peaked id ho).shows
  exact ⟨hshows, hshows.pairwise⟩

def bidAt (price t : ℚ) : OrderBook := ⟨"t1", t, [(price, 10)], [(price + 1 / 100, 10)]⟩

def bidSight (price t : ℚ) : Sight := ⟨t, some ⟨⟨bidAt price t, t⟩, t⟩, false, t⟩

/-- A snapshot taken since the position was opened, and a higher one from before. -/
def seedSnapshots : List OrderBookSnapshot :=
  [⟨"t1", 5, [(3 / 5, 10)]⟩, ⟨"t1", -1, [(9 / 10, 10)]⟩]

def partCatalog : Catalog where
  markets := fun _ => none
  books := fun _ => some (bidAt (2 / 5) 30)

/-- The close of the tick at 30: ten of the twenty shares are bid for. -/
def partSell (trigger : Trigger) : SellRequest :=
  .paper { catalog := partCatalog, gone := fun _ => false, usable := fun _ => true,
           position := thinRow.toHeld, closeReason := trigger.closeReason, ts := 30,
           trigger := some trigger.name, floorPrice := some (2 / 5) }

/-- Held below its seed, observed higher, seen thin, half sold, and held again. -/
def peakedRun : List ExitEvent :=
  heldTick 10 (bidSight (11 / 20) 10) ++ [.observe (bidAt (13 / 20) 15)] ++
    heldTick 20 (thinSight 20) ++
    [.readOpens 30, .sweep, .evaluate (bidSight (2 / 5) 30) 30, .execute (partSell .stopLoss),
      .finish 30 none, .tickDone] ++
    [.readOpens 40, .sweep, .evaluate (bidSight (16 / 25) 40) 40]

theorem peak_is_highest_mark_sample :
    ∃ m, Run ExitStep (.boot (.v1 defaultStop) thinLive (some seedSnapshots)) peakedRun m ∧
      m.live.db.positions.map PositionRow.qty = [10] ∧
      (m.records 1).filterMap MarkRecord.handed = [13 / 20, 13 / 20, 3 / 5] ∧
      Shows MarkRecord.mark MarkRecord.handed (m.records 1) := by
  have hsome : (peakedRun.foldlM ExitMonitor.step
      (.boot (.v1 defaultStop) thinLive (some seedSnapshots))).isSome = true := by
    decide +kernel
  obtain ⟨m, hm⟩ := Option.isSome_iff_exists.mp hsome
  have hread : (peakedRun.foldlM ExitMonitor.step
      (.boot (.v1 defaultStop) thinLive (some seedSnapshots))).map (fun m =>
        (m.stillOpen 1, m.live.db.positions.map PositionRow.qty,
          (m.records 1).filterMap MarkRecord.handed)) =
        some (true, [10], [13 / 20, 13 / 20, 3 / 5]) := by
    decide +kernel
  rw [hm] at hread
  simp only [Option.map_some, Option.some.injEq, Prod.mk.injEq] at hread
  have hrun : Run ExitStep (.boot (.v1 defaultStop) thinLive (some seedSnapshots)) peakedRun m :=
    run_foldlM _ hm
  have hids : (thinLive.db.positions.map PositionRow.id).Nodup := by decide
  have hpositive : ∀ e ∈ peakedRun, ∀ _ : ExitMonitor, e.Positive := by
    intro e he _
    cases e with
    | ledger e => simp [peakedRun, heldTick] at he
    | _ => trivial
  refine ⟨m, hrun, hread.2.1, hread.2.2, ?_⟩
  exact ((peak_is_highest_mark hids (hrun.guard hpositive)).1 1 hread.1).1

end OpenPoly
