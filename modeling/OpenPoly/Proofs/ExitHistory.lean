import OpenPoly.Proofs.ExitOutcome

/-! Over every run of the monitor, what it remembers of a position is the fold of the
position's history; and a position that has gone is not evaluated again. -/

namespace OpenPoly

open Transition

variable {w w' : WatchedExits} {m : ExitMonitor} {e : ExitEvent} {tick : ℚ} {id : ℕ}

def Db.Gone (db : Db) (id : ℕ) : Prop := id ∈ db.positions.map PositionRow.id ∧ ¬ db.IsOpen id

theorem attempt_known {db : Db} (h : id ∈ db.positions.map PositionRow.id) (e : Attempt) :
    id ∈ (db.attempt e).positions.map PositionRow.id := by
  obtain ⟨p, hp⟩ := Db.get_of_known h
  rcases attempt_get hp e with hsame | ⟨-, -, ⟨a, -, hnew⟩ | ⟨a, -, hnew⟩⟩
  · exact Db.known_of_get hsame
  · exact Db.known_of_get hnew
  · exact Db.known_of_get hnew

theorem attempt_gone {db : Db} (hids : (db.positions.map PositionRow.id).Nodup) (h : db.Gone id) (e : Attempt) :
    (db.attempt e).Gone id := by
  refine ⟨attempt_known h.1 e, ?_⟩
  rintro ⟨q, hq, hid, ho⟩
  obtain ⟨p, hp⟩ := Db.get_of_known h.1
  have hclosed : p.status ≠ .open := fun hopen => h.2 ⟨p, (Db.get_mem hp).1, (Db.get_mem hp).2, hopen⟩
  rcases attempt_get hp e with hsame | ⟨-, hopen, -⟩
  · have hget := Db.get_of_mem (attempt_ids hids e) hq
    rw [hid, hsame] at hget
    exact hclosed (Option.some.inj hget ▸ ho)
  · exact hclosed hopen

/-- The positions a phase is still to evaluate or is evaluating. -/
def TickPhase.pending : TickPhase → List HeldPosition
  | .idle => []
  | .read _ opens => opens
  | .sweeping _ rest => rest
  | .refetching _ held _ rest => held :: rest
  | .selling _ held _ rest => held :: rest
  | .sold _ held _ _ rest => held :: rest

def TickPhase.selling? : TickPhase → Option ℕ
  | .selling _ held _ _ => some held.positionId
  | .sold _ held _ _ _ => some held.positionId
  | _ => none

def marksOf (tick : ℚ) (history : List Evaluation) : SlotMarks :=
  history.foldr (fun e m => e.outcome.mark tick m) {}

/-- The marks are those of the history, less the hold reason while a sell is under way. -/
def WatchedExits.Marked (w : WatchedExits) (id : ℕ) : Prop :=
  (w.monitor.slot id).marks =
    if w.monitor.phase.selling? = some id then { marksOf w.monitor.tick (w.history id) with holdReason := none }
    else marksOf w.monitor.tick (w.history id)

/-- Each evaluation wrote what it may on the marks of those before it. -/
def Written (tick : ℚ) (id : ℕ) : List Evaluation → Prop
  | [] => True
  | e :: history => Writes e.outcome (marksOf tick history) id e.rows ∧ Written tick id history

structure WatchedExits.Keeps (w : WatchedExits) : Prop where
  ids : (w.monitor.live.db.positions.map PositionRow.id).Nodup
  known : ∀ id, w.history id ≠ [] → id ∈ w.monitor.live.db.positions.map PositionRow.id
  pending : ∀ held ∈ w.monitor.phase.pending,
    held.positionId ∈ w.monitor.live.db.positions.map PositionRow.id
  listed : ∀ ts opens, w.monitor.phase = .read ts opens → ∀ id, w.history id ≠ [] →
    id ∈ opens.map HeldPosition.positionId ∨ w.monitor.live.db.Gone id
  marks : ∀ id, w.Marked id ∨
    w.monitor.live.db.Gone id ∧ id ∉ w.monitor.phase.pending.map HeldPosition.positionId
  written : ∀ id, Written w.monitor.tick id (w.history id)

/-- What an event changes of a monitor whose evaluations it leaves alone. -/
structure Leaves (m m' : ExitMonitor) : Prop where
  phase : m'.phase.pending = m.phase.pending
  selling : m'.phase.selling? = m.phase.selling?
  unread : ∀ ts opens, m'.phase = .read ts opens → m.phase = .read ts opens
  marks : ∀ id, (m'.slot id).marks = (m.slot id).marks
  tick : m'.tick = m.tick
  db : m'.live.db = m.live.db ∨ ∃ e, m'.live.db = m.live.db.attempt e

theorem Leaves.known {m m' : ExitMonitor} (h : Leaves m m') (hid : id ∈ m.live.db.positions.map PositionRow.id) :
    id ∈ m'.live.db.positions.map PositionRow.id := by
  rcases h.db with hdb | ⟨e, hdb⟩
  · rwa [hdb]
  · rw [hdb]
    exact attempt_known hid e

theorem Leaves.gone {m m' : ExitMonitor} (h : Leaves m m') (hids : (m.live.db.positions.map PositionRow.id).Nodup)
    (hid : m.live.db.Gone id) : m'.live.db.Gone id := by
  rcases h.db with hdb | ⟨e, hdb⟩
  · rwa [hdb]
  · rw [hdb]
    exact attempt_gone hids hid e

theorem WatchedExits.Keeps.leave {m' : ExitMonitor} (h : w.Keeps) (hm : Leaves w.monitor m') :
    (⟨m', w.history⟩ : WatchedExits).Keeps where
  ids := by
    rcases hm.db with hdb | ⟨e, hdb⟩
    · exact hdb ▸ h.ids
    · exact hdb ▸ attempt_ids h.ids e
  known id hid := hm.known (h.known id hid)
  pending held hheld := hm.known (h.pending held (hm.phase ▸ hheld))
  listed ts opens hphase id hid := (h.listed ts opens (hm.unread ts opens hphase) id hid).imp_right (hm.gone h.ids)
  marks id := by
    refine (h.marks id).imp (fun hmarked => ?_) fun hgone => ⟨hm.gone h.ids hgone.1, hm.phase ▸ hgone.2⟩
    show (m'.slot id).marks = _
    rw [hm.marks, hmarked]
    show _ = if m'.phase.selling? = some id then _ else _
    rw [hm.selling, hm.tick]
  written id := hm.tick ▸ h.written id

theorem observe_marks (m : ExitMonitor) (book : OrderBook) (id : ℕ) :
    ((m.observeBook book).slot id).marks = (m.slot id).marks := by
  have hraise : ∀ (p : PositionState) (bid : ℚ), (raisePeak p bid).holdReason = p.holdReason ∧
      (raisePeak p bid).errorKey = p.errorKey ∧ (raisePeak p bid).backoff = p.backoff ∧
      (raisePeak p bid).dust = p.dust := by
    intro p bid
    unfold raisePeak
    split_ifs <;> exact ⟨rfl, rfl, rfl, rfl⟩
  unfold ExitMonitor.observeBook
  cases guardedMark book.bids with
  | none => rfl
  | some mark =>
    by_cases hid : id ∈ m.watch book.tokenId
    · obtain ⟨hhold, herror, hbackoff, hdust⟩ := hraise ((m.states id).getD {}) mark
      simp [Slot.marks, ExitMonitor.slot, Slot.position, hid, hhold, herror, hbackoff, hdust]
    · simp [Slot.marks, ExitMonitor.slot, Slot.position, hid]

theorem observe_leaves (m : ExitMonitor) (book : OrderBook) : Leaves m (m.observeBook book) := by
  have hsame : (m.observeBook book).phase = m.phase ∧ (m.observeBook book).tick = m.tick ∧
      (m.observeBook book).live = m.live := by
    unfold ExitMonitor.observeBook
    split <;> exact ⟨rfl, rfl, rfl⟩
  exact ⟨by rw [hsame.1], by rw [hsame.1], fun ts opens h => hsame.1 ▸ h, observe_marks m book, hsame.2.1,
    .inl (by rw [hsame.2.2])⟩

theorem db_leaves (m : ExitMonitor) {live : LiveState} (h : ∃ e, live.db = m.live.db.attempt e) :
    Leaves m { m with live := live } :=
  ⟨rfl, rfl, fun _ _ h => h, fun _ => rfl, rfl, .inr h⟩

theorem WatchedExits.Keeps.read (h : w.Keeps) {ts : ℚ} (hphase : w.monitor.phase = .idle) :
    (⟨{ w.monitor with phase := .read ts w.monitor.live.db.getOpenPositions }, w.history⟩ :
      WatchedExits).Keeps where
  ids := h.ids
  known := h.known
  pending held hheld := (bounds_of_open h.ids held hheld).1
  listed ts opens heq id hid := by
    obtain ⟨-, rfl⟩ := TickPhase.read.inj heq
    rw [← isOpen_iff_mem]
    by_cases ho : w.monitor.live.db.IsOpen id
    · exact .inl ho
    · exact .inr ⟨h.known id hid, ho⟩
  marks id := by
    refine (h.marks id).imp (fun hmarked => ?_) fun hgone => ⟨hgone.1, ?_⟩
    · unfold Marked at hmarked ⊢
      rw [hphase] at hmarked
      exact hmarked
    · exact fun hmem => hgone.1.2 ((isOpen_iff_mem _ _).mpr hmem)
  written := h.written

theorem WatchedExits.Keeps.sweep (h : w.Keeps) {ts : ℚ} {opens : List HeldPosition}
    (hphase : w.monitor.phase = .read ts opens) :
    (⟨w.monitor.beginSweep ts opens, w.history⟩ : WatchedExits).Keeps where
  ids := h.ids
  known := h.known
  pending held hheld := h.pending held (hphase ▸ hheld)
  listed ts opens heq := by cases heq
  marks id := by
    by_cases hmem : id ∈ opens.map HeldPosition.positionId
    · rcases h.marks id with hmarked | hgone
      · refine .inl ?_
        unfold Marked at hmarked ⊢
        rw [hphase] at hmarked
        refine Eq.trans ?_ hmarked
        unfold ExitMonitor.slot ExitMonitor.beginSweep
        dsimp only
        rw [if_pos hmem]
      · rw [hphase] at hgone
        exact absurd hmem hgone.2
    · by_cases hnil : w.history id = []
      · refine .inl ?_
        unfold Marked ExitMonitor.slot ExitMonitor.beginSweep
        dsimp only
        rw [if_neg hmem, hnil]
        rfl
      · exact .inr ⟨(h.listed ts opens hphase id hnil).resolve_left hmem, hmem⟩
  written := h.written

/-- An evaluation of `held` that is over. -/
theorem WatchedExits.Keeps.extend {m' : ExitMonitor} {held : HeldPosition} {rest : List HeldPosition} {o : ExitOutcome}
    {rows : List ExitDecision} (h : w.Keeps) (hpending : w.monitor.phase.pending = held :: rest)
    (hmarks : (m'.slot held.positionId).marks =
      o.mark w.monitor.tick (marksOf w.monitor.tick (w.history held.positionId)))
    (hwrites : Writes o (marksOf w.monitor.tick (w.history held.positionId)) held.positionId rows)
    (hothers : ∀ id, id ≠ held.positionId → (m'.slot id).marks = (w.monitor.slot id).marks)
    (hselling : ∀ id, id ≠ held.positionId → w.monitor.phase.selling? ≠ some id)
    (hphase : ∃ ts, m'.phase = .sweeping ts rest) (hdb : m'.live.db = w.monitor.live.db)
    (htick : m'.tick = w.monitor.tick) :
    (⟨m', Function.update w.history held.positionId (⟨o, rows⟩ :: w.history held.positionId)⟩ :
      WatchedExits).Keeps where
  ids := hdb ▸ h.ids
  known id hid := by
    show id ∈ m'.live.db.positions.map PositionRow.id
    rw [hdb]
    by_cases heq : id = held.positionId
    · subst heq
      exact h.pending held (hpending ▸ List.mem_cons_self)
    · exact h.known id (by simpa [heq] using hid)
  pending x hx := by
    obtain ⟨ts, hphase⟩ := hphase
    rw [hphase] at hx
    rw [hdb]
    exact h.pending x (hpending ▸ List.mem_cons_of_mem _ hx)
  listed ts opens heq := by
    obtain ⟨ts', hphase⟩ := hphase
    rw [hphase] at heq
    cases heq
  marks id := by
    obtain ⟨ts, hphase⟩ := hphase
    have hnone : m'.phase.selling? ≠ some id := by
      rw [hphase]
      exact fun h => by cases h
    by_cases heq : id = held.positionId
    · subst heq
      refine .inl ?_
      unfold Marked
      dsimp only
      rw [if_neg hnone, Function.update_self, hmarks, htick]
      rfl
    · refine (h.marks id).imp (fun hmarked => ?_) fun hgone => ⟨hdb ▸ hgone.1, ?_⟩
      · unfold Marked at hmarked ⊢
        dsimp only
        rw [if_neg hnone, Function.update_of_ne heq, hothers id heq, htick]
        rwa [if_neg (hselling id heq)] at hmarked
      · rw [hphase]
        rw [hpending] at hgone
        exact fun hmem => hgone.2 (List.mem_cons_of_mem _ hmem)
  written id := by
    show Written m'.tick id (Function.update w.history held.positionId _ id)
    rw [htick]
    by_cases heq : id = held.positionId
    · subst heq
      rw [Function.update_self]
      exact ⟨hwrites, h.written _⟩
    · rw [Function.update_of_ne heq]
      exact h.written id

/-- An evaluation that waits, for a book or for a sell. -/
theorem WatchedExits.Keeps.wait {m' : ExitMonitor} {held : HeldPosition} {rest : List HeldPosition}
    (h : w.Keeps) (hpending : w.monitor.phase.pending = held :: rest)
    (hmarks : (m'.slot held.positionId).marks =
      if m'.phase.selling? = some held.positionId then
        { marksOf w.monitor.tick (w.history held.positionId) with holdReason := none }
      else marksOf w.monitor.tick (w.history held.positionId))
    (hothers : ∀ id, id ≠ held.positionId → (m'.slot id).marks = (w.monitor.slot id).marks)
    (hselling : ∀ id, id ≠ held.positionId → w.monitor.phase.selling? ≠ some id ∧ m'.phase.selling? ≠ some id)
    (hphase : m'.phase.pending = held :: rest) (hunread : ∀ ts opens, m'.phase ≠ .read ts opens)
    (hdb : m'.live.db = w.monitor.live.db) (htick : m'.tick = w.monitor.tick) :
    (⟨m', w.history⟩ : WatchedExits).Keeps where
  ids := hdb ▸ h.ids
  known id hid := hdb ▸ h.known id hid
  pending x hx := hdb ▸ h.pending x (by rw [hpending]; exact hphase ▸ hx)
  listed ts opens heq := absurd heq (hunread ts opens)
  marks id := by
    by_cases heq : id = held.positionId
    · subst heq
      refine .inl ?_
      show (m'.slot held.positionId).marks = _
      rw [hmarks, htick]
    · refine (h.marks id).imp (fun hmarked => ?_) fun hgone => ⟨hdb ▸ hgone.1, ?_⟩
      · show (m'.slot id).marks = _
        rw [if_neg (hselling id heq).2, hothers id heq, htick]
        unfold Marked at hmarked
        rwa [if_neg (hselling id heq).1] at hmarked
      · rw [hphase, ← hpending]
        exact hgone.2
  written id := htick ▸ h.written id

/-- A position that is pending is marked. -/
theorem WatchedExits.Keeps.marked (h : w.Keeps) {held : HeldPosition} (hmem : held ∈ w.monitor.phase.pending) :
    w.Marked held.positionId :=
  (h.marks held.positionId).resolve_right fun hgone => hgone.2 (List.mem_map_of_mem hmem)

theorem setSlot_marks_of_ne (m : ExitMonitor) {id id' : ℕ} (s : Slot) (h : id' ≠ id) :
    ((m.setSlot id s).slot id').marks = (m.slot id').marks := by
  simp [ExitMonitor.setSlot, ExitMonitor.slot, Slot.marks, Slot.position, h]

/-- Where an evaluation leaves the monitor, by its outcome. -/
theorem WatchedExits.Keeps.advance {ts : ℚ} {held : HeldPosition} {rest : List HeldPosition} {out : Next × Slot}
    {o : ExitOutcome} (h : w.Keeps) (hpending : w.monitor.phase.pending = held :: rest)
    (hselling : w.monitor.phase.selling? = none)
    (heffect : OutcomeEffect w.monitor.tick o held.positionId (w.monitor.slot held.positionId) out.2)
    (hleads : o.Leads out.1) :
    (⟨w.monitor.advance ts held rest out,
      if o.isPlaced then w.history
      else Function.update w.history held.positionId
        (⟨o, (w.monitor.advance ts held rest out).log.drop w.monitor.log.length⟩ :: w.history held.positionId)⟩ :
      WatchedExits).Keeps := by
  have hbefore : (w.monitor.slot held.positionId).marks = marksOf w.monitor.tick (w.history held.positionId) := by
    have hmarked := h.marked (hpending ▸ List.mem_cons_self : held ∈ w.monitor.phase.pending)
    unfold Marked at hmarked
    rwa [hselling, if_neg (by simp)] at hmarked
  have hslot : ∀ id, ((w.monitor.advance ts held rest out).slot id).marks =
      ((w.monitor.setSlot held.positionId out.2).slot id).marks :=
    fun id => congrArg Slot.marks (advance_slot w.monitor ts held rest out id)
  have hself : ((w.monitor.advance ts held rest out).slot held.positionId).marks = out.2.marks := by
    rw [hslot, setSlot_slot]
  have hothers : ∀ id, id ≠ held.positionId →
      ((w.monitor.advance ts held rest out).slot id).marks = (w.monitor.slot id).marks :=
    fun id hne => (hslot id).trans (setSlot_marks_of_ne _ _ hne)
  have hnever : ∀ id, id ≠ held.positionId → w.monitor.phase.selling? ≠ some id := by
    intro id _
    rw [hselling]
    exact fun h => by cases h
  cases hplaced : o.isPlaced with
  | false =>
    rw [if_neg Bool.false_ne_true]
    obtain ⟨blocked, hdone⟩ := hleads.2 hplaced
    obtain ⟨rows, hlog, hwrites⟩ := heffect.log
    have hrows : (w.monitor.advance ts held rest out).log.drop w.monitor.log.length = rows := by
      rw [advance_log, hlog]
      exact List.drop_left
    rw [hrows]
    rw [hbefore] at hwrites
    refine h.extend hpending ?_ hwrites hothers hnever ⟨ts, ?_⟩ ?_ ?_
    · rw [hself, heffect.marks, hbefore]
    · simp [ExitMonitor.advance, hdone]
    · simp [ExitMonitor.advance, hdone, ExitMonitor.setSlot]
    · simp [ExitMonitor.advance, hdone, ExitMonitor.setSlot]
  | true =>
    rw [if_pos rfl]
    obtain ⟨order, clock, rfl⟩ := isPlaced_iff.mp hplaced
    have hsell : out.1 = .sell order := hleads.1 order clock rfl
    have hphase : (w.monitor.advance ts held rest out).phase = .selling ts held order rest := by
      simp [ExitMonitor.advance, hsell]
    refine h.wait hpending ?_ hothers (fun id hne => ⟨hnever id hne, ?_⟩) (by rw [hphase]; rfl)
      (fun _ _ heq => by rw [hphase] at heq; cases heq) ?_ ?_
    · rw [hself, heffect.marks, hbefore, hphase]
      exact (if_pos rfl).symm
    · rw [hphase]
      exact fun heq => hne (Option.some.inj heq).symm
    · simp [ExitMonitor.advance, hsell, ExitMonitor.setSlot]
    · simp [ExitMonitor.advance, hsell, ExitMonitor.setSlot]

/-- An evaluation that waits for a book. -/
theorem WatchedExits.Keeps.refetch {ts : ℚ} {held : HeldPosition} {rest : List HeldPosition} {out : Next × Slot}
    (h : w.Keeps) (hpending : w.monitor.phase.pending = held :: rest) (hselling : w.monitor.phase.selling? = none)
    (halike : (w.monitor.slot held.positionId).Alike out.2) (hnext : ∃ d age, out.1 = .refetch d age) :
    (⟨w.monitor.advance ts held rest out, w.history⟩ : WatchedExits).Keeps := by
  obtain ⟨d, age, hnext⟩ := hnext
  have hphase : (w.monitor.advance ts held rest out).phase = .refetching ts held d rest := by
    simp [ExitMonitor.advance, hnext]
  have hslot : ∀ id, ((w.monitor.advance ts held rest out).slot id).marks = (w.monitor.slot id).marks := by
    intro id
    rw [advance_slot]
    by_cases hid : id = held.positionId
    · subst hid
      rw [setSlot_slot, halike.1]
    · exact setSlot_marks_of_ne _ _ hid
  refine h.leave ⟨by rw [hphase, hpending]; rfl, by rw [hphase, hselling]; rfl, ?_, hslot, ?_, .inl ?_⟩
  · exact fun _ _ heq => by rw [hphase] at heq; cases heq
  · simp [ExitMonitor.advance, hnext, ExitMonitor.setSlot]
  · simp [ExitMonitor.advance, hnext, ExitMonitor.setSlot]

theorem WatchedExits.Keeps.finish {ts clock : ℚ} {held : HeldPosition} {order : SellOrder} {r : ExecResult}
    {rest : List HeldPosition} {outage : Option PyErr} {closing : List ℕ} (h : w.Keeps)
    (hphase : w.monitor.phase = .sold ts held order (.ok r) rest) :
    (⟨({ w.monitor with closing := closing } : ExitMonitor).finishSell ts held order rest clock outage r,
      Function.update w.history held.positionId
        (⟨r.outcome order clock, (({ w.monitor with closing := closing } : ExitMonitor).finishSell ts held order
          rest clock outage r).log.drop w.monitor.log.length⟩ :: w.history held.positionId)⟩ :
      WatchedExits).Keeps := by
  have hmarked := h.marked (hphase ▸ List.mem_cons_self : held ∈ w.monitor.phase.pending)
  unfold Marked at hmarked
  rw [hphase] at hmarked
  replace hmarked := hmarked.trans (if_pos rfl)
  -- the outcome does not look at the hold reason, which the sell has already cleared
  have hmark : ∀ m : SlotMarks, (r.outcome order clock).mark w.monitor.tick { m with holdReason := none } =
      (r.outcome order clock).mark w.monitor.tick m := by
    intro m
    unfold ExecResult.outcome
    split_ifs <;> rfl
  have hwritten : ∀ (m : SlotMarks) (rows : List ExitDecision),
      Writes (r.outcome order clock) { m with holdReason := none } held.positionId rows →
      Writes (r.outcome order clock) m held.positionId rows := by
    intro m rows hw
    refine ⟨hw.one, fun d hd hok => ?_⟩
    obtain ⟨hkey, hwr, hid⟩ := hw.row d hd hok
    refine ⟨hkey, ?_, hid⟩
    unfold ExecResult.outcome at hwr ⊢
    split_ifs at hwr ⊢ <;> exact hwr
  set m : ExitMonitor := { w.monitor with closing := closing } with hm
  have heffect : OutcomeEffect w.monitor.tick (r.outcome order clock) held.positionId (w.monitor.slot held.positionId)
      ((m.finishSell ts held order rest clock outage r).slot held.positionId) := by
    have hslot : (m.finishSell ts held order rest clock outage r).slot held.positionId =
        (w.monitor.slot held.positionId).finishClose held ts clock order r (m.soldOut held r)
          (m.realized held r outage) m.tick := setSlot_slot m held.positionId _
    rw [hslot]
    exact finishClose_effect _ (by rw [hmarked])
  obtain ⟨rows, hlog, hwrites⟩ := heffect.log
  have hrows : (m.finishSell ts held order rest clock outage r).log.drop w.monitor.log.length = rows := by
    rw [show (m.finishSell ts held order rest clock outage r).log = w.monitor.log ++ rows from hlog]
    exact List.drop_left
  rw [hrows]
  refine h.extend (hphase ▸ rfl) ?_ (hwritten _ _ (hmarked ▸ hwrites)) (fun id hne => ?_) (fun id hne heq => ?_)
    ⟨ts, rfl⟩ rfl rfl
  · rw [heffect.marks, hmarked, hmark]
  · exact setSlot_marks_of_ne m _ hne
  · rw [hphase] at heq
    exact hne (Option.some.inj heq).symm

/-- A sell that raised. -/
theorem WatchedExits.Keeps.raise {ts : ℚ} {held : HeldPosition} {order : SellOrder} {exc : PyErr}
    {rest : List HeldPosition} {closing : List ℕ} (h : w.Keeps)
    (hphase : w.monitor.phase = .sold ts held order (.error exc) rest) :
    (⟨{ w.monitor with
        closing := closing
        phase := .sweeping ts rest
        log := w.monitor.log ++ [{ held.row ts .error with error := some (.raised exc) }] },
      Function.update w.history held.positionId
        (⟨.raised exc, (w.monitor.log ++ [{ held.row ts .error with error := some (.raised exc) }]).drop
          w.monitor.log.length⟩ :: w.history held.positionId)⟩ : WatchedExits).Keeps := by
  have hmarked := h.marked (hphase ▸ List.mem_cons_self : held ∈ w.monitor.phase.pending)
  unfold Marked at hmarked
  rw [hphase] at hmarked
  replace hmarked := hmarked.trans (if_pos rfl)
  rw [List.drop_left]
  refine h.extend (hphase ▸ rfl) hmarked (writes_one fun _ => ⟨rfl, rfl, rfl⟩) (fun id _ => rfl)
    (fun id hne heq => ?_) ⟨ts, rfl⟩ rfl rfl
  rw [hphase] at heq
  exact hne (Option.some.inj heq).symm

theorem history_step (h : w.Keeps) (hstep : w.step e = some w') : w'.Keeps := by
  obtain ⟨m', hm', rfl⟩ := Option.map_eq_some_iff.mp hstep
  unfold WatchedExits.extended
  cases step_stepped hm' with
  | readOpens hphase => exact h.read hphase
  | sweep hphase => exact h.sweep hphase
  | @evaluate sight clock ts held rest hphase hreads =>
    have hpending : w.monitor.phase.pending = held :: rest := by rw [hphase]; rfl
    have hselling : w.monitor.phase.selling? = none := by rw [hphase]; rfl
    simp only [ExitMonitor.outcome, hphase]
    cases ho : (w.monitor.slot held.positionId).evaluateOutcome w.monitor.exit held
        (w.monitor.grounds held.positionId clock) sight with
    | none =>
      obtain ⟨halike, hnext⟩ := evaluate_refetches ho
      exact h.refetch hpending hselling halike hnext
    | some o =>
      obtain ⟨heffect, hleads⟩ := evaluate_effect w.monitor.tick ho
      exact h.advance hpending hselling heffect hleads
  | @refetched r clock ts held d rest hphase hreads =>
    have hpending : w.monitor.phase.pending = held :: rest := by rw [hphase]; rfl
    have hselling : w.monitor.phase.selling? = none := by rw [hphase]; rfl
    simp only [ExitMonitor.outcome, hphase]
    obtain ⟨heffect, hleads⟩ := confirm_effect w.monitor.tick (w.monitor.slot held.positionId) d
    exact h.advance hpending hselling heffect hleads
  | @execute request ts held order rest hphase hfor =>
    refine h.leave ⟨by rw [hphase]; rfl, by rw [hphase]; rfl, fun _ _ heq => (by cases heq), fun _ => rfl, rfl,
      .inr (request_writes w.monitor.live request).attempt⟩
  | @raised clock outage ts held order exc rest hphase =>
    simp only [ExitMonitor.outcome, hphase]
    exact h.raise hphase
  | @finish clock outage ts held order r rest hphase =>
    have hplaced : (r.outcome order clock).isPlaced = false := by
      unfold ExecResult.outcome
      split_ifs <;> rfl
    simp only [ExitMonitor.outcome, hphase, hplaced, Bool.false_eq_true, if_false]
    exact h.finish hphase
  | tickDone hphase =>
    exact h.leave ⟨by rw [hphase]; rfl, by rw [hphase]; rfl, fun _ _ heq => (by cases heq), fun _ => rfl, rfl,
      .inl rfl⟩
  | observe => exact h.leave (observe_leaves _ _)
  | replaceExit => exact h.leave ⟨rfl, rfl, fun _ _ heq => heq, fun _ => rfl, rfl, .inl rfl⟩
  | ledger => exact h.leave (db_leaves _ ⟨_, rfl⟩)
  | trade => exact h.leave (db_leaves _ (liveCall_attempt _ _))
  | mark => exact h.leave ⟨rfl, rfl, fun _ _ heq => heq, fun _ => rfl, rfl, .inl rfl⟩
  | clear => exact h.leave ⟨rfl, rfl, fun _ _ heq => heq, fun _ => rfl, rfl, .inl rfl⟩

theorem keeps_boot (exit : ExitSection) {live : LiveState} (hids : (live.db.positions.map PositionRow.id).Nodup)
    (snapshots : Option (List OrderBookSnapshot)) (tick : ℚ) : (WatchedExits.boot exit live snapshots tick).Keeps := by
  have hphase : (ExitMonitor.boot exit live snapshots).phase = .idle := by
    cases snapshots <;> rfl
  have hlive : (ExitMonitor.boot exit live snapshots).live = live := by
    cases snapshots <;> rfl
  refine ⟨?_, fun _ hid => absurd rfl hid, fun held hheld => ?_, fun ts opens heq => ?_, fun id => .inl ?_,
    fun _ => trivial⟩
  · show ((ExitMonitor.boot exit live snapshots).live.db.positions.map PositionRow.id).Nodup
    rwa [hlive]
  · have hheld : held ∈ (ExitMonitor.boot exit live snapshots).phase.pending := hheld
    rw [hphase] at hheld
    cases hheld
  · have heq : (ExitMonitor.boot exit live snapshots).phase = .read ts opens := heq
    rw [hphase] at heq
    cases heq
  · have hmarks : ((ExitMonitor.boot exit live snapshots).slot id).marks = {} := by
      cases snapshots with
      | none => rfl
      | some snapshots =>
        simp only [ExitMonitor.boot, ExitMonitor.bootstrapPeaks, ExitMonitor.slot, ExitMonitor.start]
        cases live.db.getOpenPositions.find? fun held => held.positionId = id <;> rfl
    unfold WatchedExits.Marked
    rw [show (WatchedExits.boot exit live snapshots tick).monitor.phase = .idle from hphase]
    exact hmarks

/-- What holds over every run from the start of the process. -/
theorem keeps_run {exit : ExitSection} {live : LiveState} (hids : (live.db.positions.map PositionRow.id).Nodup)
    {snapshots : Option (List OrderBookSnapshot)} {es : List ExitEvent}
    (run : Run (fun w e w' => w.step e = some w') (WatchedExits.boot exit live snapshots tick) es w) : w.Keeps :=
  run.invariant (fun _ _ _ hw hstep => history_step hw hstep) (keeps_boot exit hids snapshots tick)

end OpenPoly
