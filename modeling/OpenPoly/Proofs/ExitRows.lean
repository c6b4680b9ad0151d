import OpenPoly.Proofs.Backoff

/-! Which rows of the exit log repeat. A row written through a dedupe slot, or for a
position that has gone, is not written again before the position comes to something else;
two branches write theirs at every evaluation. -/

namespace OpenPoly

open Transition

/-- The evaluation says nothing of the position: a book without bids, or a close that is
backing off. -/
def ExitOutcome.silent : ExitOutcome → Bool
  | .noBids => true
  | .close _ _ .backingOff => true
  | _ => false

def ExitOutcome.Differs (o : ExitOutcome) (key : RowKey) : Prop := o.silent = false ∧ o.key? ≠ some key

def Evaluation.WroteRow (e : Evaluation) (key : RowKey) : Prop :=
  ∃ d ∈ e.rows, d.verdict ≠ .ok ∧ d.key = key

/-- The row was written, and no evaluation since came to something else. -/
def Stands (key : RowKey) (history : List Evaluation) : Prop :=
  ∃ between e older, history = between ++ e :: older ∧ e.WroteRow key ∧
    ∀ x ∈ between, ¬ x.outcome.Differs key

def OncePerReason : List Evaluation → Prop
  | [] => True
  | e :: older => (∀ key, e.WroteRow key → ¬ Stands key older) ∧ OncePerReason older

theorem stands_cons {key : RowKey} {e : Evaluation} {older : List Evaluation} (h : Stands key (e :: older)) :
    e.WroteRow key ∨ ¬ e.outcome.Differs key ∧ Stands key older := by
  obtain ⟨between, x, rest, heq, hwrote, hbetween⟩ := h
  cases between with
  | nil =>
    obtain ⟨rfl, rfl⟩ := List.cons.inj heq
    exact .inl hwrote
  | cons y between =>
    obtain ⟨rfl, rfl⟩ := List.cons.inj heq
    exact .inr ⟨hbetween _ List.mem_cons_self, between, x, rest, rfl, hwrote,
      fun z hz => hbetween z (List.mem_cons_of_mem _ hz)⟩

theorem OncePerReason.split {history newer between older : List Evaluation} {e₁ e₂ : Evaluation} {key : RowKey}
    (h : OncePerReason history) (heq : history = newer ++ e₂ :: (between ++ e₁ :: older))
    (h₁ : e₁.WroteRow key) (h₂ : e₂.WroteRow key) : ∃ e ∈ between, e.outcome.Differs key := by
  subst heq
  induction newer with
  | nil =>
    by_contra hnone
    exact h.1 key h₂ ⟨between, e₁, older, rfl, h₁, fun x hx hdiffers => hnone ⟨x, hx, hdiffers⟩⟩
  | cons _ newer ih => exact ih h.2

/-- The outcomes whose rows go through a dedupe slot. -/
def ExitOutcome.slotted : ExitOutcome → Bool
  | .dust => true
  | .held _ => true
  | .failed _ _ _ => true
  | _ => false

def RowKey.logged (key : RowKey) (m : SlotMarks) : Bool :=
  match key.reason, key.error with
  | some .dustRemainder, _ => m.dust
  | some (.hold reason), _ => m.holdReason = some reason
  | some .restingOrderPending, _ => m.errorKey = some .restingOrderPending
  | none, some (.notFilled reason) => m.errorKey = some (.notFilled reason)
  | _, _ => false

variable {tick : ℚ} {o : ExitOutcome} {key : RowKey} {m : SlotMarks}

theorem slotted_writes (hkey : o.key? = some key) (hslot : o.slotted = true) (hwrites : o.writes m = true) :
    key.logged m = false := by
  cases o with
  | dust =>
    obtain rfl := Option.some.inj hkey
    simpa [ExitOutcome.writes, RowKey.logged] using hwrites
  | held reason =>
    obtain rfl := Option.some.inj hkey
    simpa [ExitOutcome.writes, RowKey.logged] using hwrites
  | failed order clock failure =>
    cases failure with
    | restingOrderPending =>
      obtain rfl := Option.some.inj hkey
      simpa [ExitOutcome.writes, RowKey.logged] using hwrites
    | notFilled reason =>
      obtain rfl := Option.some.inj hkey
      simpa [ExitOutcome.writes, RowKey.logged] using hwrites
  | _ => cases hslot

theorem slotted_logged (hkey : o.key? = some key) (hslot : o.slotted = true) :
    key.logged (o.mark tick m) = true := by
  cases o with
  | dust =>
    obtain rfl := Option.some.inj hkey
    rfl
  | held reason =>
    obtain rfl := Option.some.inj hkey
    simp [ExitOutcome.mark, RowKey.logged]
  | failed order clock failure =>
    cases failure with
    | restingOrderPending =>
      obtain rfl := Option.some.inj hkey
      simp [ExitOutcome.mark, RowKey.logged]
    | notFilled reason =>
      obtain rfl := Option.some.inj hkey
      simp [ExitOutcome.mark, RowKey.logged]
  | _ => cases hslot

/-- A row outside the dedupe slots leaves no mark. -/
theorem unslotted_logged (hkey : o.key? = some key) (hslot : o.slotted = false) : key.logged m = false := by
  cases o with
  | close order clock start =>
    cases start with
    | noLongerOpen =>
      obtain rfl := Option.some.inj hkey
      rfl
    | inFlight =>
      obtain rfl := Option.some.inj hkey
      rfl
    | _ => cases hkey
  | raised exc =>
    obtain rfl := Option.some.inj hkey
    rfl
  | dust => cases hslot
  | held reason => cases hslot
  | failed order clock failure => cases hslot
  | _ => cases hkey

theorem silent_mark (h : o.silent = true) (m : SlotMarks) : o.mark tick m = m := by
  cases o with
  | noBids => rfl
  | close order clock start =>
    cases start with
    | backingOff => rfl
    | _ => cases h
  | _ => cases h

/-- A written row stays marked until the position comes to something else. -/
theorem mark_keeps (h : ¬ o.Differs key) (hm : key.logged m = true) : key.logged (o.mark tick m) = true := by
  by_cases hsilent : o.silent = true
  · rwa [silent_mark hsilent]
  · have hkey : o.key? = some key := by
      by_contra hne
      exact h ⟨Bool.not_eq_true _ ▸ hsilent, hne⟩
    cases hslot : o.slotted with
    | true => exact slotted_logged hkey hslot
    | false => rw [unslotted_logged hkey hslot] at hm; cases hm

theorem Evaluation.WroteRow.key? {e : Evaluation} {id : ℕ} (h : e.WroteRow key) (hw : Writes e.outcome m id e.rows) :
    e.outcome.key? = some key ∧ e.outcome.writes m = true := by
  obtain ⟨d, hd, hok, rfl⟩ := h
  exact ⟨(hw.row d hd hok).1, (hw.row d hd hok).2.1⟩

/-- The outcomes whose row another evaluation wrote share its dedupe slot. -/
theorem slotted_congr {o' : ExitOutcome} (h : o.key? = some key) (h' : o'.key? = some key) (hslot : o.slotted = true) :
    o'.slotted = true := by
  by_contra hne
  have hlogged : key.logged (o.mark 0 {}) = true := slotted_logged h hslot
  rw [unslotted_logged h' (Bool.not_eq_true _ ▸ hne)] at hlogged
  cases hlogged

/-- A slotted row that stands is marked as written. -/
theorem stands_logged {id : ℕ} {history : List Evaluation} (hwritten : Written tick id history)
    (hkey : o.key? = some key) (hslot : o.slotted = true) (h : Stands key history) :
    key.logged (marksOf tick history) = true := by
  induction history with
  | nil =>
    obtain ⟨between, e, older, heq, -⟩ := h
    simp at heq
  | cons e older ih =>
    rcases stands_cons h with hwrote | ⟨hdiffers, hstands⟩
    · obtain ⟨hkey', -⟩ := hwrote.key? hwritten.1
      exact slotted_logged hkey' (slotted_congr hkey hkey' hslot)
    · exact mark_keeps hdiffers (ih hwritten.2 hstands)

/-- The row of the newest evaluation that was not a silent one. -/
def settledKey (history : List Evaluation) : Option RowKey :=
  (history.find? fun e => !e.outcome.silent).bind fun e => e.outcome.key?

theorem silent_of_key (h : o.key? = some key) : o.silent = false := by
  cases o with
  | noBids => cases h
  | close order clock start =>
    cases start with
    | backingOff => cases h
    | _ => rfl
  | _ => rfl

theorem stands_settled {id : ℕ} {history : List Evaluation} (hwritten : Written tick id history)
    (h : Stands key history) : settledKey history = some key := by
  induction history with
  | nil =>
    obtain ⟨between, e, older, heq, -⟩ := h
    simp at heq
  | cons e older ih =>
    have hhead : e.outcome.key? = some key → settledKey (e :: older) = some key := by
      intro hkey
      simp [settledKey, silent_of_key hkey, hkey]
    rcases stands_cons h with hwrote | ⟨hdiffers, hstands⟩
    · exact hhead (hwrote.key? hwritten.1).1
    · cases hsilent : e.outcome.silent with
      | true =>
        rw [← ih hwritten.2 hstands]
        simp [settledKey, hsilent]
      | false => exact hhead (by_contra fun hne => hdiffers ⟨hsilent, hne⟩)

/-- The rows of a position in the exit log, but for closes. -/
def exitLogRows (log : List ExitDecision) (id : ℕ) : List ExitDecision :=
  log.filter fun d => d.positionId = id ∧ d.verdict ≠ .ok

theorem exitLogRows_append (log rows : List ExitDecision) (id : ℕ) :
    exitLogRows (log ++ rows) id = exitLogRows log id ++ exitLogRows rows id :=
  List.filter_append _ _

/-- The rows of one evaluation are all its position's. -/
theorem exitLogRows_self {o : ExitOutcome} {m : SlotMarks} {id : ℕ} {rows : List ExitDecision}
    (h : Writes o m id rows) : exitLogRows rows id = rows.filter fun d => d.verdict ≠ .ok := by
  refine List.filter_congr fun d hd => ?_
  by_cases hok : d.verdict = .ok
  · simp [hok]
  · simp [hok, (h.row d hd hok).2.2]

theorem exitLogRows_ne {o : ExitOutcome} {m : SlotMarks} {id other : ℕ} {rows : List ExitDecision}
    (h : Writes o m id rows) (hne : other ≠ id) : exitLogRows rows other = [] := by
  refine List.filter_eq_nil_iff.mpr fun d hd hrow => ?_
  obtain ⟨hpos, hok⟩ := of_decide_eq_true hrow
  exact hne (hpos.symm.trans (h.row d hd hok).2.2)

variable {w w' : WatchedExits} {e : ExitEvent}

/-- An event ends one evaluation, or none. -/
inductive Turn (w : WatchedExits) (e : ExitEvent) (w' : WatchedExits) : Prop
  | ends (held : HeldPosition) (o : ExitOutcome) (rows : List ExitDecision) :
      w.monitor.outcome e = some (held, o) → o.isPlaced = false →
      w.monitor.phase.pending = held :: w'.monitor.phase.pending → w'.monitor.live.db = w.monitor.live.db →
      w'.monitor.log = w.monitor.log ++ rows →
      w'.history = Function.update w.history held.positionId (⟨o, rows⟩ :: w.history held.positionId) →
      Turn w e w'
  | goes : w'.history = w.history → (∀ id, exitLogRows w'.monitor.log id = exitLogRows w.monitor.log id) →
      (w'.monitor.phase.pending = w.monitor.phase.pending ∨
        w'.monitor.phase.pending = w.monitor.live.db.getOpenPositions ∨ w'.monitor.phase.pending = []) →
      (w'.monitor.live.db = w.monitor.live.db ∨ ∃ a, w'.monitor.live.db = w.monitor.live.db.attempt a) →
      Turn w e w'

/-- Where an evaluation of the sweep takes the monitor. -/
theorem turn_advance {ts : ℚ} {held : HeldPosition} {rest : List HeldPosition} {out : Next × Slot}
    (hpending : w.monitor.phase.pending = held :: rest) (ho : w.monitor.outcome e = some (held, o))
    (heffect : OutcomeEffect tick o held.positionId (w.monitor.slot held.positionId) out.2) (hleads : o.Leads out.1) :
    Turn w e ⟨w.monitor.advance ts held rest out, w.extended e (w.monitor.advance ts held rest out)⟩ := by
  obtain ⟨rows, hlog, hwrites⟩ := heffect.log
  have hlog : (w.monitor.advance ts held rest out).log = w.monitor.log ++ rows := by
    rw [advance_log]
    exact hlog
  cases hplaced : o.isPlaced with
  | false =>
    obtain ⟨blocked, hdone⟩ := hleads.2 hplaced
    refine .ends held o rows ho hplaced ?_ ?_ hlog ?_
    · rw [hpending]
      simp [ExitMonitor.advance, hdone, TickPhase.pending]
    · simp [ExitMonitor.advance, hdone, ExitMonitor.setSlot]
    · simp [WatchedExits.extended, ho, hplaced, hlog]
  | true =>
    obtain ⟨order, clock, rfl⟩ := isPlaced_iff.mp hplaced
    have hsell : out.1 = .sell order := hleads.1 order clock rfl
    refine .goes ?_ (fun id => ?_) (.inl ?_) (.inl ?_)
    · simp [WatchedExits.extended, ho, hplaced]
    · show exitLogRows (w.monitor.advance ts held rest out).log id = _
      rw [hlog, exitLogRows_append]
      have hnone : exitLogRows rows id = [] := by
        refine List.filter_eq_nil_iff.mpr fun d hd hrow => ?_
        obtain ⟨-, hok⟩ := of_decide_eq_true hrow
        cases (hwrites.row d hd hok).1
      rw [hnone, List.append_nil]
    · rw [hpending]
      simp [ExitMonitor.advance, hsell, TickPhase.pending]
    · simp [ExitMonitor.advance, hsell, ExitMonitor.setSlot]

theorem observe_log (m : ExitMonitor) (book : OrderBook) : (m.observeBook book).log = m.log := by
  unfold ExitMonitor.observeBook
  split <;> rfl

theorem step_turn (hstep : w.step e = some w') : Turn w e w' := by
  obtain ⟨m', hm', rfl⟩ := Option.map_eq_some_iff.mp hstep
  cases step_stepped hm' with
  | readOpens hphase => exact .goes rfl (fun _ => rfl) (.inr (.inl rfl)) (.inl rfl)
  | sweep hphase => exact .goes rfl (fun _ => rfl) (.inl (by rw [hphase]; rfl)) (.inl rfl)
  | @evaluate sight clock ts held rest hphase hreads =>
    have hpending : w.monitor.phase.pending = held :: rest := by rw [hphase]; rfl
    cases ho : (w.monitor.slot held.positionId).evaluateOutcome w.monitor.exit held
        (w.monitor.grounds held.positionId clock) sight with
    | none =>
      obtain ⟨halike, d, age, hnext⟩ := evaluate_refetches ho
      refine .goes ?_ (fun id => ?_) (.inl ?_) (.inl ?_)
      · simp [WatchedExits.extended, ExitMonitor.outcome, hphase, ho]
      · show exitLogRows (w.monitor.advance ts held rest _).log id = _
        rw [advance_log, halike.2]
        rfl
      · rw [hpending]
        simp [ExitMonitor.advance, hnext, TickPhase.pending]
      · simp [ExitMonitor.advance, hnext, ExitMonitor.setSlot]
    | some o =>
      obtain ⟨heffect, hleads⟩ := evaluate_effect w.monitor.tick ho
      exact turn_advance hpending (by simp [ExitMonitor.outcome, hphase, ho]) heffect hleads
  | @refetched r clock ts held d rest hphase hreads =>
    obtain ⟨heffect, hleads⟩ := confirm_effect w.monitor.tick (w.monitor.slot held.positionId) d
    exact turn_advance (by rw [hphase]; rfl) (by simp [ExitMonitor.outcome, hphase]) heffect hleads
  | @execute request ts held order rest hphase hfor =>
    exact .goes rfl (fun _ => rfl) (.inl (by rw [hphase]; rfl))
      (.inr (request_writes w.monitor.live request).attempt)
  | @raised clock outage ts held order exc rest hphase =>
    refine .ends held (.raised exc) [_] ?_ rfl (by rw [hphase]; rfl) rfl rfl ?_
    · simp [ExitMonitor.outcome, hphase]
    · simp [WatchedExits.extended, ExitMonitor.outcome, hphase, ExitOutcome.isPlaced]
  | @finish clock outage ts held order r rest hphase =>
    set m' := ({ w.monitor with closing := Registry.discard held.positionId w.monitor.closing } :
      ExitMonitor).finishSell ts held order rest clock outage r with hfinish
    have hplaced : (r.outcome order clock).isPlaced = false := by
      unfold ExecResult.outcome
      split_ifs <;> rfl
    obtain ⟨rows, hlog⟩ : ∃ rows, m'.log = w.monitor.log ++ rows := by
      rcases exit_log hm' with ⟨rows, hlog, -⟩ | ⟨_, _, _, _, _, _, _, d, -, -, -, -, -, hlog⟩
      · exact ⟨rows, hlog⟩
      · exact ⟨[d], hlog⟩
    refine .ends held (r.outcome order clock) rows ?_ hplaced (by rw [hphase]; rfl) rfl hlog ?_
    · simp [ExitMonitor.outcome, hphase]
    · simp [WatchedExits.extended, ExitMonitor.outcome, hphase, hplaced, hlog]
  | tickDone hphase => exact .goes rfl (fun _ => rfl) (.inr (.inr rfl)) (.inl rfl)
  | observe =>
    have hleaves := observe_leaves w.monitor ‹_›
    exact .goes rfl (fun _ => congrArg (exitLogRows · _) (observe_log _ _)) (.inl hleaves.phase) hleaves.db
  | ledger => exact .goes rfl (fun _ => rfl) (.inl rfl) (.inr ⟨_, rfl⟩)
  | trade => exact .goes rfl (fun _ => rfl) (.inl rfl) (.inr (liveCall_attempt _ _))
  | _ => exact .goes rfl (fun _ => rfl) (.inl rfl) (.inl rfl)

/-- The branches that write their row at every evaluation: a confirmed close of a position
somebody else is closing, and a sell that raises. -/
def ExitOutcome.unslotted : ExitOutcome → Bool
  | .close _ _ .inFlight => true
  | .raised _ => true
  | _ => false

/-- The event takes such a branch, which the position's newest evaluation took too, with
the same reason. -/
def WatchedExits.repeatsRow (w : WatchedExits) (e : ExitEvent) : Bool :=
  match w.monitor.outcome e with
  | some (held, o) => o.unslotted && settledKey (w.history held.positionId) = o.key?
  | none => false

def Evaluation.complaints (e : Evaluation) : List ExitDecision := e.rows.filter fun d => d.verdict ≠ .ok

/-- The skip and error rows of the exit log, each written once per position and reason
while that reason persists. -/
structure WatchedExits.RowsOnce (w : WatchedExits) : Prop where
  /-- The log holds the rows of the evaluations. -/
  logged : ∀ id, exitLogRows w.monitor.log id = (w.history id).reverse.flatMap Evaluation.complaints
  one : ∀ id, ∀ e ∈ w.history id, e.rows.length ≤ 1
  once : ∀ id newer e₂ between e₁ older key, w.history id = newer ++ e₂ :: (between ++ e₁ :: older) →
    e₁.WroteRow key → e₂.WroteRow key → ∃ e ∈ between, e.outcome.Differs key

def goneKey : RowKey := { verdict := .skip, reason := some .positionNoLongerOpen }

structure RowsInv (w : WatchedExits) : Prop where
  keeps : w.Keeps
  nodup : (w.monitor.phase.pending.map HeldPosition.positionId).Nodup
  /-- A position found closed is not evaluated again. -/
  retired : ∀ id, (∃ e ∈ w.history id, e.outcome.key? = some goneKey) →
    w.monitor.live.db.Gone id ∧ id ∉ w.monitor.phase.pending.map HeldPosition.positionId
  logged : ∀ id, exitLogRows w.monitor.log id = (w.history id).reverse.flatMap Evaluation.complaints
  once : ∀ id, OncePerReason (w.history id)

theorem Written.mem {id : ℕ} {history : List Evaluation} (h : Written tick id history) {e : Evaluation}
    (he : e ∈ history) : ∃ m, Writes e.outcome m id e.rows := by
  induction history with
  | nil => cases he
  | cons x history ih =>
    rcases List.mem_cons.mp he with rfl | he
    · exact ⟨_, h.1⟩
    · exact ih h.2 he

/-- Outside the dedupe slots, a row comes of one of the two branches or of a position that
has gone. -/
theorem unslotted_or_gone (hkey : o.key? = some key) (hslot : o.slotted = false) :
    o.unslotted = true ∨ key = goneKey := by
  cases o with
  | close order clock start =>
    cases start with
    | noLongerOpen => exact .inr (Option.some.inj hkey).symm
    | inFlight => exact .inl rfl
    | _ => cases hkey
  | raised => exact .inl rfl
  | dust => cases hslot
  | held => cases hslot
  | failed => cases hslot
  | _ => cases hkey

/-- A row that stands is not written again through a dedupe slot. -/
theorem stands_unslotted {id : ℕ} {history : List Evaluation} (hwritten : Written tick id history)
    (hkey : o.key? = some key) (hwrites : o.writes (marksOf tick history) = true) (h : Stands key history) :
    o.slotted = false := by
  by_contra hslot
  rw [Bool.not_eq_false] at hslot
  have hlogged := stands_logged hwritten hkey hslot h
  rw [slotted_writes hkey hslot hwrites] at hlogged
  cases hlogged

theorem stands_mem {id : ℕ} {history : List Evaluation} (hwritten : Written tick id history)
    (h : Stands key history) : ∃ e ∈ history, e.outcome.key? = some key := by
  obtain ⟨between, e, older, rfl, hwrote, -⟩ := h
  have hmem : e ∈ between ++ e :: older := List.mem_append_right _ List.mem_cons_self
  obtain ⟨m, hm⟩ := hwritten.mem hmem
  exact ⟨e, hmem, (hwrote.key? hm).1⟩

/-- A confirmed close of a position that has gone. -/
theorem gone_of_outcome (hkeeps : w.Keeps) (hstep : w.step e = some w') {held : HeldPosition}
    (ho : w.monitor.outcome e = some (held, o)) (hkey : o.key? = some goneKey) :
    w.monitor.live.db.Gone held.positionId := by
  obtain ⟨m', hm', -⟩ := Option.map_eq_some_iff.mp hstep
  obtain ⟨hmem, -⟩ := outcome_marks hkeeps hstep ho
  have hclose : ∃ order clock, o = .close order clock .noLongerOpen := by
    cases o with
    | close order clock start =>
      cases start with
      | noLongerOpen => exact ⟨order, clock, rfl⟩
      | _ => cases hkey
    | failed order clock failure => cases failure <;> cases hkey
    | _ => cases hkey
  obtain ⟨order, clock, rfl⟩ := hclose
  obtain ⟨hchecked, -⟩ := close_step hm' ho
  have hstart := hchecked.goes CloseStart.noConfusion
  refine ⟨hkeeps.pending held hmem, fun hopen => ?_⟩
  have hstill : w.monitor.stillOpen held.positionId = true := by
    obtain ⟨p, hp, hid, ho⟩ := hopen
    exact stillOpen_iff.mpr ⟨p, hid ▸ Db.get_of_mem hkeeps.ids hp, ho⟩
  unfold Grounds.start ExitMonitor.grounds at hstart
  dsimp only at hstart
  rw [hstill, if_neg (by decide)] at hstart
  split_ifs at hstart

theorem opens_nodup {db : Db} (h : (db.positions.map PositionRow.id).Nodup) :
    (db.getOpenPositions.map HeldPosition.positionId).Nodup := by
  unfold Db.getOpenPositions
  rw [List.map_map]
  exact (List.filter_sublist.map _).nodup h

theorem RowsInv.ends (h : RowsInv w) (hstep : w.step e = some w') (hrepeats : w.repeatsRow e = false)
    {held : HeldPosition} {rows : List ExitDecision} (ho : w.monitor.outcome e = some (held, o))
    (hpending : w.monitor.phase.pending = held :: w'.monitor.phase.pending)
    (hdb : w'.monitor.live.db = w.monitor.live.db) (hlog : w'.monitor.log = w.monitor.log ++ rows)
    (hhistory : w'.history = Function.update w.history held.positionId (⟨o, rows⟩ :: w.history held.positionId)) :
    RowsInv w' := by
  have hkeeps := history_step h.keeps hstep
  have hself : w'.history held.positionId = ⟨o, rows⟩ :: w.history held.positionId := by
    rw [hhistory, Function.update_self]
  have hother : ∀ id, id ≠ held.positionId → w'.history id = w.history id := fun id hne => by
    rw [hhistory, Function.update_of_ne hne]
  have hwritten : Writes o (marksOf w'.monitor.tick (w.history held.positionId)) held.positionId rows ∧
      Written w'.monitor.tick held.positionId (w.history held.positionId) := by
    have hw := hkeeps.written held.positionId
    rwa [hself] at hw
  have hnodup := h.nodup
  rw [hpending, List.map_cons] at hnodup
  obtain ⟨hnotin, hnodup⟩ := List.nodup_cons.mp hnodup
  refine ⟨hkeeps, hnodup, fun id hgone => ?_, fun id => ?_, fun id => ?_⟩
  · rw [hdb]
    by_cases hid : id = held.positionId
    · subst hid
      refine ⟨?_, hnotin⟩
      obtain ⟨x, hx, hkey⟩ := hgone
      rw [hself] at hx
      rcases List.mem_cons.mp hx with rfl | hx
      · exact gone_of_outcome h.keeps hstep ho hkey
      · exact (h.retired _ ⟨x, hx, hkey⟩).1
    · rw [hother id hid] at hgone
      obtain ⟨hgone, hmem⟩ := h.retired id hgone
      rw [hpending] at hmem
      exact ⟨hgone, fun hin => hmem (List.mem_cons_of_mem _ hin)⟩
  · rw [hlog, exitLogRows_append, h.logged id]
    by_cases hid : id = held.positionId
    · subst hid
      rw [hself, exitLogRows_self hwritten.1, List.reverse_cons, List.flatMap_append, List.flatMap_singleton]
      rfl
    · rw [hother id hid, exitLogRows_ne hwritten.1 hid, List.append_nil]
  · by_cases hid : id = held.positionId
    · subst hid
      rw [hself]
      refine ⟨fun key hwrote hstands => ?_, h.once _⟩
      obtain ⟨hkey, hwrites⟩ := hwrote.key? hwritten.1
      rcases unslotted_or_gone hkey (stands_unslotted hwritten.2 hkey hwrites hstands) with hunslotted | rfl
      · have hrepeat : w.repeatsRow e = true := by
          simp only [WatchedExits.repeatsRow, ho, hunslotted, stands_settled hwritten.2 hstands]
          simpa using hkey.symm
        rw [hrepeats] at hrepeat
        cases hrepeat
      · obtain ⟨-, hmem⟩ := h.retired _ (stands_mem hwritten.2 hstands)
        rw [hpending] at hmem
        exact hmem List.mem_cons_self
    · rw [hother id hid]
      exact h.once id

theorem rowsInv_step (h : RowsInv w) (hrepeats : w.repeatsRow e = false) (hstep : w.step e = some w') :
    RowsInv w' := by
  cases step_turn hstep with
  | ends held o rows ho hplaced hpending hdb hlog hhistory =>
    exact h.ends hstep hrepeats ho hpending hdb hlog hhistory
  | goes hhistory hlog hpending hdb =>
    refine ⟨history_step h.keeps hstep, ?_, fun id hgone => ?_, fun id => ?_, fun id => ?_⟩
    · rcases hpending with hsame | hopens | hnil
      · exact hsame ▸ h.nodup
      · exact hopens ▸ opens_nodup h.keeps.ids
      · exact hnil ▸ List.nodup_nil
    · rw [hhistory] at hgone
      obtain ⟨hgone, hmem⟩ := h.retired id hgone
      refine ⟨?_, ?_⟩
      · rcases hdb with hdb | ⟨a, hdb⟩
        · exact hdb ▸ hgone
        · exact hdb ▸ attempt_gone h.keeps.ids hgone a
      · rcases hpending with hsame | hopens | hnil
        · exact hsame ▸ hmem
        · rw [hopens, ← isOpen_iff_mem]
          exact hgone.2
        · rw [hnil]
          exact List.not_mem_nil
    · rw [hlog, hhistory]
      exact h.logged id
    · rw [hhistory]
      exact h.once id

theorem rowsInv_boot (exit : ExitSection) {live : LiveState} (hids : (live.db.positions.map PositionRow.id).Nodup)
    (snapshots : Option (List OrderBookSnapshot)) (tick : ℚ) : RowsInv (WatchedExits.boot exit live snapshots tick) := by
  refine ⟨keeps_boot exit hids snapshots tick, ?_, fun id hgone => ?_, fun id => ?_, fun id => trivial⟩
  · cases snapshots <;> exact List.nodup_nil
  · obtain ⟨x, hx, -⟩ := hgone
    cases hx
  · cases snapshots <;> rfl

/-- Over every run in which no event repeats the row of a branch outside the dedupe slots,
no skip or error row is written again before its position comes to something else. -/
theorem exit_rows_once {exit : ExitSection} {live : LiveState} (hids : (live.db.positions.map PositionRow.id).Nodup)
    {snapshots : Option (List OrderBookSnapshot)} {tick : ℚ} {es : List ExitEvent} {w : WatchedExits}
    (run : Run (guarded (fun w e => w.repeatsRow e = false) fun w e w' => w.step e = some w')
      (WatchedExits.boot exit live snapshots tick) es w) : w.RowsOnce := by
  have hinv : RowsInv w :=
    run.invariant (fun _ _ _ hw hstep => rowsInv_step hw hstep.1 hstep.2) (rowsInv_boot exit hids snapshots tick)
  refine ⟨hinv.logged, fun id e he => ?_, fun id newer e₂ between e₁ older key heq h₁ h₂ =>
    (hinv.once id).split heq h₁ h₂⟩
  obtain ⟨m, hm⟩ := (hinv.keeps.written id).mem he
  exact hm.one

/-- A tick in which the sample position is due a stop at 0.30. -/
def dueTick (t : ℚ) : List ExitEvent := [.readOpens t, .sweep, .evaluate (bidSight (3 / 10) t) t, .tickDone]

/-- The stop meets the claim of a manual close, which is gone by the next tick. -/
def claimedRun : List ExitEvent :=
  .mark 1 :: dueTick 0 ++ .clear 1 :: unfilledTick 10 (3 / 10) .stopLoss ++ unfilledTick 20 (3 / 10) .stopLoss

theorem exit_rows_once_sample :
    ∃ w, Run (guarded (fun w e => WatchedExits.repeatsRow w e = false) fun w e w' => w.step e = some w')
        backoffStart claimedRun w ∧ w.RowsOnce ∧
      w.monitor.log.map ExitDecision.key =
        [{ verdict := .skip, reason := some .exitInFlight },
          { verdict := .error, error := some (.notFilled (some .noOrderBook)) }] := by
  have hread : ((claimedRun.foldlM (fun (w : WatchedExits) e => if !w.repeatsRow e then w.step e else none)
      backoffStart).map fun w => w.monitor.log.map ExitDecision.key) =
      some [{ verdict := .skip, reason := some .exitInFlight },
        { verdict := .error, error := some (.notFilled (some .noOrderBook)) }] := by
    decide +kernel
  obtain ⟨w, hw, hlog⟩ := Option.map_eq_some_iff.mp hread
  have hrun := (run_checkedM hw).mono fun u e v hstep => (⟨by simpa using hstep.1, hstep.2⟩ :
    guarded (fun w e => WatchedExits.repeatsRow w e = false) (fun w e w' => w.step e = some w') u e v)
  exact ⟨w, hrun, exit_rows_once reportLive_ids hrun, hlog⟩

/-- A manual close that is in flight over two ticks has its row written by both. -/
theorem in_flight_row_repeats :
    ∃ w, Run (fun w e w' => WatchedExits.step w e = some w') backoffStart
      (.mark 1 :: dueTick 0 ++ dueTick 10) w ∧ ¬ w.RowsOnce := by
  have hread : (((.mark 1 :: dueTick 0 ++ dueTick 10).foldlM WatchedExits.step backoffStart).map fun w =>
      (w.history 1).map fun e => e.rows.map ExitDecision.key) =
      some [[{ verdict := .skip, reason := some .exitInFlight }],
        [{ verdict := .skip, reason := some .exitInFlight }]] := by
    decide +kernel
  obtain ⟨w, hw, hkeys⟩ := Option.map_eq_some_iff.mp hread
  refine ⟨w, run_foldlM _ hw, fun h => ?_⟩
  obtain ⟨e₂, older, hhistory, h₂, hkeys⟩ := List.map_eq_cons_iff.mp hkeys
  obtain ⟨e₁, rfl, h₁⟩ := List.map_eq_singleton_iff.mp hkeys
  have hwrote : ∀ e : Evaluation, e.rows.map ExitDecision.key =
      [{ verdict := .skip, reason := some .exitInFlight }] →
      e.WroteRow { verdict := .skip, reason := some .exitInFlight } := by
    intro e he
    obtain ⟨d, hd, hkey⟩ := List.map_eq_singleton_iff.mp he
    refine ⟨d, hd ▸ List.mem_singleton_self d, ?_, hkey⟩
    rw [show d.verdict = .skip from congrArg RowKey.verdict hkey]
    decide
  obtain ⟨e, he, -⟩ := h.once 1 [] e₂ [] e₁ [] _ hhistory (hwrote e₁ h₁) (hwrote e₂ h₂)
  cases he

end OpenPoly
