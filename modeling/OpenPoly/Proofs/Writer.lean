import OpenPoly.Lib.Indexed
import OpenPoly.Lib.Run
import OpenPoly.Lib.Tagged
import OpenPoly.Spec.Writer

/-! What becomes of the rows offered to a write-behind writer: every row it takes
is in one batch or still queued, and batches are made in the order of the queue.
They reach the sink in that order as long as no loop is started while a `stop` is
under way. -/

namespace OpenPoly

open Transition Tagged

variable {ρ : Type} {config : WriterConfig} {m m' : Writer ρ}

/-- What each event needs, and the writer it leaves. -/
inductive Wrote (config : WriterConfig) (m : Writer ρ) : WriterEvent ρ → Writer ρ → Prop
  | enqueue {row : ρ} : Wrote config m (.enqueue row) (m.enqueue config row)
  | start : Wrote config m .start m.start
  | take {loop : ℕ} : m.loops[loop]? = some ⟨.getting, false⟩ → m.queue ≠ [] →
      Wrote config m (.take loop) (m.take config loop)
  | begin {write : ℕ} {batch : List ρ} : m.writes[write]? = some ⟨batch, .scheduled⟩ →
      Wrote config m (.begin write) (m.begin write batch)
  | finish {write : ℕ} {batch : List ρ} {ok : Bool} : m.writes[write]? = some ⟨batch, .inSink⟩ →
      Wrote config m (.finish write ok) (m.finish write batch ok)
  | resume {loop write : ℕ} : m.loops[loop]? = some ⟨.writing write, false⟩ →
      m.writeEnded write = true →
      Wrote config m (.resume loop) ((m.untrack write).setLoop loop .getting false)
  | unwindGet {loop : ℕ} : m.loops[loop]? = some ⟨.getting, true⟩ →
      Wrote config m (.unwind loop) (m.setLoop loop .ended true)
  | unwindWrite {loop write : ℕ} : m.loops[loop]? = some ⟨.writing write, true⟩ →
      (∀ batch, m.writes[write]? ≠ some ⟨batch, .scheduled⟩) →
      Wrote config m (.unwind loop) ((m.untrack write).setLoop loop .ended true)
  | stop : Wrote config m .stop m.stop
  | joined {stop loop : ℕ} : m.stops[stop]? = some (.joining loop) → m.loopAlive loop = false →
      Wrote config m (.joined stop)
        (Writer.setStop ({ m with task := none } : Writer ρ).drainInflight stop)
  | drained {stop write : ℕ} : m.stops[stop]? = some (.draining write) →
      Wrote config m (.drained stop)
        (Writer.setStop ({ m with inflight := none } : Writer ρ).flush stop)
  | timedOut {stop write : ℕ} : m.stops[stop]? = some (.draining write) →
      Wrote config m (.timedOut stop) (Writer.setStop m.flush stop)
  | flushed {stop write : ℕ} : m.stops[stop]? = some (.flushing write) →
      Wrote config m (.flushed stop) (Writer.setStop (m, .returned) stop)

theorem step_wrote {e : WriterEvent ρ} (h : m.step config e = some m') : Wrote config m e m' := by
  cases e with
  | enqueue row => cases h; exact .enqueue
  | start => cases h; exact .start
  | take loop =>
    simp only [Writer.step] at h
    split at h
    · split_ifs at h with hqueue
      cases h
      exact .take ‹_› hqueue
    · cases h
  | begin write =>
    simp only [Writer.step] at h
    split at h
    · cases h
      exact .begin ‹_›
    · cases h
  | finish write ok =>
    simp only [Writer.step] at h
    split at h
    · cases h
      exact .finish ‹_›
    · cases h
  | resume loop =>
    simp only [Writer.step] at h
    split at h
    · split_ifs at h with hended
      cases h
      exact .resume ‹_› hended
    · cases h
  | unwind loop =>
    simp only [Writer.step] at h
    split at h
    · cases h
      exact .unwindGet ‹_›
    · split_ifs at h with hscheduled
      cases h
      refine .unwindWrite ‹_› fun batch hw => hscheduled ?_
      rw [hw]
      rfl
    · cases h
  | stop => cases h; exact .stop
  | joined stop =>
    simp only [Writer.step] at h
    split at h
    · split_ifs at h with halive
      cases h
      exact .joined ‹_› (by simpa using halive)
    · cases h
  | drained stop =>
    simp only [Writer.step] at h
    split at h
    · split_ifs at h
      cases h
      exact .drained ‹_›
    · cases h
  | timedOut stop =>
    simp only [Writer.step] at h
    split at h
    · cases h
      exact .timedOut ‹_›
    · cases h
  | flushed stop =>
    simp only [Writer.step] at h
    split at h
    · split_ifs at h
      cases h
      exact .flushed ‹_›
    · cases h

/-- The writer `_drain_inflight` leaves: nothing has happened, or `_flush` has. -/
theorem drainInflight_cases (m : Writer ρ) :
    (∃ write, m.drainInflight = (m, .draining write)) ∨
      ∃ inflight, m.drainInflight = ({ m with inflight := inflight } : Writer ρ).flush := by
  unfold Writer.drainInflight
  cases hin : m.inflight with
  | none =>
    have hsame : ({ m with inflight := none } : Writer ρ) = m := by rw [← hin]
    exact .inr ⟨none, by rw [hsame]⟩
  | some write =>
    dsimp only
    split_ifs
    · exact .inr ⟨none, rfl⟩
    · exact .inl ⟨write, rfl⟩

def WriteTask.begun (w : WriteTask ρ) : Bool := w.stage ≠ .scheduled

/-- The rows of the batches whose write is at such a stage. -/
def Writer.rowsAt (m : Writer ρ) (p : WriteStage → Bool) : List ρ :=
  (m.writes.filter fun w => p w.stage).flatMap WriteTask.batch

/-- The batches hold what the queue gave, in its order; the counters and the calls
of the sink are those of the writes. -/
structure WriterInv (m : Writer ρ) : Prop where
  fifo : m.writes.flatMap WriteTask.batch ++ m.queue = m.accepted
  offered : m.offered.Perm (m.accepted ++ m.lost)
  dropped : m.dropped = m.lost.length
  written : m.written = (m.rowsAt fun s => s = .written).length
  errors : m.errors = (m.writes.filter fun w => w.stage = .failed).length
  handed : m.handed.Perm ((m.writes.filter WriteTask.begun).map WriteTask.batch)

def Writer.books (m : Writer ρ) :=
  (m.queue, m.writes, m.dropped, m.written, m.errors, m.offered, m.accepted, m.lost, m.handed)

theorem writerInv_start : WriterInv ({} : Writer ρ) :=
  ⟨rfl, List.Perm.refl _, rfl, rfl, rfl, List.Perm.refl _⟩

theorem WriterInv.of_books (h : WriterInv m) (hbooks : m'.books = m.books) : WriterInv m' := by
  simp only [Writer.books, Prod.mk.injEq] at hbooks
  obtain ⟨hqueue, hwrites, hdropped, hwritten, herrors, hoffered, haccepted, hlost, hhanded⟩ := hbooks
  constructor
  · rw [hwrites, hqueue, haccepted]
    exact h.fifo
  · rw [hoffered, haccepted, hlost]
    exact h.offered
  · rw [hdropped, hlost]
    exact h.dropped
  · rw [Writer.rowsAt, hwritten, hwrites]
    exact h.written
  · rw [herrors, hwrites]
    exact h.errors
  · rw [hhanded, hwrites]
    exact h.handed

theorem WriterInv.enqueue (h : WriterInv m) (row : ρ) : WriterInv (m.enqueue config row) := by
  unfold Writer.enqueue
  split_ifs with hfull
  · refine ⟨h.fifo, ?_, by simp [h.dropped], h.written, h.errors, h.handed⟩
    rw [← List.append_assoc]
    exact h.offered.append_right [row]
  · refine ⟨?_, ?_, h.dropped, h.written, h.errors, h.handed⟩
    · show _ ++ (m.queue ++ [row]) = m.accepted ++ [row]
      rw [← List.append_assoc, h.fifo]
    · have hlast : (m.accepted ++ m.lost ++ [row]).Perm (m.accepted ++ [row] ++ m.lost) := by
        rw [List.append_assoc, List.append_assoc]
        exact List.perm_append_comm.append_left m.accepted
      exact (h.offered.append_right [row]).trans hlast

/-- A new write of rows that were queued. -/
theorem WriterInv.addWrite (h : WriterInv m) {batch rest : List ρ} (hqueue : m.queue = batch ++ rest)
    (hwrites : m'.writes = m.writes ++ [⟨batch, .scheduled⟩] ∧ m'.handed = m.handed ∨
      m'.writes = m.writes ++ [⟨batch, .inSink⟩] ∧ m'.handed = m.handed ++ [batch])
    (hrest : m'.queue = rest ∧ m'.dropped = m.dropped ∧ m'.written = m.written ∧
      m'.errors = m.errors ∧ m'.offered = m.offered ∧ m'.accepted = m.accepted ∧
      m'.lost = m.lost) : WriterInv m' := by
  obtain ⟨hq, hdropped, hwritten, herrors, hoffered, haccepted, hlost⟩ := hrest
  have hfifo : ∀ stage, (m.writes ++ [(⟨batch, stage⟩ : WriteTask ρ)]).flatMap WriteTask.batch ++ rest =
      m.accepted := by
    intro stage
    rw [← h.fifo, hqueue]
    simp
  refine ⟨?_, by rw [hoffered, haccepted, hlost]; exact h.offered,
    by rw [hdropped, hlost]; exact h.dropped, ?_, ?_, ?_⟩
  all_goals rcases hwrites with ⟨hwrites, hhanded⟩ | ⟨hwrites, hhanded⟩
  · rw [hwrites, hq, haccepted]
    exact hfifo _
  · rw [hwrites, hq, haccepted]
    exact hfifo _
  · simp [Writer.rowsAt, hwrites, hwritten, h.written]
  · simp [Writer.rowsAt, hwrites, hwritten, h.written]
  · simp [hwrites, herrors, h.errors]
  · simp [hwrites, herrors, h.errors]
  · simpa [hwrites, hhanded, WriteTask.begun] using h.handed
  · simpa [hwrites, hhanded, WriteTask.begun] using h.handed.append_right [batch]

theorem WriterInv.take (h : WriterInv m) (loop : ℕ) : WriterInv (m.take config loop) :=
  h.addWrite (List.take_append_drop (max 1 config.batchSize) m.queue).symm (.inl ⟨rfl, rfl⟩)
    ⟨rfl, rfl, rfl, rfl, rfl, rfl, rfl⟩

theorem WriterInv.flush (h : WriterInv m) : WriterInv m.flush.1 := by
  unfold Writer.flush
  split_ifs
  · exact h
  · exact h.addWrite (List.append_nil m.queue).symm (.inr ⟨rfl, rfl⟩)
      ⟨rfl, rfl, rfl, rfl, rfl, rfl, rfl⟩

theorem WriterInv.drainInflight (h : WriterInv m) : WriterInv m.drainInflight.1 := by
  rcases drainInflight_cases m with ⟨write, heq⟩ | ⟨inflight, heq⟩
  · rw [heq]
    exact h
  · rw [heq]
    have hsame : WriterInv ({ m with inflight := inflight } : Writer ρ) := h.of_books rfl
    exact hsame.flush

/-- A write that moves on keeps its batch, and leaves the others. -/
theorem setStage_kept {write : ℕ} {batch : List ρ} {s : WriteStage} (s' : WriteStage)
    (hwrite : m.writes[write]? = some ⟨batch, s⟩) (p : WriteStage → Bool) (hp : p s' = p s) :
    ((m.setStage write batch s').writes.filter fun w => p w.stage).map WriteTask.batch =
      (m.writes.filter fun w => p w.stage).map WriteTask.batch :=
  map_filter_set WriteTask.batch hwrite hp fun _ => rfl

theorem setStage_rows {write : ℕ} {batch : List ρ} {s : WriteStage} (s' : WriteStage)
    (hwrite : m.writes[write]? = some ⟨batch, s⟩) (p : WriteStage → Bool) (hp : p s' = p s) :
    (m.setStage write batch s').rowsAt p = m.rowsAt p := by
  unfold Writer.rowsAt
  rw [List.flatMap_def, List.flatMap_def, setStage_kept s' hwrite p hp]

theorem setStage_fifo (h : WriterInv m) {write : ℕ} {batch : List ρ} {s : WriteStage} (s' : WriteStage)
    (hwrite : m.writes[write]? = some ⟨batch, s⟩) :
    (m.setStage write batch s').writes.flatMap WriteTask.batch ++ m.queue = m.accepted := by
  have hsame := setStage_rows s' hwrite (fun _ => true) rfl
  simp only [Writer.rowsAt, List.filter_true] at hsame
  rw [hsame]
  exact h.fifo

theorem setStage_count {write : ℕ} {batch : List ρ} {s : WriteStage} (s' : WriteStage)
    (hwrite : m.writes[write]? = some ⟨batch, s⟩) (p : WriteStage → Bool) (hp : p s' = p s) :
    ((m.setStage write batch s').writes.filter fun w => p w.stage).length =
      (m.writes.filter fun w => p w.stage).length := by
  have hkept := congrArg List.length (setStage_kept s' hwrite p hp)
  simpa using hkept

theorem WriterInv.begin (h : WriterInv m) {write : ℕ} {batch : List ρ}
    (hwrite : m.writes[write]? = some ⟨batch, .scheduled⟩) : WriterInv (m.begin write batch) := by
  refine ⟨setStage_fifo h .inSink hwrite, h.offered, h.dropped, ?_, ?_, ?_⟩
  · exact h.written.trans (congrArg List.length (setStage_rows .inSink hwrite (fun s => s = .written) rfl).symm)
  · exact h.errors.trans (setStage_count .inSink hwrite (fun s => s = .failed) rfl).symm
  · have hmoved : ((m.writes.set write ⟨batch, .inSink⟩).filter WriteTask.begun).Perm
        (⟨batch, .inSink⟩ :: m.writes.filter WriteTask.begun) := filter_set_perm hwrite rfl rfl
    have hcalled : (m.handed ++ [batch]).Perm (batch :: m.handed) := List.perm_append_singleton _ _
    exact hcalled.trans ((h.handed.cons batch).trans (hmoved.map WriteTask.batch).symm)

/-- The counters follow the write whose sink is through. -/
theorem WriterInv.finish (h : WriterInv m) {write : ℕ} {batch : List ρ} (ok : Bool)
    (hwrite : m.writes[write]? = some ⟨batch, .inSink⟩) : WriterInv (m.finish write batch ok) := by
  have hhanded : ∀ s', s' ≠ WriteStage.scheduled → m.handed.Perm
      (((m.setStage write batch s').writes.filter WriteTask.begun).map WriteTask.batch) := by
    intro s' hs'
    have hkept := setStage_kept s' hwrite (fun s => s ≠ .scheduled) (by simp [hs'])
    exact hkept ▸ h.handed
  unfold Writer.finish
  cases ok with
  | true =>
    refine ⟨setStage_fifo h .written hwrite, h.offered, h.dropped, ?_, ?_, hhanded _ (by decide)⟩
    · have hmoved : ((m.writes.set write ⟨batch, .written⟩).filter fun w => w.stage = .written).Perm
          (⟨batch, .written⟩ :: m.writes.filter fun w => w.stage = .written) :=
        filter_set_perm hwrite rfl rfl
      have hlength := (hmoved.flatMap_right WriteTask.batch).length_eq
      rw [List.flatMap_cons, List.length_append] at hlength
      show m.written + batch.length = _
      rw [h.written, Nat.add_comm]
      exact hlength.symm
    · exact h.errors.trans (setStage_count .written hwrite (fun s => s = .failed) rfl).symm
  | false =>
    refine ⟨setStage_fifo h .failed hwrite, h.offered, h.dropped, ?_, ?_, hhanded _ (by decide)⟩
    · exact h.written.trans
        (congrArg List.length (setStage_rows .failed hwrite (fun s => s = .written) rfl).symm)
    · have hmoved : ((m.writes.set write ⟨batch, .failed⟩).filter fun w => w.stage = .failed).Perm
          (⟨batch, .failed⟩ :: m.writes.filter fun w => w.stage = .failed) :=
        filter_set_perm hwrite rfl rfl
      show m.errors + 1 = _
      rw [h.errors]
      exact hmoved.length_eq.symm

theorem writerInv_step {e : WriterEvent ρ} (h : WriterInv m) (hstep : m.step config e = some m') :
    WriterInv m' := by
  cases step_wrote hstep with
  | enqueue => exact h.enqueue _
  | start =>
    unfold Writer.start
    split_ifs
    · exact h
    · exact h.of_books rfl
  | take => exact h.take _
  | begin hwrite => exact h.begin hwrite
  | finish hwrite => exact h.finish _ hwrite
  | resume => exact h.of_books rfl
  | unwindGet => exact h.of_books rfl
  | unwindWrite => exact h.of_books rfl
  | stop =>
    unfold Writer.stop
    split
    · exact h.of_books rfl
    · exact h.drainInflight.of_books rfl
  | joined =>
    have hsame : WriterInv ({ m with task := none } : Writer ρ) := h.of_books rfl
    exact hsame.drainInflight.of_books rfl
  | drained =>
    have hsame : WriterInv ({ m with inflight := none } : Writer ρ) := h.of_books rfl
    exact hsame.flush.of_books rfl
  | timedOut => exact h.flush.of_books rfl
  | flushed => exact h.of_books rfl

/-- No `stop` is under way. -/
def Writer.settled (m : Writer ρ) : Prop := ∀ s ∈ m.stops, s = .returned

/-- A call of `start` finds no `stop` under way. -/
def Writer.NoOverlap (m : Writer ρ) : WriterEvent ρ → Prop
  | .start => m.settled
  | _ => True

/-- There is one loop at most, the sink was called in the order the batches were
made, and a batch it was not called with yet is the last, and the loop's. -/
structure InOrder (m : Writer ρ) : Prop where
  loops : ∀ l, m.loopAlive l = true → m.task = some l
  handed : m.handed = (m.writes.filter WriteTask.begun).map WriteTask.batch
  last : ∀ i batch, m.writes[i]? = some ⟨batch, .scheduled⟩ → i + 1 = m.writes.length ∧
    ∃ l cancelled, m.task = some l ∧ m.loops[l]? = some ⟨.writing i, cancelled⟩

/-- A `stop` that has gone on from its loop has left none. -/
def StopOk (task : Option ℕ) : StopPhase → Prop
  | .joining loop => task = some loop ∨ task = none
  | .draining _ => task = none
  | .flushing _ => task = none
  | .returned => True

theorem stopOk_none (s : StopPhase) : StopOk none s := by
  cases s with
  | joining loop => exact .inr rfl
  | _ => first | rfl | trivial

theorem loopAlive_of_writing {l i : ℕ} {cancelled : Bool}
    (h : m.loops[l]? = some ⟨.writing i, cancelled⟩) : m.loopAlive l = true := by
  simp [Writer.loopAlive, h]

theorem InOrder.alive_eq (h : InOrder m) {l l' : ℕ} (hl : m.loopAlive l = true)
    (hl' : m.loopAlive l' = true) : l = l' :=
  Option.some.inj ((h.loops l hl).symm.trans (h.loops l' hl'))

/-- Where the one loop is not in a write, every batch has reached the sink. -/
theorem InOrder.all_begun (h : InOrder m)
    (hloop : ∀ l i cancelled, m.task = some l → m.loops[l]? ≠ some ⟨.writing i, cancelled⟩)
    (i : ℕ) (batch : List ρ) : m.writes[i]? ≠ some ⟨batch, .scheduled⟩ := by
  intro hi
  obtain ⟨-, l, cancelled, htask, hwriting⟩ := h.last i batch hi
  exact hloop l i cancelled htask hwriting

/-- A new write whose batch is the last. -/
theorem last_append {writes : List (WriteTask ρ)} {w : WriteTask ρ} {i : ℕ} {batch : List ρ}
    (hall : ∀ (i : ℕ) (batch : List ρ), writes[i]? ≠ some ⟨batch, .scheduled⟩)
    (h : (writes ++ [w])[i]? = some ⟨batch, .scheduled⟩) :
    i = writes.length ∧ w = ⟨batch, .scheduled⟩ := by
  rcases Indexed.of_snoc h with h | ⟨hi, hw⟩
  · exact (hall i batch h).elim
  · exact ⟨hi, hw.symm⟩

/-- A flush without a loop. -/
theorem InOrder.flush (h : InOrder m) (htask : m.task = none) : InOrder m.flush.1 := by
  unfold Writer.flush
  split_ifs
  · exact h
  · have hall := h.all_begun fun l i cancelled hl => by rw [htask] at hl; cases hl
    refine ⟨h.loops, ?_, fun i batch hi => ?_⟩
    · show m.handed ++ [m.queue] = _
      rw [h.handed]
      simp [WriteTask.begun]
    · obtain ⟨-, hw⟩ := last_append hall hi
      cases hw

theorem InOrder.drainInflight (h : InOrder m) (htask : m.task = none) :
    InOrder m.drainInflight.1 := by
  rcases drainInflight_cases m with ⟨write, heq⟩ | ⟨inflight, heq⟩
  · rw [heq]
    exact h
  · rw [heq]
    have hsame : InOrder ({ m with inflight := inflight } : Writer ρ) := ⟨h.loops, h.handed, h.last⟩
    exact hsame.flush htask

theorem flush_task (m : Writer ρ) : m.flush.1.task = m.task ∧ m.flush.1.stops = m.stops := by
  unfold Writer.flush
  split_ifs <;> exact ⟨rfl, rfl⟩

theorem drainInflight_task (m : Writer ρ) :
    m.drainInflight.1.task = m.task ∧ m.drainInflight.1.stops = m.stops := by
  rcases drainInflight_cases m with ⟨write, heq⟩ | ⟨inflight, heq⟩
  · rw [heq]
    exact ⟨rfl, rfl⟩
  · rw [heq]
    exact flush_task _

/-- The one loop takes a batch. -/
theorem InOrder.take (h : InOrder m) {loop : ℕ}
    (hloop : m.loops[loop]? = some ⟨.getting, false⟩) : InOrder (m.take config loop) := by
  have halive : m.loopAlive loop = true := by simp [Writer.loopAlive, hloop]
  have hlt : loop < m.loops.length := (List.getElem?_eq_some_iff.mp hloop).1
  have hall := h.all_begun fun l i cancelled hl hwriting => by
    obtain rfl := h.alive_eq halive (loopAlive_of_writing hwriting)
    rw [hloop] at hwriting
    cases hwriting
  refine ⟨fun l hl => h.loops l ?_, ?_, fun i batch hi => ?_⟩
  · simp only [Writer.loopAlive, Writer.take, List.getElem?_set] at hl
    by_cases heq : loop = l
    · exact heq ▸ halive
    · simpa [Writer.loopAlive, heq] using hl
  · show m.handed = _
    rw [h.handed]
    simp [Writer.take, WriteTask.begun]
  · obtain ⟨rfl, -⟩ := last_append hall hi
    refine ⟨by simp [Writer.take], loop, false, h.loops loop halive, ?_⟩
    simp [Writer.take, hlt]

/-- The batch the sink was not called with yet, and those before it. -/
theorem InOrder.split (h : InOrder m) {write : ℕ} {batch : List ρ}
    (hwrite : m.writes[write]? = some ⟨batch, .scheduled⟩) :
    ∃ init, m.writes = init ++ [⟨batch, .scheduled⟩] ∧ write = init.length ∧
      ∀ (i : ℕ) (batch : List ρ), init[i]? ≠ some ⟨batch, .scheduled⟩ := by
  obtain ⟨hlast, -⟩ := h.last write batch hwrite
  have hne : m.writes ≠ [] := by
    intro hnil
    rw [hnil] at hwrite
    cases hwrite
  have hget : m.writes.getLast? = some ⟨batch, .scheduled⟩ := by
    rw [List.getLast?_eq_getElem?, ← hwrite]
    congr 1
    omega
  rw [List.getLast?_eq_some_getLast hne, Option.some.injEq] at hget
  have hinit : m.writes = m.writes.dropLast ++ [⟨batch, .scheduled⟩] := by
    rw [← hget, List.dropLast_append_getLast]
  refine ⟨m.writes.dropLast, hinit, ?_, fun i b hi => ?_⟩
  · rw [List.length_dropLast]
    omega
  · have hlt : i < m.writes.dropLast.length := (List.getElem?_eq_some_iff.mp hi).1
    have hold : m.writes[i]? = some ⟨b, .scheduled⟩ := by
      rw [hinit, List.getElem?_append_left hlt]
      exact hi
    have hlast' := (h.last i b hold).1
    rw [List.length_dropLast] at hlt
    omega

/-- The batch that is last is what the sink is called with next. -/
theorem InOrder.begin (h : InOrder m) {write : ℕ} {batch : List ρ}
    (hwrite : m.writes[write]? = some ⟨batch, .scheduled⟩) : InOrder (m.begin write batch) := by
  obtain ⟨init, hinit, hlength, hfirst⟩ := h.split hwrite
  have hset : (m.begin write batch).writes = init ++ [⟨batch, .inSink⟩] := by
    show m.writes.set write ⟨batch, .inSink⟩ = _
    rw [hinit, hlength]
    simp
  refine ⟨h.loops, ?_, fun i batch' hi => ?_⟩
  · rw [hset]
    show m.handed ++ [batch] = _
    rw [h.handed, hinit]
    simp [WriteTask.begun]
  · rw [hset] at hi
    obtain ⟨-, hw⟩ := last_append hfirst hi
    cases hw

theorem InOrder.finish (h : InOrder m) {write : ℕ} {batch : List ρ} (ok : Bool)
    (hwrite : m.writes[write]? = some ⟨batch, .inSink⟩) : InOrder (m.finish write batch ok) := by
  have hstage : ∀ s' ≠ WriteStage.scheduled, InOrder (m.setStage write batch s') := by
    intro s' hs'
    refine ⟨h.loops, ?_, fun i batch' hi => ?_⟩
    · rw [show (m.setStage write batch s').handed = m.handed from rfl, h.handed]
      exact (setStage_kept s' hwrite (fun s => s ≠ .scheduled) (by simp [hs'])).symm
    · simp only [Writer.setStage, List.getElem?_set, List.length_set] at hi ⊢
      by_cases heq : write = i
      · rw [if_pos heq] at hi
        split_ifs at hi
        obtain ⟨-, hs⟩ := WriteTask.mk.inj (Option.some.inj hi)
        exact (hs' hs).elim
      · rw [if_neg heq] at hi
        exact h.last i batch' hi
  unfold Writer.finish
  cases ok with
  | true =>
    have hset := hstage .written (by decide)
    exact ⟨hset.loops, hset.handed, hset.last⟩
  | false =>
    have hset := hstage .failed (by decide)
    exact ⟨hset.loops, hset.handed, hset.last⟩

/-- The one loop, whose batch if any has reached the sink, goes on or ends. -/
theorem InOrder.setLoop (h : InOrder m) {loop : ℕ} {l : DrainLoop} {phase : LoopPhase}
    {cancelled : Bool} (hloop : m.loops[loop]? = some l) (halive : l.phase ≠ .ended)
    (hbegun : ∀ write, l.phase = .writing write →
      ∀ batch, m.writes[write]? ≠ some ⟨batch, .scheduled⟩)
    (inflight : Option ℕ) :
    InOrder (({ m with inflight := inflight } : Writer ρ).setLoop loop phase cancelled) := by
  have hlive : m.loopAlive loop = true := by simp [Writer.loopAlive, hloop, halive]
  have hall : ∀ (i : ℕ) (batch : List ρ), m.writes[i]? ≠ some ⟨batch, .scheduled⟩ := by
    intro i batch hi
    obtain ⟨-, l', cancelled', htask, hwriting⟩ := h.last i batch hi
    obtain rfl := h.alive_eq hlive (loopAlive_of_writing hwriting)
    obtain rfl : l = ⟨.writing i, cancelled'⟩ := Option.some.inj (hloop.symm.trans hwriting)
    exact hbegun i rfl batch hi
  refine ⟨fun l' hl => h.loops l' ?_, h.handed, fun i batch hi => (hall i batch hi).elim⟩
  simp only [Writer.loopAlive, Writer.setLoop, List.getElem?_set] at hl
  by_cases heq : loop = l'
  · exact heq ▸ hlive
  · simpa [Writer.loopAlive, heq] using hl

/-- A loop that has ended, or none, is followed by a new one. -/
theorem InOrder.start (h : InOrder m) : InOrder m.start := by
  unfold Writer.start
  split_ifs with hany
  · exact h
  have hdead : ∀ l, m.loopAlive l = false := by
    intro l
    by_contra halive
    have halive : m.loopAlive l = true := by simpa using halive
    rw [h.loops l halive, Option.any_some] at hany
    exact hany halive
  refine ⟨fun l hl => ?_, h.handed, fun i batch hi => ?_⟩
  · simp only [Writer.loopAlive] at hl
    rcases Nat.lt_trichotomy l m.loops.length with hlt | rfl | hgt
    · rw [List.getElem?_append_left hlt] at hl
      exact (Bool.false_ne_true ((hdead l).symm.trans hl)).elim
    · rfl
    · rw [List.getElem?_eq_none (by rw [List.length_append, List.length_singleton]; omega)] at hl
      cases hl
  · obtain ⟨-, l, cancelled, -, hwriting⟩ := h.last i batch hi
    exact (Bool.false_ne_true ((hdead l).symm.trans (loopAlive_of_writing hwriting))).elim

theorem InOrder.stop (h : InOrder m) : InOrder m.stop := by
  unfold Writer.stop
  split
  · rename_i loop htask
    refine ⟨fun l hl => h.loops l ?_, h.handed, fun i batch hi => ?_⟩
    · simp only [Writer.loopAlive, List.getElem?_modify] at hl ⊢
      cases hl' : m.loops[l]? with
      | none => simp [hl'] at hl
      | some x => by_cases heq : loop = l <;> simpa [hl', heq] using hl
    · obtain ⟨hlast, l, cancelled, htask', hwriting⟩ := h.last i batch hi
      refine ⟨hlast, l, true, htask', ?_⟩
      obtain rfl : loop = l := Option.some.inj (htask.symm.trans htask')
      simp [hwriting]
  · rename_i htask
    have hdrain := h.drainInflight htask
    exact ⟨hdrain.loops, hdrain.handed, hdrain.last⟩

/-- A `stop` goes on once the loop it cancelled has ended: there is none left. -/
theorem InOrder.joined (h : InOrder m) {loop : ℕ} (hstop : StopOk m.task (.joining loop))
    (hdead : m.loopAlive loop = false) : InOrder ({ m with task := none } : Writer ρ) := by
  have hnone : ∀ l, m.loopAlive l = false := by
    intro l
    by_contra halive
    have halive : m.loopAlive l = true := by simpa using halive
    have htask := h.loops l halive
    rcases hstop with hstop | hstop
    · obtain rfl : l = loop := Option.some.inj (htask.symm.trans hstop)
      exact Bool.false_ne_true (hdead.symm.trans halive)
    · rw [hstop] at htask
      cases htask
  refine ⟨fun l hl => ?_, h.handed, fun i batch hi => ?_⟩
  · exact (Bool.false_ne_true ((hnone l).symm.trans hl)).elim
  · obtain ⟨-, l, cancelled, -, hwriting⟩ := h.last i batch hi
    exact (Bool.false_ne_true ((hnone l).symm.trans (loopAlive_of_writing hwriting))).elim

theorem InOrder.setStop (h : InOrder m) (phase : StopPhase) (stop : ℕ) :
    InOrder (Writer.setStop (m, phase) stop) :=
  ⟨h.loops, h.handed, h.last⟩

/-- Calls in order, and every `stop` where it should be. -/
structure OrderInv (m : Writer ρ) : Prop where
  order : InOrder m
  stops : ∀ s ∈ m.stops, StopOk m.task s

theorem stopsOk_set {task : Option ℕ} {stops : List StopPhase} {stop : ℕ} {s : StopPhase}
    (h : ∀ s ∈ stops, StopOk task s) (hs : StopOk task s) : ∀ x ∈ stops.set stop s, StopOk task x := by
  intro x hx
  rcases List.mem_or_eq_of_mem_set hx with hx | rfl
  · exact h x hx
  · exact hs

theorem orderInv_step {e : WriterEvent ρ} (h : OrderInv m) (he : m.NoOverlap e)
    (hstep : m.step config e = some m') : OrderInv m' := by
  have hsame : ∀ {x : Writer ρ}, InOrder x → x.task = m.task → x.stops = m.stops → OrderInv x := by
    intro x hx htask hstops
    refine ⟨hx, ?_⟩
    rw [htask, hstops]
    exact h.stops
  have hpast : ∀ {stop : ℕ} {s : StopPhase}, m.stops[stop]? = some s → StopOk m.task s :=
    fun hs => h.stops _ (List.mem_of_getElem? hs)
  cases step_wrote hstep with
  | @enqueue row =>
    refine hsame ?_ ?_ ?_
    all_goals
      unfold Writer.enqueue
      split_ifs
    · exact ⟨h.order.loops, h.order.handed, h.order.last⟩
    · exact ⟨h.order.loops, h.order.handed, h.order.last⟩
    all_goals rfl
  | start =>
    refine ⟨h.order.start, fun s hs => ?_⟩
    have hstops : m.start.stops = m.stops := by
      unfold Writer.start
      split_ifs <;> rfl
    rw [hstops] at hs
    rw [he s hs]
    trivial
  | take hloop => exact hsame (h.order.take hloop) rfl rfl
  | begin hwrite => exact hsame (h.order.begin hwrite) rfl rfl
  | @finish write batch ok hwrite =>
    refine hsame (h.order.finish ok hwrite) ?_ ?_ <;> cases ok <;> rfl
  | @resume loop write hloop hended =>
    refine hsame (h.order.setLoop hloop (by simp) (fun w hw batch hb => ?_) _) rfl rfl
    obtain rfl : write = w := LoopPhase.writing.inj hw
    simp [Writer.writeEnded, hb, WriteTask.ended] at hended
  | unwindGet hloop =>
    exact hsame (h.order.setLoop hloop (by simp) (fun w hw => by cases hw) m.inflight) rfl rfl
  | @unwindWrite loop write hloop hbegun =>
    refine hsame (h.order.setLoop hloop (by simp) (fun w hw => ?_) _) rfl rfl
    obtain rfl : write = w := LoopPhase.writing.inj hw
    exact hbegun
  | stop =>
    refine ⟨h.order.stop, fun s hs => ?_⟩
    unfold Writer.stop at hs ⊢
    cases htask : m.task with
    | some loop =>
      simp only [htask, List.mem_append, List.mem_singleton] at hs ⊢
      rcases hs with hs | rfl
      · exact htask ▸ h.stops s hs
      · exact .inl rfl
    | none =>
      dsimp only
      rw [(drainInflight_task m).1, htask]
      exact stopOk_none s
  | @joined stop loop hs hdead =>
    have hjoined := h.order.joined (hpast hs) hdead
    refine ⟨(hjoined.drainInflight rfl).setStop _ stop, fun s _ => ?_⟩
    show StopOk (({ m with task := none } : Writer ρ).drainInflight.1.task) s
    rw [(drainInflight_task _).1]
    exact stopOk_none s
  | @drained stop write hs =>
    have hnone : m.task = none := hpast hs
    have hcleared : InOrder ({ m with inflight := none } : Writer ρ) :=
      ⟨h.order.loops, h.order.handed, h.order.last⟩
    refine ⟨(hcleared.flush hnone).setStop _ stop, fun s _ => ?_⟩
    show StopOk (({ m with inflight := none } : Writer ρ).flush.1.task) s
    rw [(flush_task _).1]
    exact hnone ▸ stopOk_none s
  | @timedOut stop write hs =>
    have hnone : m.task = none := hpast hs
    refine ⟨(h.order.flush hnone).setStop _ stop, fun s _ => ?_⟩
    show StopOk (m.flush.1.task) s
    rw [(flush_task m).1]
    exact hnone ▸ stopOk_none s
  | @flushed stop write hs =>
    exact ⟨h.order.setStop _ stop, stopsOk_set h.stops trivial⟩

/-- A write that has not called the sink, or whose sink has not returned. -/
def WriteStage.inFlight (s : WriteStage) : Bool := s = .scheduled ∨ s = .inSink

/-- Every row the queue took is handed to the sink once, about to be, or queued;
and every row offered is written, in a failed batch, in flight, queued or dropped,
as the writer's own counters have it. -/
structure Accounted (m : Writer ρ) : Prop where
  once : (m.handed.flatten ++ m.rowsAt (fun s => s = .scheduled) ++ m.queue).Perm m.accepted
  offered : m.offered.Perm (m.rowsAt (fun s => s = .written) ++ (m.rowsAt (fun s => s = .failed) ++
    m.rowsAt WriteStage.inFlight) ++ m.queue ++ m.lost)
  counts : m.offered.length = m.written + ((m.rowsAt fun s => s = .failed).length +
    (m.rowsAt WriteStage.inFlight).length) + m.queue.length + m.dropped
  errors : m.errors = (m.writes.filter fun w => w.stage = .failed).length

theorem notBegun_eq :
    (fun w : WriteTask ρ => !w.begun) = fun w => decide (w.stage = .scheduled) := by
  funext w
  cases hw : w.stage <;> simp [WriteTask.begun, hw]

theorem WriterInv.accounted (h : WriterInv m) : Accounted m := by
  have hpart : (m.writes.flatMap WriteTask.batch).Perm (m.rowsAt (fun s => s = .written) ++
      (m.rowsAt (fun s => s = .failed) ++ m.rowsAt WriteStage.inFlight)) := by
    have hwritten := flatMap_partition (fun w : WriteTask ρ => decide (w.stage = .written))
      WriteTask.batch m.writes
    have hfailed := flatMap_partition (fun w : WriteTask ρ => decide (w.stage = .failed))
      WriteTask.batch (m.writes.filter fun w => !decide (w.stage = .written))
    refine hwritten.trans (List.Perm.append_left _ (hfailed.trans (List.Perm.of_eq ?_)))
    unfold Writer.rowsAt
    rw [List.filter_filter, List.filter_filter]
    congr 3
    · funext w
      cases hw : w.stage <;> simp
    · funext w
      cases hw : w.stage <;> simp [WriteStage.inFlight]
  have hoffered : m.offered.Perm (m.rowsAt (fun s => s = .written) ++
      (m.rowsAt (fun s => s = .failed) ++ m.rowsAt WriteStage.inFlight) ++ m.queue ++ m.lost) := by
    have haccepted := hpart.append_right m.queue
    rw [h.fifo] at haccepted
    exact h.offered.trans (haccepted.append_right m.lost)
  refine ⟨?_, hoffered, ?_, h.errors⟩
  · have hbegun := flatMap_partition WriteTask.begun WriteTask.batch m.writes
    rw [notBegun_eq] at hbegun
    have hhanded := h.handed.flatten
    rw [← List.flatMap_def] at hhanded
    have hall := (hhanded.append_right (m.rowsAt fun s => s = .scheduled)).trans hbegun.symm
    exact h.fifo ▸ hall.append_right m.queue
  · have hlength := hoffered.length_eq
    simp only [List.length_append] at hlength
    rw [h.written, h.dropped]
    exact hlength

theorem InOrder.rows (h : InOrder m) :
    m.writes.flatMap WriteTask.batch =
      m.handed.flatten ++ m.rowsAt (fun s => s = .scheduled) := by
  rw [h.handed, ← List.flatMap_def]
  unfold Writer.rowsAt
  have hself : ∀ l : List (WriteTask ρ), (∀ (i : ℕ) (batch : List ρ), l[i]? ≠ some ⟨batch, .scheduled⟩) →
      l.filter WriteTask.begun = l ∧ (l.filter fun w => w.stage = .scheduled) = [] := by
    intro l hl
    have hmem : ∀ w ∈ l, w.stage ≠ .scheduled := by
      rintro ⟨batch, stage⟩ hw rfl
      obtain ⟨i, hi⟩ := List.mem_iff_getElem?.mp hw
      exact hl i batch hi
    refine ⟨List.filter_eq_self.mpr fun w hw => ?_, List.filter_eq_nil_iff.mpr fun w hw => ?_⟩
    · simpa [WriteTask.begun] using hmem w hw
    · simpa using hmem w hw
  by_cases hall : ∃ (i : ℕ) (batch : List ρ), m.writes[i]? = some ⟨batch, .scheduled⟩
  · obtain ⟨i, batch, hi⟩ := hall
    obtain ⟨init, hinit, -, hfirst⟩ := h.split hi
    obtain ⟨hbegun, hnone⟩ := hself init hfirst
    rw [hinit, List.filter_append, List.filter_append, hbegun, hnone]
    simp [WriteTask.begun]
  · have hfirst : ∀ (i : ℕ) (batch : List ρ), m.writes[i]? ≠ some ⟨batch, .scheduled⟩ :=
      fun i batch hi => hall ⟨i, batch, hi⟩
    obtain ⟨hbegun, hnone⟩ := hself m.writes hfirst
    rw [hbegun, hnone, List.flatMap_nil, List.append_nil]

def WriterStep (config : WriterConfig) (m : Writer ρ) (e : WriterEvent ρ) (m' : Writer ρ) : Prop :=
  m.step config e = some m'

/-- Over every run, every row offered is accounted for; and in a run that starts no
loop while a `stop` is under way, the rows are handed to the sink in the order they
were queued. -/
theorem write_behind_accounts {es : List (WriterEvent ρ)} (h : Run (WriterStep config) {} es m) :
    Accounted m ∧ (Run (guarded Writer.NoOverlap (WriterStep config)) {} es m →
      m.handed.flatten ++ m.rowsAt (fun s => s = .scheduled) ++ m.queue = m.accepted) := by
  have hinv : WriterInv m :=
    h.invariant (fun _ _ _ hi hstep => writerInv_step hi hstep) writerInv_start
  refine ⟨hinv.accounted, fun hordered => ?_⟩
  have horder : OrderInv m := by
    refine hordered.invariant ?_ ⟨⟨?_, rfl, ?_⟩, ?_⟩
    · rintro m e m' hi ⟨he, hstep⟩
      exact orderInv_step hi he hstep
    · intro l hl
      simp [Writer.loopAlive] at hl
    · intro i batch hi
      simp at hi
    · intro s hs
      cases hs
  rw [← horder.order.rows]
  exact hinv.fifo

def smallWriter : WriterConfig := ⟨3, 2⟩

/-- A row is dropped, a `stop` lands in the middle of the first batch and waits for
it, its flush fails, and a second start writes one more row. -/
def stoppedMidBatch : List (WriterEvent ℕ) :=
  [.enqueue 1, .enqueue 2, .enqueue 3, .enqueue 4, .start, .take 0, .begin 0, .stop, .unwind 0,
    .joined 0, .finish 0 true, .drained 0, .finish 1 false, .flushed 0, .start, .enqueue 5, .take 1,
    .begin 2, .finish 2 true, .resume 1]

/-- The event starts no loop while a `stop` is under way. -/
def Writer.overlaps {ρ : Type} (m : Writer ρ) : WriterEvent ρ → Bool
  | .start => m.stops.any fun s => s ≠ .returned
  | _ => false

theorem noOverlap_of {e : WriterEvent ρ} (h : m.overlaps e = false) : m.NoOverlap e := by
  cases e with
  | start => simpa [Writer.overlaps, Writer.NoOverlap, Writer.settled] using h
  | _ => trivial

def Writer.stepApart (config : WriterConfig) (m : Writer ρ) (e : WriterEvent ρ) : Option (Writer ρ) :=
  if !m.overlaps e then m.step config e else none

theorem write_behind_accounts_sample :
    ∃ m, Run (WriterStep smallWriter) {} stoppedMidBatch m ∧ m.handed = [[1, 2], [3], [5]] ∧
      m.offered.length = m.written + 1 + m.dropped ∧
      m.handed.flatten ++ m.rowsAt (fun s => s = .scheduled) ++ m.queue = m.accepted := by
  have hsome : (stoppedMidBatch.foldlM (Writer.stepApart smallWriter) {}).isSome = true := by
    decide +kernel
  obtain ⟨m, hm⟩ := Option.isSome_iff_exists.mp hsome
  have hread : (stoppedMidBatch.foldlM (Writer.stepApart smallWriter) {}).map (fun m =>
      (m.handed, decide (m.offered.length = m.written + 1 + m.dropped))) =
        some ([[1, 2], [3], [5]], true) := by
    decide +kernel
  rw [hm] at hread
  simp only [Option.map_some, Option.some.injEq, Prod.mk.injEq, decide_eq_true_eq] at hread
  have hrun : Run (guarded (fun m e => (!Writer.overlaps m e) = true) (WriterStep smallWriter)) {}
      stoppedMidBatch m := run_checkedM hm
  have hplain : Run (WriterStep smallWriter) {} stoppedMidBatch m :=
    hrun.mono fun _ _ _ hstep => hstep.2
  refine ⟨m, hplain, hread.1, hread.2, (write_behind_accounts hplain).2 ?_⟩
  exact hrun.mono fun _ _ _ hstep => ⟨noOverlap_of (by simpa using hstep.1), hstep.2⟩

def singleRows : WriterConfig := ⟨10, 1⟩

/-- While `stop` waits for the first row's write, a second loop is started. The
first row is through, two more are enqueued, and in the next round of the event
loop the second loop takes one of them and `stop` flushes the other, before the
write of the former takes its first step. -/
def startedMidStop : List (WriterEvent ℕ) :=
  [.enqueue 1, .start, .take 0, .begin 0, .stop, .unwind 0, .joined 0, .start, .finish 0 true,
    .enqueue 2, .enqueue 3, .take 1, .drained 0, .begin 1]

/-- The third row reaches the sink before the second. -/
theorem start_overtakes_stop :
    ∃ m, Run (WriterStep singleRows) {} startedMidStop m ∧ m.accepted = [1, 2, 3] ∧
      m.handed.flatten = [1, 3, 2] := by
  have hsome : (startedMidStop.foldlM (Writer.step singleRows) {}).isSome = true := by decide +kernel
  obtain ⟨m, hm⟩ := Option.isSome_iff_exists.mp hsome
  have hread : (startedMidStop.foldlM (Writer.step singleRows) {}).map (fun m =>
      (m.accepted, m.handed.flatten)) = some ([1, 2, 3], [1, 3, 2]) := by
    decide +kernel
  rw [hm] at hread
  simp only [Option.map_some, Option.some.injEq, Prod.mk.injEq] at hread
  exact ⟨m, run_foldlM _ hm, hread⟩

end OpenPoly
