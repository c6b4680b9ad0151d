import OpenPoly.Proofs.Writer
import OpenPoly.Proofs.Numerals

/-! Which frames cost the items around them their place in the database: those
whose fields the parser lets through and the database refuses. -/

namespace OpenPoly

open Transition Tagged

variable {env : NewsEnv} {data : PyDict} {now : ℚ} {item : NewsItem}

/-- `float()` of the value raises `OverflowError`. -/
def PyJson.beyondFloat : PyJson → Bool
  | .int n => floatOverflow ≤ |(n : ℚ)|
  | _ => false

/-- The value is NaN, or a text that is no date and that `float()` reads as NaN. -/
def PyJson.readsNan (env : NewsEnv) : PyJson → Bool
  | .float x => x = .nan
  | .str s => env.parseIso s = none ∧ floatOfString s.shown = .ok .nan
  | _ => false

def PyJson.encodable : PyJson → Bool
  | .str s => s.encodable
  | _ => true

def textKeys : List String := ["id", "content", "urgency"]

/-- The parser drops the object: there is no `id`, or a conversion of a field raises. -/
def PyDict.dropped (env : NewsEnv) (data : PyDict) : Bool :=
  (data.get? "id").isNone || (data.get? "published_at").any PyJson.beyondFloat ||
    textKeys.any fun key => (data.get? key).any fun value => (value.text env).isNone

def PyDict.storable (env : NewsEnv) (data : PyDict) : Bool :=
  (textKeys.all fun key => (data.get? key).all PyJson.encodable) &&
    (data.get? "sentiment").all (fun value => (bindValue value).isSome) &&
    !(data.get? "published_at").any (PyJson.readsNan env)

/-- A frame that is no object, or is dropped, or is stored. -/
def NewsFrame.harmless (env : NewsEnv) (frame : NewsFrame) : Bool :=
  frame.decode.all fun raw =>
    match jsonDecode env.maxDepth raw with
    | .ok (.obj data) => PyDict.dropped env data || PyDict.storable env data
    | _ => true

theorem toFloat_cases (q : ℚ) : toFloat q = .fin q ∧ ¬ floatOverflow ≤ |q| ∨
    (toFloat q = .inf ∨ toFloat q = .negInf) ∧ floatOverflow ≤ |q| := by
  unfold toFloat
  by_cases hup : floatOverflow ≤ q
  · rw [if_pos hup]
    exact .inr ⟨.inl rfl, hup.trans (le_abs_self q)⟩
  · by_cases hdown : q ≤ -floatOverflow
    · rw [if_neg hup, if_pos hdown]
      exact .inr ⟨.inr rfl, (le_neg_of_le_neg hdown).trans (neg_le_abs q)⟩
    · rw [if_neg hup, if_neg hdown]
      refine .inl ⟨rfl, fun habs => ?_⟩
      rcases le_abs.mp habs with h | h
      · exact hup h
      · exact hdown (le_neg_of_le_neg h)

theorem toFloat_ne_nan (q : ℚ) : toFloat q ≠ .nan := by
  rcases toFloat_cases q with ⟨h, -⟩ | ⟨h | h, -⟩ <;> simp [h]

theorem epochSeconds_nan (x : PyFloat) : epochSeconds x = .nan ↔ x = .nan := by
  cases x <;> simp [epochSeconds]

/-- `_to_epoch` raises for an integer beyond the floats alone, and yields a NaN for
what reads as one. -/
theorem toEpoch_cases (env : NewsEnv) (value : PyJson) (now : ℚ) :
    (toEpoch env value now).toOption = none ∧ value.beyondFloat ∨
      ∃ x, toEpoch env value now = .ok x ∧ value.beyondFloat = false ∧
        (x = .nan ↔ value.readsNan env) := by
  cases value with
  | null => exact .inr ⟨_, rfl, rfl, by simp [PyJson.readsNan]⟩
  | bool b => exact .inr ⟨_, rfl, rfl, by simp [PyJson.readsNan, epochSeconds]⟩
  | int n =>
    simp only [toEpoch, PyJson.beyondFloat, PyJson.readsNan, decide_eq_true_eq, decide_eq_false_iff_not]
    rcases toFloat_cases n with ⟨hfin, hlt⟩ | ⟨hinf | hinf, hle⟩
    · exact .inr ⟨epochSeconds (.fin n), by simp [pyFloat, hfin, Except.map], hlt, by simp [epochSeconds]⟩
    · exact .inl ⟨by simp [pyFloat, hinf, Except.map, Except.toOption], hle⟩
    · exact .inl ⟨by simp [pyFloat, hinf, Except.map, Except.toOption], hle⟩
  | float x =>
    refine .inr ⟨epochSeconds x, rfl, rfl, ?_⟩
    rw [epochSeconds_nan]
    simp [PyJson.readsNan]
  | str s =>
    simp only [toEpoch, PyJson.beyondFloat, PyJson.readsNan, decide_eq_true_eq]
    refine .inr ?_
    by_cases hnumeric : numericRe (stripChars isPySpace s.shown.toList)
    · obtain ⟨q, hq⟩ := floatOfString_numericRe hnumeric
      rw [String.ofList_toList] at hq
      rw [if_pos hnumeric, hq]
      refine ⟨epochSeconds (toFloat q), rfl, trivial, ?_⟩
      rw [epochSeconds_nan]
      simp [toFloat_ne_nan]
    · rw [if_neg hnumeric]
      cases hiso : env.parseIso s with
      | some t => exact ⟨.fin t, rfl, trivial, by simp⟩
      | none =>
        cases hfloat : floatOfString s.shown with
        | error e => exact ⟨.fin now, rfl, trivial, by simp⟩
        | ok x =>
          refine ⟨epochSeconds x, rfl, trivial, ?_⟩
          rw [epochSeconds_nan]
          simp
  | arr xs => exact .inr ⟨_, rfl, rfl, by simp [PyJson.readsNan]⟩
  | obj kvs => exact .inr ⟨_, rfl, rfl, by simp [PyJson.readsNan]⟩

theorem encode_isSome (s : PyStr) : s.encode.isSome = s.encodable := by
  unfold PyStr.encode
  split_ifs with h
  · exact h.symm
  · simpa using h

/-- Only a text can bring a lone surrogate into an item. -/
theorem text_encodable {value : PyJson} {s : PyStr} (h : value.text env = some s) :
    s.encodable = value.encodable := by
  have hof : ∀ t, some (PyStr.of t) = some s → s.encodable = true := by
    intro t ht
    rw [← Option.some.inj ht]
    exact of_encodable t
  have hrepr : ∀ t : Option String, t.map PyStr.of = some s → s.encodable = true := by
    intro t ht
    obtain ⟨u, -, rfl⟩ := Option.map_eq_some_iff.mp ht
    exact of_encodable u
  cases value with
  | str t =>
    obtain rfl : t = s := Option.some.inj h
    rfl
  | null => exact hof _ h
  | bool b => exact hof _ h
  | int n => exact hof _ h
  | float x => exact hrepr _ h
  | arr xs => exact hrepr _ h
  | obj kvs => exact hrepr _ h

theorem textOf_cases (env : NewsEnv) (data : PyDict) (key default : String) :
    data.textOf env key default = none ∧ ((data.get? key).any fun value => (value.text env).isNone) ∨
      ∃ s, data.textOf env key default = some s ∧
        ((data.get? key).any fun value => (value.text env).isNone) = false ∧
        s.encodable = (data.get? key).all PyJson.encodable := by
  unfold PyDict.textOf
  cases data.get? key with
  | none => exact .inr ⟨_, rfl, rfl, of_encodable default⟩
  | some value =>
    cases htext : value.text env with
    | none => exact .inl ⟨htext, by simp [htext]⟩
    | some s => exact .inr ⟨s, htext, by simp [htext], text_encodable htext⟩

theorem newsItemToRow_isSome (item : NewsItem) :
    (newsItemToRow item).isSome = (item.id.encodable && item.content.encodable &&
      item.urgency.encodable && (bindValue item.sentiment).isSome && item.publishedAt ≠ .nan) := by
  have hnull : SqlValue.ofFloat item.publishedAt = .null ↔ item.publishedAt = .nan := by
    cases item.publishedAt <;> simp [SqlValue.ofFloat]
  simp only [← encode_isSome]
  unfold newsItemToRow
  cases item.id.encode with
  | none => rfl
  | some newsId =>
    cases item.content.encode with
    | none => rfl
    | some content =>
      cases item.urgency.encode with
      | none => rfl
      | some urgency =>
        cases bindValue item.sentiment with
        | none => rfl
        | some sentiment =>
          by_cases hnan : item.publishedAt = .nan
          · simp [hnan, SqlValue.ofFloat]
          · simp [hnan, hnull]

/-- A time in the future gives way to the arrival's, and a NaN stays. -/
theorem retimed_nan (x : PyFloat) (now : ℚ) : (if x.aheadOf now then .fin now else x) = .nan ↔ x = .nan := by
  by_cases h : x.aheadOf now
  · rw [if_pos h]
    cases x <;> simp_all [PyFloat.aheadOf]
  · rw [if_neg h]

/-- An object with an `id` is dropped, or becomes an item that is stored where its
fields are. -/
theorem newsItem_cases (hid : (data.get? "id").isSome) (env : NewsEnv) (now : ℚ) :
    newsItem env data now = none ∧ data.dropped env ∨
      ∃ item, newsItem env data now = some item ∧ data.dropped env = false ∧
        (newsItemToRow item).isSome = data.storable env := by
  have hid : (data.get? "id").isNone = false := by simpa using hid
  have hbeyond : ((data.get? "published_at").getD .null).beyondFloat =
      (data.get? "published_at").any PyJson.beyondFloat := by
    cases data.get? "published_at" <;> rfl
  have hnan : ((data.get? "published_at").getD .null).readsNan env =
      (data.get? "published_at").any (PyJson.readsNan env) := by
    cases data.get? "published_at" <;> rfl
  have hsentiment : (bindValue ((data.get? "sentiment").getD .null)).isSome =
      (data.get? "sentiment").all fun value => (bindValue value).isSome := by
    cases data.get? "sentiment" <;> rfl
  have htime := toEpoch_cases env ((data.get? "published_at").getD .null) now
  rw [hbeyond, hnan] at htime
  unfold newsItem PyDict.dropped PyDict.storable
  simp only [textKeys, List.any_cons, List.any_nil, List.all_cons, List.all_nil, Bool.or_false, Bool.and_true,
    hid, Bool.false_or]
  rcases htime with ⟨htime, hover⟩ | ⟨x, htime, hover, hx⟩
  · rw [htime]
    exact .inl ⟨rfl, by simp [hover]⟩
  rw [htime, hover]
  rcases textOf_cases env data "id" "" with ⟨hnone, hraise⟩ | ⟨id, hid, hnoraise, hidText⟩
  · rw [hnone]
    exact .inl ⟨rfl, by simp [hraise]⟩
  rw [hid, hnoraise]
  rcases textOf_cases env data "content" "" with ⟨hnone, hraise⟩ | ⟨content, hcontent, hnoraise, hcontentText⟩
  · rw [hnone]
    exact .inl ⟨rfl, by simp [hraise]⟩
  rw [hcontent, hnoraise]
  rcases textOf_cases env data "urgency" "regular" with
    ⟨hnone, hraise⟩ | ⟨urgency, hurgency, hnoraise, hurgencyText⟩
  · rw [hnone]
    exact .inl ⟨rfl, by simp [hraise]⟩
  rw [hurgency, hnoraise]
  refine .inr ⟨_, rfl, rfl, ?_⟩
  have hstored : decide ((if x.aheadOf now then PyFloat.fin now else x) ≠ .nan) =
      !(data.get? "published_at").any (PyJson.readsNan env) := by
    rw [Bool.eq_iff_iff, decide_eq_true_eq, Bool.not_eq_true', ← Bool.not_eq_true, ← hx, ne_eq, retimed_nan]
  rw [newsItemToRow_isSome]
  dsimp only
  rw [hstored, hidText, hcontentText, hurgencyText, hsentiment]
  simp only [Bool.and_assoc]

/-- The parser gives the sink nothing it cannot store just where the frame is harmless. -/
theorem harmless_iff (env : NewsEnv) (a : Arrival) :
    (∀ item, a.parse env = some item → (newsItemToRow item).isSome) ↔ a.frame.harmless env := by
  unfold Arrival.parse NewsFrame.harmless
  cases a.frame.decode with
  | none => simp
  | some raw =>
    simp only [Option.bind_some, Option.all_some]
    unfold defaultParse
    cases jsonDecode env.maxDepth raw with
    | error e => simp
    | ok value =>
      cases value with
      | obj data =>
        dsimp only
        by_cases hid : (PyDict.get? data "id").isSome
        · rw [if_pos hid]
          rcases newsItem_cases hid env a.now with ⟨hnone, hdropped⟩ | ⟨item, hitem, hkept, hstored⟩
          · simp [hnone, hdropped]
          · simp [hitem, hkept, hstored]
        · rw [if_neg hid]
          have hdropped : PyDict.dropped env data = true := by simp_all [PyDict.dropped]
          simp [hdropped]
      | _ => simp

variable {config : WriterConfig} {w w' : Writer NewsItem}

/-- What has become of the rows that left the writer, and the rows it took. -/
def Writer.outcome (w : Writer NewsItem) :=
  (w.rowsAt (fun s => s = .written), w.errors, w.accepted)

theorem addWrite_outcome {batch : List NewsItem} (stage : WriteStage) (hstage : stage ≠ .written)
    (hwrites : w'.writes = w.writes ++ [⟨batch, stage⟩])
    (hrest : w'.errors = w.errors ∧ w'.accepted = w.accepted) : w'.outcome = w.outcome := by
  simp [Writer.outcome, Writer.rowsAt, hwrites, hrest, hstage]

theorem flush_outcome (w : Writer NewsItem) : w.flush.1.outcome = w.outcome := by
  unfold Writer.flush
  split_ifs
  · rfl
  · exact addWrite_outcome .inSink (by simp) rfl ⟨rfl, rfl⟩

theorem drainInflight_outcome (w : Writer NewsItem) : w.drainInflight.1.outcome = w.outcome := by
  rcases drainInflight_cases w with ⟨write, heq⟩ | ⟨inflight, heq⟩
  · rw [heq]
  · rw [heq, flush_outcome]
    rfl

/-- Only a new row and a sink that is through change any of it. -/
theorem step_outcome {e : WriterEvent NewsItem} (hstep : w.step config e = some w')
    (henqueue : ∀ row, e ≠ .enqueue row) (hfinish : ∀ write ok, e ≠ .finish write ok) :
    w'.outcome = w.outcome := by
  cases step_wrote hstep with
  | enqueue => exact (henqueue _ rfl).elim
  | finish => exact (hfinish _ _ rfl).elim
  | start =>
    unfold Writer.start
    split_ifs <;> rfl
  | take => exact addWrite_outcome .scheduled (by simp) rfl ⟨rfl, rfl⟩
  | begin hwrite =>
    have hrows := setStage_rows .inSink hwrite (fun s => s = .written) rfl
    simp only [Writer.outcome]
    exact congrArg (·, w.errors, w.accepted) hrows
  | resume => rfl
  | unwindGet => rfl
  | unwindWrite => rfl
  | stop =>
    unfold Writer.stop
    split
    · rfl
    · exact drainInflight_outcome w
  | joined => exact (drainInflight_outcome _).trans rfl
  | drained => exact (flush_outcome _).trans rfl
  | timedOut => exact flush_outcome w
  | flushed => rfl

theorem mapM_some {α β : Type} {f : α → Option β} {xs : List α} {ys : List β} (h : xs.mapM f = some ys) :
    ys.map some = xs.map f := by
  induction xs generalizing ys with
  | nil =>
    obtain rfl : [] = ys := by simpa using h
    rfl
  | cons x xs ih =>
    rw [List.mapM_cons] at h
    obtain ⟨y, hy, h⟩ := Option.bind_eq_some_iff.mp h
    obtain ⟨zs, hzs, h⟩ := Option.bind_eq_some_iff.mp h
    obtain rfl : y :: zs = ys := Option.some.inj h
    rw [List.map_cons, List.map_cons, hy, ih hzs]

theorem mapM_isSome {α β : Type} {f : α → Option β} {xs : List α} (h : ∀ x ∈ xs, (f x).isSome) :
    (xs.mapM f).isSome := by
  induction xs with
  | nil => rfl
  | cons x xs ih =>
    obtain ⟨y, hy⟩ := Option.isSome_iff_exists.mp (h x (by simp))
    obtain ⟨ys, hys⟩ := Option.isSome_iff_exists.mp (ih fun z hz => h z (List.mem_cons_of_mem x hz))
    simp [hy, hys]

/-- No batch has failed, and the table has gained the rows of those written. -/
structure NewsInv (table : List NewsItemRow) (m : NewsStore) : Prop where
  books : WriterInv m.writer
  storable : ∀ item ∈ m.writer.accepted, (newsItemToRow item).isSome
  errors : m.writer.errors = 0
  persisted : (m.table.map some).Perm
    (table.map some ++ (m.writer.rowsAt fun s => s = .written).map newsItemToRow)

theorem NewsInv.of_outcome {table : List NewsItemRow} {m : NewsStore} (h : NewsInv table m)
    (hbooks : WriterInv w') (hout : w'.outcome = m.writer.outcome) :
    NewsInv table { m with writer := w' } := by
  simp only [Writer.outcome, Prod.mk.injEq] at hout
  obtain ⟨hrows, herrors, haccepted⟩ := hout
  refine ⟨hbooks, ?_, herrors.trans h.errors, ?_⟩
  · rw [haccepted]
    exact h.storable
  · rw [hrows]
    exact h.persisted

/-- A batch whose every item can be stored is, as a whole. -/
theorem newsSink_stores (table : List NewsItemRow) {batch : List NewsItem}
    (h : ∀ item ∈ batch, (newsItemToRow item).isSome) :
    ∃ rows, newsSink table batch = some (table ++ rows) ∧ rows.map some = batch.map newsItemToRow := by
  obtain ⟨rows, hrows⟩ := Option.isSome_iff_exists.mp (mapM_isSome h)
  exact ⟨rows, by simp [newsSink, hrows], mapM_some hrows⟩

theorem WriterInv.batch_accepted {w : Writer NewsItem} (h : WriterInv w) {write : ℕ}
    {batch : List NewsItem} {stage : WriteStage} (hwrite : w.writes[write]? = some ⟨batch, stage⟩) :
    ∀ item ∈ batch, item ∈ w.accepted := by
  intro item hitem
  rw [← h.fifo]
  exact List.mem_append_left _ (List.mem_flatMap.mpr ⟨_, List.mem_of_getElem? hwrite, hitem⟩)

theorem NewsInv.frame {table : List NewsItemRow} {m m' : NewsStore} (h : NewsInv table m)
    {a : Arrival} (ha : a.frame.harmless env) (hstep : m.step env config (.frame a) = some m') :
    NewsInv table m' := by
  simp only [NewsStore.step] at hstep
  cases hitem : a.item env with
  | none =>
    rw [hitem] at hstep
    cases hstep
    exact h
  | some item =>
    rw [hitem] at hstep
    cases hstep
    have hparse : a.parse env = some item := (Option.filter_eq_some_iff.mp hitem).1
    have hstored : (newsItemToRow item).isSome := (harmless_iff env a).mpr ha item hparse
    refine ⟨h.books.enqueue item, ?_, ?_, ?_⟩
    all_goals
      unfold Writer.enqueue
      split_ifs
    · exact h.storable
    · intro item' hitem'
      rcases List.mem_append.mp hitem' with hitem' | hitem'
      · exact h.storable item' hitem'
      · rw [List.mem_singleton.mp hitem']
        exact hstored
    · exact h.errors
    · exact h.errors
    · exact h.persisted
    · exact h.persisted

theorem NewsInv.sink {table : List NewsItemRow} {m m' : NewsStore} (h : NewsInv table m)
    {write : ℕ} (hstep : m.step env config (.sink write) = some m') : NewsInv table m' := by
  simp only [NewsStore.step] at hstep
  split at hstep
  · rename_i batch hwrite
    obtain ⟨rows, hsink, hrows⟩ :=
      newsSink_stores m.table fun item hi => h.storable item (h.books.batch_accepted hwrite item hi)
    rw [hsink] at hstep
    cases hstep
    refine ⟨h.books.finish true hwrite, h.storable, h.errors, ?_⟩
    have hmoved : ((m.writer.writes.set write ⟨batch, .written⟩).filter fun w => w.stage = .written).Perm
        (⟨batch, .written⟩ :: m.writer.writes.filter fun w => w.stage = .written) :=
      filter_set_perm hwrite rfl rfl
    have hgain : ((m.writer.finish write batch true).rowsAt fun s => s = .written).Perm
        ((m.writer.rowsAt fun s => s = .written) ++ batch) := by
      refine (hmoved.flatMap_right WriteTask.batch).trans ?_
      rw [List.flatMap_cons]
      exact List.perm_append_comm
    have hall := h.persisted.append_right (batch.map newsItemToRow)
    rw [List.map_append, hrows]
    refine hall.trans ?_
    rw [List.append_assoc, ← List.map_append]
    exact (hgain.symm.map newsItemToRow).append_left _
  · cases hstep

theorem NewsInv.writer {table : List NewsItemRow} {m m' : NewsStore} (h : NewsInv table m)
    {e : WriterEvent NewsItem} (hstep : m.step env config (.writer e) = some m') : NewsInv table m' := by
  have hquiet : (∀ row, e ≠ .enqueue row) ∧ (∀ write ok, e ≠ .finish write ok) ∧
      (m.writer.step config e).map (fun writer => { m with writer := writer }) = some m' := by
    cases e with
    | enqueue row => cases hstep
    | finish write ok => cases hstep
    | _ => exact ⟨nofun, nofun, hstep⟩
  obtain ⟨henqueue, hfinish, hwriter⟩ := hquiet
  obtain ⟨w', hw', rfl⟩ := Option.map_eq_some_iff.mp hwriter
  exact h.of_outcome (writerInv_step h.books hw') (step_outcome hw' henqueue hfinish)

def NewsStep (env : NewsEnv) (config : WriterConfig) (m : NewsStore) (e : NewsEvent) (m' : NewsStore) :
    Prop :=
  m.step env config e = some m'

def NewsEvent.arrival : NewsEvent → Option Arrival
  | .frame arrival => some arrival
  | _ => none

theorem newsInv_step {table : List NewsItemRow} {m m' : NewsStore} {e : NewsEvent}
    (h : NewsInv table m) (he : ∀ a, e.arrival = some a → a.frame.harmless env)
    (hstep : NewsStep env config m e m') : NewsInv table m' := by
  cases e with
  | frame a => exact h.frame (he a rfl) hstep
  | sink write => exact h.sink hstep
  | writer e => exact h.writer hstep

/-- Every accepted item is written, on its way or queued; no batch has failed, and
the table has what was written. -/
structure Persisted (table : List NewsItemRow) (m : NewsStore) : Prop where
  accepted : m.writer.accepted.Perm (m.writer.rowsAt (fun s => s = .written) ++
    m.writer.rowsAt WriteStage.inFlight ++ m.writer.queue)
  errors : m.writer.errors = 0
  rows : (m.table.map some).Perm
    (table.map some ++ (m.writer.rowsAt fun s => s = .written).map newsItemToRow)

/-- Each frame is dropped or becomes an item the sink can store, and in every run
over them what the writer accepts is persisted. -/
structure NewsIsolated (env : NewsEnv) (frames : List Arrival) : Prop where
  stored : ∀ a ∈ frames, ∀ item, a.parse env = some item → (newsItemToRow item).isSome
  persisted : ∀ (config : WriterConfig) (table : List NewsItemRow) (es : List NewsEvent) (m : NewsStore),
    Run (NewsStep env config) (.opened table) es m → es.filterMap NewsEvent.arrival <+: frames →
      Persisted table m

theorem NewsInv.kept {table : List NewsItemRow} {m : NewsStore} (h : NewsInv table m) :
    Persisted table m := by
  refine ⟨?_, h.errors, h.persisted⟩
  have hbooks := h.books.accounted
  have hfailed : (m.writer.rowsAt fun s => s = .failed) = [] := by
    have hnone : (m.writer.writes.filter fun w => w.stage = .failed).length = 0 :=
      hbooks.errors.symm.trans h.errors
    unfold Writer.rowsAt
    rw [List.length_eq_zero_iff.mp hnone, List.flatMap_nil]
  have hoffered := hbooks.offered
  rw [hfailed, List.nil_append] at hoffered
  exact (List.perm_append_right_iff _).mp (h.books.offered.symm.trans hoffered)

/-- An interpreter that never needs `repr` and knows no date. -/
def plainEnv : NewsEnv := ⟨fun _ => none, fun _ => none, 100⟩

def goodFrame : Arrival := ⟨.text "\x7b\"id\": \"a\", \"published_at\": 900\x7d", 1000, none⟩

/-- Its `published_at` is the literal `NaN`. -/
def nanFrame : Arrival := ⟨.text "\x7b\"id\": \"b\", \"published_at\": NaN\x7d", 1000, none⟩

def newsWriter : WriterConfig := {}

/-- Two frames arrive, and the writer takes both items in one batch. -/
def oneBatch : List NewsEvent :=
  [.writer .start, .frame goodFrame, .frame nanFrame, .writer (.take 0), .writer (.begin 0), .sink 0]

end OpenPoly
