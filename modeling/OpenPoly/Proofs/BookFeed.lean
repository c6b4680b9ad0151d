import OpenPoly.Lib.Run
import OpenPoly.Proofs.BookStore

/-! Newest book wins: whatever order sample batches, refreshes and 404s come in,
each token's books are stored and delivered by their receipt, and none outlives
its gone mark. -/

namespace OpenPoly

open Transition NewestWins

theorem persist_eq (hooks : BookHooks) (throttle : Bool) (now : ℚ) (s : BookFeed)
    (books : List FetchedBook) :
    ∃ last kept, books.foldl (persistOne hooks throttle now) s =
      { s with lastPersisted := last, persisted := s.persisted ++ kept } ∧ kept.Sublist books := by
  induction books generalizing s with
  | nil => exact ⟨s.lastPersisted, [], by simp, .slnil⟩
  | cons b books ih =>
    rw [List.foldl_cons]
    obtain ⟨last, kept, heq, hsub⟩ := ih (persistOne hooks throttle now s b)
    by_cases hskip : throttle ∧ (s.lastPersisted b.book.tokenId).any fun last =>
        now - last < hooks.persistInterval
    · have hone : persistOne hooks throttle now s b = s := if_pos hskip
      rw [hone] at heq ⊢
      exact ⟨last, kept, heq, hsub.cons b⟩
    · have hone : persistOne hooks throttle now s b = _ := if_neg hskip
      rw [hone] at heq ⊢
      refine ⟨last, b :: kept, ?_, hsub.cons_cons b⟩
      rw [heq]
      simp

/-- Delivering books changes only what the hooks were handed. -/
theorem deliverBooks_eq (hooks : BookHooks) (throttle : Bool) (now : ℚ) (s : BookFeed)
    (books : List FetchedBook) :
    ∃ last kept seen, s.deliverBooks hooks throttle now books =
      { s with
        lastPersisted := last
        persisted := s.persisted ++ kept
        observed := s.observed ++ seen } ∧ kept.Sublist books ∧ seen.Sublist books := by
  have hpersist : ∃ last kept, (if hooks.persists then
      books.foldl (persistOne hooks throttle now) s else s) =
        { s with lastPersisted := last, persisted := s.persisted ++ kept } ∧ kept.Sublist books := by
    split_ifs
    · exact persist_eq hooks throttle now s books
    · exact ⟨s.lastPersisted, [], by simp, books.nil_sublist⟩
  obtain ⟨last, kept, heq, hkept⟩ := hpersist
  simp only [BookFeed.deliverBooks, heq]
  split_ifs
  · exact ⟨last, kept, books, rfl, hkept, List.Sublist.refl books⟩
  · exact ⟨last, kept, [], by simp, hkept, books.nil_sublist⟩

def storedOf (history : List BookRecord) : List FetchedBook :=
  history.filterMap fun
    | .stored b => some b
    | .notFound _ _ => none

@[simp] theorem storedOf_append_stored (history : List BookRecord) (books : List FetchedBook) :
    storedOf (history ++ books.map .stored) = storedOf history ++ books := by
  rw [storedOf, List.filterMap_append, storedOf, List.filterMap_map]
  congr 1
  exact List.filterMap_some

@[simp] theorem storedOf_append_notFound (history : List BookRecord) (token : String) (goneAt : ℚ) :
    storedOf (history ++ [.notFound token goneAt]) = storedOf history := by
  simp [storedOf]

/-- A batch in flight fetches each token once, and has stamped what it has. -/
structure BatchInv (b : Batch) (clock : ℚ) : Prop where
  started : b.cycleStart ≤ clock
  nodup : (b.tasks.map BookTask.tokenId).Nodup
  fetched : ∀ task ∈ b.tasks, ∀ fb, task.outcome = some (some fb) →
    fb.book.tokenId = task.tokenId ∧ b.receivedAt task.tokenId = some fb.receivedAt ∧
      b.cycleStart ≤ fb.receivedAt ∧ fb.receivedAt ≤ clock

def BookFeed.floor (s : BookFeed) : ℚ := (s.batch.map Batch.cycleStart).getD s.clock

structure FeedInv (s : BookFeed) : Prop where
  store : StoreInv s.store s.floor s.history
  bounded : ∀ r ∈ s.history, r.stamp ≤ s.clock
  batch : ∀ b ∈ s.batch, BatchInv b s.clock
  observed : s.observed.Sublist (storedOf s.history)
  persisted : s.persisted.Sublist (storedOf s.history)

theorem feedInv_start (clock : ℚ) : FeedInv (.start clock) where
  store := storeInv_empty clock
  bounded r hr := by cases hr
  batch b hb := by cases hb
  observed := .slnil
  persisted := .slnil

theorem FeedInv.floor_le {s : BookFeed} (h : FeedInv s) : s.floor ≤ s.clock := by
  unfold BookFeed.floor
  cases hb : s.batch with
  | none => exact le_rfl
  | some b => exact (h.batch b hb).started

theorem BatchInv.later {b : Batch} {clock clock' : ℚ} (h : BatchInv b clock) (hle : clock ≤ clock') :
    BatchInv b clock' where
  started := h.started.trans hle
  nodup := h.nodup
  fetched task htask fb hfb := by
    obtain ⟨htoken, hstamp, hstart, hclock⟩ := h.fetched task htask fb hfb
    exact ⟨htoken, hstamp, hstart, hclock.trans hle⟩

/-- Handing over only stored books keeps the invariant. -/
theorem feedInv_deliver {s : BookFeed} {history₀ : List BookRecord} {books : List FetchedBook}
    (hooks : BookHooks) (throttle : Bool) (now : ℚ)
    (hstore : StoreInv s.store s.floor s.history) (hbounded : ∀ r ∈ s.history, r.stamp ≤ s.clock)
    (hbatch : ∀ b ∈ s.batch, BatchInv b s.clock) (hhistory : s.history = history₀ ++ books.map .stored)
    (hobserved : s.observed.Sublist (storedOf history₀))
    (hpersisted : s.persisted.Sublist (storedOf history₀)) :
    FeedInv (s.deliverBooks hooks throttle now books) := by
  obtain ⟨last, kept, seen, heq, hkept, hseen⟩ := deliverBooks_eq hooks throttle now s books
  rw [heq]
  refine ⟨hstore, hbounded, hbatch, ?_, ?_⟩
  · show (s.observed ++ seen).Sublist (storedOf s.history)
    rw [hhistory, storedOf_append_stored]
    exact hobserved.append hseen
  · show (s.persisted ++ kept).Sublist (storedOf s.history)
    rw [hhistory, storedOf_append_stored]
    exact hpersisted.append hkept

theorem step_sampleStart {hooks : BookHooks} {s t : BookFeed} {markets : List Market}
    {prunedAt cycleStart : ℚ} (h : s.step hooks (.sampleStart markets prunedAt cycleStart) = some t) :
    s.batch = none ∧ s.clock ≤ cycleStart ∧ ∃ last,
      (markets = [] ∧ t = { s with
        lastPersisted := last
        clock := cycleStart
        store := (s.store.setOrderBooks [] cycleStart (fun _ => none) s.heldTokens).1 }) ∨
      (markets ≠ [] ∧ t = { s with
        lastPersisted := last
        clock := cycleStart
        batch := some ⟨cycleStart, (batchTokens markets).map (⟨·, none⟩), fun _ => none⟩ }) := by
  simp only [BookFeed.step] at h
  split_ifs at h with hguard hmarkets
  · simp only [not_or, not_lt, Bool.not_eq_true, Option.isSome_eq_false_iff,
      Option.isNone_iff_eq_none] at hguard
    obtain ⟨hidle, hpruned, hstart⟩ := hguard
    obtain rfl := Option.some.inj h
    refine ⟨hidle, hpruned.trans hstart, (s.pruneLastPersisted hooks prunedAt).lastPersisted,
      .inl ⟨hmarkets, ?_⟩⟩
    simp [BookFeed.stored, BookFeed.pruneLastPersisted, BookStore.setOrderBooks]
  · simp only [not_or, not_lt, Bool.not_eq_true, Option.isSome_eq_false_iff,
      Option.isNone_iff_eq_none] at hguard
    obtain ⟨hidle, hpruned, hstart⟩ := hguard
    obtain rfl := Option.some.inj h
    exact ⟨hidle, hpruned.trans hstart, (s.pruneLastPersisted hooks prunedAt).lastPersisted,
      .inr ⟨hmarkets, rfl⟩⟩

theorem step_sampleAnswer {hooks : BookHooks} {s t : BookFeed} {i : ℕ} {answer : BookAnswer}
    {goneAt receivedAt : ℚ} (h : s.step hooks (.sampleAnswer i answer goneAt receivedAt) = some t) :
    s.clock ≤ goneAt ∧ goneAt ≤ receivedAt ∧ ∃ batch task, s.batch = some batch ∧
      batch.tasks[i]? = some task ∧ task.outcome = none ∧
      t = { (s.fetchBookSafely task.tokenId answer goneAt receivedAt).2 with
        clock := receivedAt
        batch := some { batch with
          tasks := batch.tasks.set i
            ⟨task.tokenId, some (s.fetchBookSafely task.tokenId answer goneAt receivedAt).1⟩
          receivedAt := Function.update batch.receivedAt task.tokenId (some receivedAt) } } := by
  simp only [BookFeed.step] at h
  split_ifs at h with hguard
  obtain ⟨batch, hbatch, h⟩ := Option.bind_eq_some_iff.mp h
  obtain ⟨task, htask, h⟩ := Option.bind_eq_some_iff.mp h
  split_ifs at h with hopen
  rw [not_or, not_lt, not_lt] at hguard
  obtain rfl := Option.some.inj h
  exact ⟨hguard.1, hguard.2, batch, task, hbatch, htask, by simpa using hopen, rfl⟩

theorem step_sampleEnd {hooks : BookHooks} {s t : BookFeed} {deliveredAt : ℚ}
    (h : s.step hooks (.sampleEnd deliveredAt) = some t) :
    s.clock ≤ deliveredAt ∧ ∃ batch books, s.batch = some batch ∧ batch.books = some books ∧
      t = ({ s with
        store := (s.store.setOrderBooks books batch.cycleStart batch.receivedAt s.heldTokens).1
        history := s.history ++
          (s.store.setOrderBooks books batch.cycleStart batch.receivedAt s.heldTokens).2.map .stored
        clock := deliveredAt
        batch := none } : BookFeed).deliverBooks hooks false deliveredAt
          (s.store.setOrderBooks books batch.cycleStart batch.receivedAt s.heldTokens).2 := by
  simp only [BookFeed.step] at h
  split_ifs at h with hguard
  obtain ⟨batch, hbatch, h⟩ := Option.bind_eq_some_iff.mp h
  obtain ⟨books, hbooks, h⟩ := Option.bind_eq_some_iff.mp h
  obtain rfl := Option.some.inj h
  exact ⟨not_lt.mp hguard, batch, books, hbatch, hbooks, rfl⟩

/-- A refresh that is answered leaves what its fetch left, or its book stored and
delivered. -/
theorem step_refreshAnswer {hooks : BookHooks} {s t : BookFeed} {tokenId : String}
    {answer : BookAnswer} {goneAt receivedAt deliveredAt : ℚ}
    (h : s.step hooks (.refreshAnswer tokenId answer goneAt receivedAt deliveredAt) = some t) :
    s.clock ≤ goneAt ∧ goneAt ≤ receivedAt ∧ receivedAt ≤ deliveredAt ∧
      ∃ book s', s.fetchBookSafely tokenId answer goneAt receivedAt = (book, s') ∧
        (t = { s' with clock := deliveredAt } ∨
          ∃ b, book = some b ∧
            (∀ prev ∈ s'.store.orderBooks b.book.tokenId, prev.fetchedAt ≤ receivedAt) ∧
            (∀ g ∈ s'.store.gone b.book.tokenId, g < receivedAt) ∧
            t = ({ s' with
              store := s'.store.write b receivedAt
              history := s'.history ++ [b].map .stored
              clock := deliveredAt } : BookFeed).deliverBooks hooks true deliveredAt [b]) := by
  simp only [BookFeed.step] at h
  split_ifs at h with hguard
  simp only [not_or, not_lt] at hguard
  refine ⟨hguard.1, hguard.2.1, hguard.2.2, ?_⟩
  cases hf : s.fetchBookSafely tokenId answer goneAt receivedAt with
  | mk book s' =>
    refine ⟨book, s', rfl, ?_⟩
    rw [hf] at h
    cases book with
    | none => exact .inl (Option.some.inj h).symm
    | some b =>
      simp only [BookStore.putOrderBook] at h
      split_ifs at h with hnewer hgone
      · exact .inl (Option.some.inj h).symm
      · exact .inl (Option.some.inj h).symm
      · refine .inr ⟨b, rfl, fun prev hprev => ?_, fun g hg => ?_, (Option.some.inj h).symm⟩
        · by_contra hlt
          exact hnewer ((newer_iff _ _ _).mpr ⟨prev, hprev, not_le.mp hlt⟩)
        · by_contra hle
          exact hgone ((predatesGoneMark_iff _ _ _).mpr ⟨g, hg, not_lt.mp hle⟩)

def BookEvent.Distinct : BookEvent → Prop
  | .sampleStart markets _ _ => (batchTokens markets).Nodup
  | _ => True

/-- A later clock: with no batch in flight the floor moves with it. -/
theorem FeedInv.later {s : BookFeed} (h : FeedInv s) {clock : ℚ} (hle : s.clock ≤ clock) :
    FeedInv { s with clock := clock } := by
  refine ⟨h.store.raise ?_, fun r hr => (h.bounded r hr).trans hle,
    fun b hb => (h.batch b hb).later hle, h.observed, h.persisted⟩
  unfold BookFeed.floor
  cases s.batch with
  | none => exact hle
  | some b => exact le_rfl

/-- A fetch that brings a book leaves the manager alone. -/
theorem fetch_some {s t : BookFeed} {tokenId : String} {answer : BookAnswer} {goneAt receivedAt : ℚ}
    {b : FetchedBook} (hf : s.fetchBookSafely tokenId answer goneAt receivedAt = (some b, t)) :
    t = s ∧ b.book.tokenId = tokenId ∧ b.receivedAt = receivedAt := by
  cases answer with
  | book ts bids asks =>
    obtain ⟨hb, rfl⟩ := Prod.mk.inj hf
    obtain rfl := Option.some.inj hb
    exact ⟨rfl, rfl, rfl⟩
  | notFound => cases hf
  | failed => cases hf

/-- What a fetch leaves. -/
theorem feedInv_fetch {s t : BookFeed} (h : FeedInv s) {tokenId : String} {answer : BookAnswer}
    {goneAt receivedAt : ℚ} {book : Option FetchedBook} (hgone : s.clock ≤ goneAt)
    (hreceived : goneAt ≤ receivedAt)
    (hf : s.fetchBookSafely tokenId answer goneAt receivedAt = (book, t)) :
    FeedInv { t with clock := receivedAt } ∧ t.batch = s.batch := by
  have hlater := h.later (hgone.trans hreceived)
  cases answer with
  | book ts bids asks =>
    obtain ⟨-, rfl⟩ := Prod.mk.inj hf
    exact ⟨hlater, rfl⟩
  | notFound =>
    obtain ⟨-, rfl⟩ := Prod.mk.inj hf
    refine ⟨⟨?_, ?_, hlater.batch, ?_, ?_⟩, rfl⟩
    · exact storeInv_markBookGone hlater.store tokenId fun r hr => (h.bounded r hr).trans hgone
    · intro r hr
      rcases List.mem_append.mp hr with hr | hr
      · exact hlater.bounded r hr
      · rw [List.mem_singleton.mp hr]
        exact hreceived
    · show s.observed.Sublist (storedOf (s.history ++ [.notFound tokenId goneAt]))
      rw [storedOf_append_notFound]
      exact h.observed
    · show s.persisted.Sublist (storedOf (s.history ++ [.notFound tokenId goneAt]))
      rw [storedOf_append_notFound]
      exact h.persisted
  | failed =>
    obtain ⟨-, rfl⟩ := Prod.mk.inj hf
    exact ⟨hlater, rfl⟩

/-- The books of a finished batch are its tasks' outcomes, in their order. -/
theorem Batch.books_sublist {tasks : List BookTask} {outcomes : List (Option FetchedBook)}
    (h : tasks.mapM BookTask.outcome = some outcomes)
    (htoken : ∀ task ∈ tasks, ∀ fb, task.outcome = some (some fb) → fb.book.tokenId = task.tokenId) :
    ((outcomes.filterMap id).map fun fb => fb.book.tokenId).Sublist (tasks.map BookTask.tokenId) ∧
      ∀ fb ∈ outcomes.filterMap id, ∃ task ∈ tasks, task.outcome = some (some fb) := by
  induction tasks generalizing outcomes with
  | nil =>
    obtain rfl : [] = outcomes := by simpa using h
    simp
  | cons task tasks ih =>
    rw [List.mapM_cons] at h
    obtain ⟨outcome, houtcome, h⟩ := Option.bind_eq_some_iff.mp h
    obtain ⟨rest, hrest, h⟩ := Option.bind_eq_some_iff.mp h
    obtain rfl := Option.some.inj h
    obtain ⟨hsub, hmem⟩ := ih hrest fun t ht => htoken t (List.mem_cons_of_mem _ ht)
    cases outcome with
    | none =>
      refine ⟨hsub.cons _, fun fb hfb => ?_⟩
      obtain ⟨t, ht, hfb⟩ := hmem fb hfb
      exact ⟨t, List.mem_cons_of_mem _ ht, hfb⟩
    | some b =>
      have hb := htoken task List.mem_cons_self b houtcome
      constructor
      · simpa [hb] using hsub
      · intro fb hfb
        rcases List.mem_cons.mp hfb with rfl | hfb
        · exact ⟨task, List.mem_cons_self, houtcome⟩
        · obtain ⟨t, ht, hfb⟩ := hmem fb hfb
          exact ⟨t, List.mem_cons_of_mem _ ht, hfb⟩

/-- The books of a finished batch meet what storing them needs. -/
theorem BatchInv.batchBooks {b : Batch} {clock : ℚ} (h : BatchInv b clock) {books : List FetchedBook}
    (hbooks : b.books = some books) :
    BatchBooks books b.cycleStart b.receivedAt ∧ ∀ fb ∈ books, fb.receivedAt ≤ clock := by
  obtain ⟨outcomes, houtcomes, rfl⟩ := Option.map_eq_some_iff.mp hbooks
  obtain ⟨hsub, hmem⟩ := Batch.books_sublist houtcomes fun task ht fb hfb => (h.fetched task ht fb hfb).1
  refine ⟨⟨h.nodup.sublist hsub, fun fb hfb => ?_, fun fb hfb => ?_⟩, fun fb hfb => ?_⟩ <;>
    obtain ⟨task, ht, houtcome⟩ := hmem fb hfb <;>
    obtain ⟨htoken, hstamp, hstart, hclock⟩ := h.fetched task ht fb houtcome
  · rw [htoken, hstamp]
  · exact hstart
  · exact hclock

theorem feedInv_sampleStart {hooks : BookHooks} {s t : BookFeed} (h : FeedInv s)
    {markets : List Market} {prunedAt cycleStart : ℚ} (hd : (batchTokens markets).Nodup)
    (hstep : s.step hooks (.sampleStart markets prunedAt cycleStart) = some t) : FeedInv t := by
  obtain ⟨hidle, hclock, last, ⟨-, rfl⟩ | ⟨-, rfl⟩⟩ := step_sampleStart hstep
  · have hlater := h.later hclock
    have hstore : StoreInv s.store cycleStart s.history := by
      have := hlater.store
      rwa [BookFeed.floor, hidle] at this
    have hbatch := storeInv_setOrderBooks hstore (batchBooks_nil cycleStart fun _ => none) s.heldTokens
    refine ⟨?_, hlater.bounded, hlater.batch, h.observed, h.persisted⟩
    rw [BookFeed.floor, hidle]
    simpa [BookStore.setOrderBooks] using hbatch
  · have hlater := h.later hclock
    refine ⟨?_, hlater.bounded, fun b hb => ?_, h.observed, h.persisted⟩
    · have := hlater.store
      rwa [BookFeed.floor, hidle] at this
    · obtain rfl := Option.some.inj hb
      refine ⟨le_rfl, by simpa [Function.comp_def] using hd, fun task htask fb hfb => ?_⟩
      obtain ⟨token, -, rfl⟩ := List.mem_map.mp htask
      cases hfb

theorem feedInv_sampleAnswer {hooks : BookHooks} {s t : BookFeed} (h : FeedInv s) {i : ℕ}
    {answer : BookAnswer} {goneAt receivedAt : ℚ}
    (hstep : s.step hooks (.sampleAnswer i answer goneAt receivedAt) = some t) : FeedInv t := by
  obtain ⟨hgone, hreceived, batch, task, hbatch, htask, hopen, rfl⟩ := step_sampleAnswer hstep
  cases hf : s.fetchBookSafely task.tokenId answer goneAt receivedAt with
  | mk book s' =>
    obtain ⟨hinv, hsame⟩ := feedInv_fetch h hgone hreceived hf
    have hold := h.batch batch hbatch
    have hmem := List.mem_of_getElem? htask
    refine ⟨?_, hinv.bounded, fun b hb => ?_, hinv.observed, hinv.persisted⟩
    · have := hinv.store
      rwa [BookFeed.floor, show ({ s' with clock := receivedAt } : BookFeed).batch = some batch from
        hsame.trans hbatch] at this
    · obtain rfl := Option.some.inj hb
      refine ⟨(hold.later (hgone.trans hreceived)).started, ?_, fun task' htask' fb hfb => ?_⟩
      · have htokens : (batch.tasks.set i ⟨task.tokenId, some book⟩).map BookTask.tokenId =
            batch.tasks.map BookTask.tokenId := by
          obtain ⟨hi, rfl⟩ := List.getElem?_eq_some_iff.mp htask
          rw [List.map_set]
          have hself := @List.set_getElem_self _ (batch.tasks.map BookTask.tokenId) i (by simpa using hi)
          rwa [List.getElem_map] at hself
        show ((batch.tasks.set i ⟨task.tokenId, some book⟩).map BookTask.tokenId).Nodup
        rw [htokens]
        exact hold.nodup
      · rcases List.mem_or_eq_of_mem_set htask' with htask' | rfl
        · -- another task: its token, and so its stamp, is untouched
          have hne : task'.tokenId ≠ task.tokenId := by
            intro heq
            rw [List.inj_on_of_nodup_map hold.nodup htask' hmem heq, hopen] at hfb
            cases hfb
          obtain ⟨htoken, hstamp, hstart, hclock⟩ := hold.fetched task' htask' fb hfb
          refine ⟨htoken, ?_, hstart, hclock.trans (hgone.trans hreceived)⟩
          show Function.update batch.receivedAt task.tokenId (some receivedAt) task'.tokenId = _
          rw [Function.update_of_ne hne, hstamp]
        · obtain rfl : book = some fb := Option.some.inj hfb
          obtain ⟨-, htoken, hstamp⟩ := fetch_some hf
          refine ⟨htoken, ?_, ?_, hstamp.le⟩
          · show Function.update batch.receivedAt task.tokenId (some receivedAt) task.tokenId = _
            rw [Function.update_self, hstamp]
          · rw [hstamp]
            exact hold.started.trans (hgone.trans hreceived)

theorem feedInv_sampleEnd {hooks : BookHooks} {s t : BookFeed} (h : FeedInv s) {deliveredAt : ℚ}
    (hstep : s.step hooks (.sampleEnd deliveredAt) = some t) : FeedInv t := by
  obtain ⟨hclock, batch, books, hbatch, hbooks, rfl⟩ := step_sampleEnd hstep
  obtain ⟨hbatchBooks, hle⟩ := (h.batch batch hbatch).batchBooks hbooks
  have hstore : StoreInv s.store batch.cycleStart s.history := by
    have := h.store
    rwa [BookFeed.floor, hbatch] at this
  have hafter := storeInv_setOrderBooks hstore hbatchBooks s.heldTokens
  have hstarted := (h.batch batch hbatch).started
  refine feedInv_deliver hooks false deliveredAt (hafter.raise (hstarted.trans hclock)) ?_ ?_ rfl
    h.observed h.persisted
  · intro r hr
    rcases List.mem_append.mp hr with hr | hr
    · exact (h.bounded r hr).trans hclock
    · obtain ⟨fb, hfb, rfl⟩ := List.mem_map.mp hr
      exact (hle fb (setOrderBooks_accepted hfb)).trans hclock
  · rintro b hb
    cases hb

theorem feedInv_refreshAnswer {hooks : BookHooks} {s t : BookFeed} (h : FeedInv s) {tokenId : String}
    {answer : BookAnswer} {goneAt receivedAt deliveredAt : ℚ}
    (hstep : s.step hooks (.refreshAnswer tokenId answer goneAt receivedAt deliveredAt) = some t) :
    FeedInv t := by
  obtain ⟨hgone, hreceived, hdelivered, book, s', hf, hcase⟩ := step_refreshAnswer hstep
  obtain ⟨hinv, -⟩ := feedInv_fetch h hgone hreceived hf
  have hlater : FeedInv { s' with clock := deliveredAt } := hinv.later hdelivered
  rcases hcase with rfl | ⟨b, rfl, hnewer, halive, rfl⟩
  · exact hlater
  · obtain ⟨-, -, hstamp⟩ := fetch_some hf
    have hwrite : StoreInv (s'.store.write b receivedAt) ({ s' with clock := receivedAt } : BookFeed).floor
        (s'.history ++ [.stored b]) := by
      have hfloor := hinv.floor_le.trans_eq hstamp.symm
      rw [← hstamp] at hnewer halive
      have := storeInv_write hinv.store hfloor hnewer halive
      rwa [hstamp] at this
    refine feedInv_deliver hooks true deliveredAt (hwrite.raise ?_) ?_ hlater.batch rfl
      hinv.observed hinv.persisted
    · unfold BookFeed.floor
      cases s'.batch with
      | none => exact hdelivered
      | some b => exact le_rfl
    · intro r hr
      rcases List.mem_append.mp hr with hr | hr
      · exact hlater.bounded r hr
      · rw [List.mem_singleton.mp hr]
        exact hstamp.le.trans hdelivered

theorem feedInv_step {hooks : BookHooks} {s t : BookFeed} (h : FeedInv s) {e : BookEvent}
    (hd : e.Distinct) (hstep : s.step hooks e = some t) : FeedInv t := by
  cases e with
  | sampleStart markets prunedAt cycleStart => exact feedInv_sampleStart h hd hstep
  | sampleAnswer i answer goneAt receivedAt => exact feedInv_sampleAnswer h hstep
  | sampleEnd deliveredAt => exact feedInv_sampleEnd h hstep
  | sampleCancelled =>
    obtain rfl := Option.some.inj hstep
    exact ⟨h.store.raise h.floor_le, h.bounded, fun b hb => (by cases hb), h.observed, h.persisted⟩
  | refreshAnswer tokenId answer goneAt receivedAt deliveredAt => exact feedInv_refreshAnswer h hstep
  | holdings tokens =>
    obtain rfl := Option.some.inj hstep
    exact ⟨h.store, h.bounded, h.batch, h.observed, h.persisted⟩

/-- The manager's runs, from any start of the clock, in which no sample cycle
fetches a token twice. -/
abbrev BookRun (hooks : BookHooks) : BookFeed → List BookEvent → BookFeed → Prop :=
  Run (guarded (fun _ e => e.Distinct) fun s e t => s.step hooks e = some t)

theorem feedInv_run {hooks : BookHooks} {clock : ℚ} {es : List BookEvent} {s : BookFeed}
    (h : BookRun hooks (.start clock) es s) : FeedInv s := by
  refine h.invariant ?_ (feedInv_start clock)
  rintro s e t hi ⟨hd, hstep⟩
  exact feedInv_step hi hd hstep

/-- A later record of a token is no older, and a stored book newer than any 404
before it. -/
def BookRecord.Newest : BookRecord → BookRecord → Prop
  | .stored a, .stored b => a.book.tokenId = b.book.tokenId → a.receivedAt ≤ b.receivedAt
  | .notFound token goneAt, .stored b => token = b.book.tokenId → goneAt < b.receivedAt
  | _, .notFound _ _ => True

theorem StoreInv.newest {s : BookStore} {floor : ℚ} {history : List BookRecord}
    (h : StoreInv s floor history) : history.Pairwise BookRecord.Newest := by
  rw [List.pairwise_iff_forall_sublist]
  intro a b hab
  cases b with
  | notFound token goneAt => cases a <;> trivial
  | stored b =>
    have hordered := (h.registers b.book.tokenId).ordered.sublist (hab.filterMap _)
    cases a with
    | stored a =>
      intro heq
      simpa [BookRecord.entryOf, heq, Entry.Precedes] using hordered
    | notFound token goneAt =>
      intro heq
      simpa [BookRecord.entryOf, heq, Entry.Precedes] using hordered

/-- Books handed over in the order they were stored are in the order of their receipt. -/
theorem handed_newest {history : List BookRecord} (h : history.Pairwise BookRecord.Newest)
    {handed : List FetchedBook} (hsub : handed.Sublist (storedOf history)) :
    handed.Pairwise fun a b => a.book.tokenId = b.book.tokenId → a.receivedAt ≤ b.receivedAt := by
  refine List.Pairwise.sublist hsub ?_
  rw [storedOf, List.pairwise_filterMap]
  refine h.imp fun {r r'} hnew a ha b hb => ?_
  cases r with
  | notFound token goneAt => cases ha
  | stored a' =>
    cases r' with
    | notFound token goneAt => cases hb
    | stored b' =>
      obtain rfl := Option.some.inj ha
      obtain rfl := Option.some.inj hb
      exact hnew

/-- The start of the cycle whose batch an event stores. -/
def BookFeed.endedBatch (s : BookFeed) : BookEvent → Option ℚ
  | .sampleStart [] _ cycleStart => some cycleStart
  | .sampleEnd _ => s.batch.map Batch.cycleStart
  | _ => none

/-- Clearing a gone mark takes a book received after it. -/
def ClearsByNewer (s t : BookStore) : Prop :=
  ∀ token g, s.gone token = some g → t.gone token = none →
    ∃ c, t.orderBooks token = some c ∧ g < c.fetched.receivedAt

theorem BatchLeaves.clears {s result : BookStore} {accepted books : List FetchedBook} {batchAt : ℚ}
    {keep : List String} (h : ∀ token, BatchLeaves s result accepted books batchAt keep token) :
    ClearsByNewer s result := by
  intro token g hg hclear
  rcases h token with ⟨-, heq, -⟩ | ⟨-, heq, -, -⟩ | ⟨b, -, -, halive, hc, -, -⟩
  · rw [← heq, hclear] at hg
    cases hg
  · rw [← heq, hclear] at hg
    cases hg
  · exact ⟨_, hc, halive g hg⟩

/-- A kept token's book outlives a batch, unless one received no earlier replaces it. -/
theorem BatchLeaves.keeps {s result : BookStore} {accepted books : List FetchedBook} {batchAt : ℚ}
    {keep : List String} {token : String} (h : BatchLeaves s result accepted books batchAt keep token)
    (hkeep : token ∈ keep) {c : CachedBook} (hc : s.orderBooks token = some c)
    (hage : batchAt - c.fetchedAt ≤ keptBookMaxAgeSeconds) :
    ∃ c', result.orderBooks token = some c' ∧ (c' = c ∨ c.fetchedAt ≤ c'.fetched.receivedAt) := by
  rcases h with ⟨heq, -, -⟩ | ⟨-, -, -, hold⟩ | ⟨b, -, hnewer, -, heq, -, -⟩
  · exact ⟨c, heq.trans hc, .inl rfl⟩
  · exact absurd hage (not_le.mpr ((hold c hc).2 hkeep))
  · exact ⟨_, heq, .inr (hnewer c hc)⟩

theorem clears_fetch (s : BookFeed) (tokenId : String) (answer : BookAnswer) (goneAt receivedAt : ℚ) :
    ∀ token, (s.fetchBookSafely tokenId answer goneAt receivedAt).2.store.gone token = none →
      s.store.gone token = none := by
  intro token hclear
  cases answer with
  | book ts bids asks => exact hclear
  | failed => exact hclear
  | notFound =>
    by_cases ht : token = tokenId
    · subst ht
      simp [BookFeed.fetchBookSafely, BookStore.markBookGone] at hclear
    · simpa [BookFeed.fetchBookSafely, BookStore.markBookGone, Function.update_of_ne ht] using hclear

theorem clears_step {hooks : BookHooks} {s t : BookFeed} (h : FeedInv s) {e : BookEvent}
    (hstep : s.step hooks e = some t) : ClearsByNewer s.store t.store := by
  have hkept : ∀ {u : BookStore}, (∀ token, u.gone token = none → s.store.gone token = none) →
      ClearsByNewer s.store u := by
    intro u hu token g hg hclear
    rw [hu token hclear] at hg
    cases hg
  cases e with
  | sampleStart markets prunedAt cycleStart =>
    obtain ⟨-, -, last, ⟨-, rfl⟩ | ⟨-, rfl⟩⟩ := step_sampleStart hstep
    · exact BatchLeaves.clears
        (setOrderBooks_leaves h.store.exclusive (batchBooks_nil cycleStart fun _ => none) s.heldTokens)
    · exact hkept fun token hnone => hnone
  | sampleAnswer i answer goneAt receivedAt =>
    obtain ⟨-, -, batch, task, -, -, -, rfl⟩ := step_sampleAnswer hstep
    exact hkept (clears_fetch s task.tokenId answer goneAt receivedAt)
  | sampleEnd deliveredAt =>
    obtain ⟨-, batch, books, hbatch, hbooks, rfl⟩ := step_sampleEnd hstep
    obtain ⟨last, kept, seen, heq, -, -⟩ := deliverBooks_eq hooks false deliveredAt _ _
    rw [heq]
    exact BatchLeaves.clears (setOrderBooks_leaves h.store.exclusive
      ((h.batch batch hbatch).batchBooks hbooks).1 s.heldTokens)
  | sampleCancelled =>
    obtain rfl := Option.some.inj hstep
    exact hkept fun token hnone => hnone
  | refreshAnswer tokenId answer goneAt receivedAt deliveredAt =>
    obtain ⟨-, -, -, book, s', hf, hcase⟩ := step_refreshAnswer hstep
    rcases hcase with rfl | ⟨b, rfl, -, halive, rfl⟩
    · have hfetch := clears_fetch s tokenId answer goneAt receivedAt
      rw [hf] at hfetch
      exact hkept hfetch
    · obtain ⟨rfl, -, hstamp⟩ := fetch_some hf
      obtain ⟨last, kept, seen, heq, -, -⟩ := deliverBooks_eq hooks true deliveredAt _ _
      rw [heq]
      intro token g hg hclear
      by_cases ht : token = b.book.tokenId
      · subst ht
        refine ⟨⟨b, receivedAt⟩, by simp [BookStore.write], ?_⟩
        exact (halive g hg).trans_eq hstamp.symm
      · have hsame : s'.store.gone token = none := by
          simpa [BookStore.write, Function.update_of_ne ht] using hclear
        rw [hsame] at hg
        cases hg
  | holdings tokens =>
    obtain rfl := Option.some.inj hstep
    exact hkept fun token hnone => hnone

theorem keeps_step {hooks : BookHooks} {s t : BookFeed} (h : FeedInv s) {e : BookEvent}
    (hstep : s.step hooks e = some t) {cycleStart : ℚ} (hend : s.endedBatch e = some cycleStart)
    {token : String} (hkeep : token ∈ s.heldTokens) {c : CachedBook}
    (hc : s.store.orderBooks token = some c)
    (hage : cycleStart - c.fetched.receivedAt ≤ keptBookMaxAgeSeconds) :
    ∃ c', t.store.orderBooks token = some c' ∧
      (c' = c ∨ c.fetched.receivedAt ≤ c'.fetched.receivedAt) := by
  rw [← h.store.coherent token c hc] at hage ⊢
  cases e with
  | sampleStart markets prunedAt start =>
    obtain ⟨-, -, last, ⟨rfl, rfl⟩ | ⟨hne, rfl⟩⟩ := step_sampleStart hstep
    · obtain rfl := Option.some.inj hend
      exact (setOrderBooks_leaves h.store.exclusive (batchBooks_nil start fun _ => none)
        s.heldTokens token).keeps hkeep hc hage
    · obtain ⟨m, ms, rfl⟩ := List.exists_cons_of_ne_nil hne
      cases hend
  | sampleEnd deliveredAt =>
    obtain ⟨-, batch, books, hbatch, hbooks, rfl⟩ := step_sampleEnd hstep
    obtain ⟨last, kept, seen, heq, -, -⟩ := deliverBooks_eq hooks false deliveredAt _ _
    obtain rfl : batch.cycleStart = cycleStart := by simpa [BookFeed.endedBatch, hbatch] using hend
    rw [heq]
    exact (setOrderBooks_leaves h.store.exclusive ((h.batch batch hbatch).batchBooks hbooks).1
      s.heldTokens token).keeps hkeep hc hage
  | sampleAnswer i answer goneAt receivedAt => cases hend
  | sampleCancelled => cases hend
  | refreshAnswer tokenId answer goneAt receivedAt deliveredAt => cases hend
  | holdings tokens => cases hend

/-- In every run whose sample cycles list each token once: books reach the
observer and the database in the order of their receipt, token by token; no book
received by a 404 of its token is stored after it or clears its mark; a token
marked gone has no cached book; and a batch keeps the book of a held token that is
young enough, unless it stores one received no earlier. -/
theorem newest_book_wins {hooks : BookHooks} {clock : ℚ} {es : List BookEvent} {s : BookFeed}
    (h : BookRun hooks (.start clock) es s) :
    (s.observed.Pairwise fun a b => a.book.tokenId = b.book.tokenId → a.receivedAt ≤ b.receivedAt) ∧
    (s.persisted.Pairwise fun a b => a.book.tokenId = b.book.tokenId → a.receivedAt ≤ b.receivedAt) ∧
    s.history.Pairwise BookRecord.Newest ∧
    (∀ token c g, s.store.orderBooks token = some c → .notFound token g ∈ s.history →
      g < c.fetched.receivedAt) ∧
    (∀ token, s.store.gone token ≠ none → s.store.orderBooks token = none) ∧
    ∀ e t, s.step hooks e = some t →
      ClearsByNewer s.store t.store ∧
      ∀ cycleStart, s.endedBatch e = some cycleStart → ∀ token ∈ s.heldTokens, ∀ c,
        s.store.orderBooks token = some c →
        cycleStart - c.fetched.receivedAt ≤ keptBookMaxAgeSeconds →
        ∃ c', t.store.orderBooks token = some c' ∧
          (c' = c ∨ c.fetched.receivedAt ≤ c'.fetched.receivedAt) := by
  have hinv := feedInv_run h
  have hnewest := hinv.store.newest
  refine ⟨handed_newest hnewest hinv.observed, handed_newest hnewest hinv.persisted, hnewest,
    fun token c g hc hg => ?_, hinv.store.exclusive, fun e t hstep => ⟨clears_step hinv hstep, ?_⟩⟩
  · rw [← hinv.store.coherent token c hc]
    refine (hinv.store.registers token).fresh _ (Option.mem_map_of_mem _ hc) g ?_
    exact List.mem_filterMap.mpr ⟨_, hg, by simp [BookRecord.entryOf]⟩
  · intro cycleStart hend token hkeep c hc hage
    exact keeps_step hinv hstep hend hkeep hc hage

theorem bookRun_of_foldlM {hooks : BookHooks} {clock : ℚ} {es : List BookEvent} {s : BookFeed}
    (h : es.foldlM (BookFeed.step hooks) (.start clock) = some s) (hd : ∀ e ∈ es, e.Distinct) :
    BookRun hooks (.start clock) es s :=
  (run_foldlM (BookFeed.step hooks) h).guard fun e he _ => hd e he

def sampleHooks : BookHooks := ⟨true, true, 60⟩

def sampleTwoSided : Market where
  marketId := "m1"
  conditionId := "0xc1"
  yesTokenId := "t1"
  noTokenId := some "t2"

/-- A batch overtaken by a refresh on one side and by a 404 on the other. -/
def sampleBookEvents : List BookEvent :=
  [.sampleStart [sampleTwoSided] 0 0, .sampleAnswer 0 (.book 1 [(2 / 5, 10)] []) 1 1,
    .sampleAnswer 1 (.book 1 [(3 / 5, 10)] []) 2 2,
    .refreshAnswer "t1" (.book 3 [(1 / 5, 10)] []) 3 3 3, .refreshAnswer "t2" .notFound 4 4 4,
    .sampleEnd 5]

theorem newest_book_wins_sample :
    ∃ s, sampleBookEvents.foldlM (BookFeed.step sampleHooks) (.start 0) = some s ∧
      s.observed.map FetchedBook.receivedAt = [3] ∧ s.store.gone "t2" = some 4 ∧
      s.store.orderBooks "t2" = none := by
  have hsome : (sampleBookEvents.foldlM (BookFeed.step sampleHooks) (.start 0)).isSome = true := by
    decide +kernel
  obtain ⟨s, hs⟩ := Option.isSome_iff_exists.mp hsome
  have hread : (sampleBookEvents.foldlM (BookFeed.step sampleHooks) (.start 0)).map (fun s =>
      (s.observed.map FetchedBook.receivedAt, s.store.gone "t2")) = some ([3], some 4) := by
    decide +kernel
  rw [hs] at hread
  obtain ⟨hobserved, hgone⟩ := Prod.mk.inj (Option.some.inj hread)
  have hd : ∀ e ∈ sampleBookEvents, e.Distinct := by
    simp [sampleBookEvents, BookEvent.Distinct, batchTokens, sampleTwoSided]
  obtain ⟨-, -, -, -, hexclusive, -⟩ := newest_book_wins (bookRun_of_foldlM hs hd)
  exact ⟨s, hs, hobserved, hgone, hexclusive "t2" (by rw [hgone]; simp)⟩

def sampleDoubled : Market := { sampleTwoSided with noTokenId := some "t1" }

/-- Its first fetch brings a book at 5, its second a 404 at 7. -/
def doubledEvents : List BookEvent :=
  [.sampleStart [sampleDoubled] 0 0, .sampleAnswer 0 (.book 1 [(2 / 5, 10)] []) 5 5,
    .sampleAnswer 1 .notFound 7 8, .sampleEnd 9]

theorem doubled_token_revived :
    ∃ s : BookFeed,
      Run (fun s e t => BookFeed.step sampleHooks s e = some t) (BookFeed.start 0) doubledEvents s ∧
      s.history = [.notFound "t1" 7, .stored ⟨⟨"t1", 1, [(2 / 5, 10)], []⟩, 5⟩] ∧
      s.store.gone "t1" = none ∧
      s.store.orderBooks "t1" = some ⟨⟨⟨"t1", 1, [(2 / 5, 10)], []⟩, 5⟩, 8⟩ ∧
      ¬ s.history.Pairwise BookRecord.Newest := by
  have hsome : (doubledEvents.foldlM (BookFeed.step sampleHooks) (.start 0)).isSome = true := by
    decide +kernel
  obtain ⟨s, hs⟩ := Option.isSome_iff_exists.mp hsome
  have hread : (doubledEvents.foldlM (BookFeed.step sampleHooks) (.start 0)).map (fun s =>
      (s.history, s.store.gone "t1", s.store.orderBooks "t1")) =
        some ([.notFound "t1" 7, .stored ⟨⟨"t1", 1, [(2 / 5, 10)], []⟩, 5⟩], none,
          some ⟨⟨⟨"t1", 1, [(2 / 5, 10)], []⟩, 5⟩, 8⟩) := by
    decide +kernel
  rw [hs] at hread
  obtain ⟨hhistory, hread⟩ := Prod.mk.inj (Option.some.inj hread)
  obtain ⟨hgone, hcached⟩ := Prod.mk.inj hread
  refine ⟨s, run_foldlM _ hs, hhistory, hgone, hcached, fun hnewest => ?_⟩
  rw [hhistory] at hnewest
  have := (List.pairwise_cons.mp hnewest).1 _ List.mem_cons_self rfl
  norm_num at this

end OpenPoly
