import OpenPoly.Lib.Run
import OpenPoly.Proofs.BookFeed

/-! The snapshots the refreshes of one token have persisted lie an interval apart, whatever
runs in between: the batches persist at will, and every cycle prunes the stamps that the
throttle goes by. -/

namespace OpenPoly

open Transition

variable {hooks : BookHooks} {s t u : BookFeed} {token : String}

/-- What is persisted is stamped. -/
theorem persist_stamps (hooks : BookHooks) (throttle : Bool) (now : ℚ) (s : BookFeed) (books : List FetchedBook) :
    ∃ kept, (books.foldl (persistOne hooks throttle now) s).persisted = s.persisted ++ kept ∧
      (∀ b ∈ kept, (books.foldl (persistOne hooks throttle now) s).lastPersisted b.book.tokenId = some now) ∧
      ∀ token, (books.foldl (persistOne hooks throttle now) s).lastPersisted token = s.lastPersisted token ∨
        (books.foldl (persistOne hooks throttle now) s).lastPersisted token = some now := by
  induction books generalizing s with
  | nil => exact ⟨[], (List.append_nil _).symm, List.forall_mem_nil _, fun _ => .inl rfl⟩
  | cons b books ih =>
    rw [List.foldl_cons]
    obtain ⟨kept, hpersisted, hkept, hstamps⟩ := ih (persistOne hooks throttle now s b)
    by_cases hskip : throttle ∧ (s.lastPersisted b.book.tokenId).any fun last =>
        now - last < hooks.persistInterval
    · have hone : persistOne hooks throttle now s b = s := if_pos hskip
      rw [hone] at hpersisted hkept hstamps ⊢
      exact ⟨kept, hpersisted, hkept, hstamps⟩
    · have hone : persistOne hooks throttle now s b = { s with
          lastPersisted := Function.update s.lastPersisted b.book.tokenId (some now)
          persisted := s.persisted ++ [b] } := if_neg hskip
      rw [hone] at hpersisted hkept hstamps ⊢
      refine ⟨b :: kept, ?_, ?_, ?_⟩
      · rw [hpersisted, List.append_assoc]
        rfl
      · intro b' hb'
        rcases List.mem_cons.mp hb' with rfl | hb'
        · rcases hstamps b'.book.tokenId with hold | hnow
          · rw [hold]
            exact Function.update_self _ _ _
          · exact hnow
        · exact hkept b' hb'
      · intro token
        rcases hstamps token with hold | hnow
        · by_cases htoken : token = b.book.tokenId
          · subst htoken
            rw [hold]
            exact .inr (Function.update_self _ _ _)
          · rw [hold]
            exact .inl (Function.update_of_ne htoken _ _)
        · exact .inr hnow

theorem deliver_stamps (hooks : BookHooks) (throttle : Bool) (now : ℚ) (s : BookFeed) (books : List FetchedBook) :
    (s.deliverBooks hooks throttle now books).clock = s.clock ∧
      ∃ kept, (s.deliverBooks hooks throttle now books).persisted = s.persisted ++ kept ∧
        (∀ b ∈ kept, (s.deliverBooks hooks throttle now books).lastPersisted b.book.tokenId = some now) ∧
        ∀ token, (s.deliverBooks hooks throttle now books).lastPersisted token = s.lastPersisted token ∨
          (s.deliverBooks hooks throttle now books).lastPersisted token = some now := by
  have hclock : (s.deliverBooks hooks throttle now books).clock = s.clock := by
    obtain ⟨last, kept, seen, heq, -⟩ := deliverBooks_eq hooks throttle now s books
    rw [heq]
  refine ⟨hclock, ?_⟩
  have hobserve : ∀ f : BookFeed,
      (if hooks.observes then { f with observed := f.observed ++ books } else f).persisted = f.persisted ∧
        (if hooks.observes then { f with observed := f.observed ++ books } else f).lastPersisted =
          f.lastPersisted := by
    intro f
    split_ifs <;> exact ⟨rfl, rfl⟩
  unfold BookFeed.deliverBooks
  dsimp only
  rw [(hobserve _).1, (hobserve _).2]
  by_cases hpersists : hooks.persists = true
  · rw [if_pos hpersists]
    exact persist_stamps hooks throttle now s books
  · rw [if_neg hpersists]
    exact ⟨[], (List.append_nil _).symm, List.forall_mem_nil _, fun _ => .inl rfl⟩

/-- What a step does to the stamps: a token's is kept, or set to the time now, or pruned
for being an interval old; what is persisted is stamped. -/
structure Stamps (hooks : BookHooks) (s t : BookFeed) : Prop where
  clock : s.clock ≤ t.clock
  kept : ∃ kept, t.persisted = s.persisted ++ kept ∧ ∀ b ∈ kept, t.lastPersisted b.book.tokenId = some t.clock
  stamps : ∀ token, t.lastPersisted token = s.lastPersisted token ∨ t.lastPersisted token = some t.clock ∨
    (t.lastPersisted token = none ∧ ∃ last, s.lastPersisted token = some last ∧
      hooks.persistInterval ≤ t.clock - last)

/-- A step that persists nothing and leaves the stamps. -/
theorem Stamps.still (hclock : s.clock ≤ t.clock) (hpersisted : t.persisted = s.persisted)
    (hlast : t.lastPersisted = s.lastPersisted) : Stamps hooks s t where
  clock := hclock
  kept := ⟨[], hpersisted.trans (List.append_nil _).symm, List.forall_mem_nil _⟩
  stamps token := .inl (congrFun hlast token)

/-- A delivery, at the time now. -/
theorem Stamps.deliver {throttle : Bool} {now : ℚ} {books : List FetchedBook} (hu : u.clock = now)
    (hclock : s.clock ≤ now) (hpersisted : u.persisted = s.persisted) (hlast : u.lastPersisted = s.lastPersisted) :
    Stamps hooks s (u.deliverBooks hooks throttle now books) := by
  obtain ⟨hnow, kept, hkept, hstamped, hstamps⟩ := deliver_stamps hooks throttle now u books
  rw [hu] at hnow
  refine ⟨?_, ⟨kept, ?_, ?_⟩, ?_⟩
  · rw [hnow]
    exact hclock
  · rw [hkept, hpersisted]
  · intro b hb
    rw [hnow]
    exact hstamped b hb
  · intro token
    rw [hnow]
    rcases hstamps token with hold | hset
    · exact .inl (hold.trans (congrFun hlast token))
    · exact .inr (.inl hset)

theorem pruned_stamps {now : ℚ} (hclock : s.clock ≤ t.clock) (hnow : now ≤ t.clock) (hpersisted : t.persisted = s.persisted)
    (hlast : t.lastPersisted = (s.pruneLastPersisted hooks now).lastPersisted) : Stamps hooks s t := by
  refine ⟨hclock, ⟨[], hpersisted.trans (List.append_nil _).symm, List.forall_mem_nil _⟩, ?_⟩
  intro token
  have htoken : t.lastPersisted token =
      (s.lastPersisted token).filter fun last => now - last < hooks.persistInterval := congrFun hlast token
  cases hstamp : s.lastPersisted token with
  | none =>
    rw [hstamp] at htoken
    exact .inl htoken
  | some last =>
    rw [hstamp] at htoken
    by_cases hold : now - last < hooks.persistInterval
    · left
      rw [htoken]
      simp [Option.filter, hold]
    · refine .inr (.inr ⟨?_, last, rfl, ?_⟩)
      · rw [htoken]
        simp [Option.filter, hold]
      · have := not_lt.mp hold
        linarith

theorem fetch_keeps (s : BookFeed) (token : String) (answer : BookAnswer) (goneAt receivedAt : ℚ) :
    (s.fetchBookSafely token answer goneAt receivedAt).2.persisted = s.persisted ∧
      (s.fetchBookSafely token answer goneAt receivedAt).2.lastPersisted = s.lastPersisted := by
  cases answer <;> exact ⟨rfl, rfl⟩

theorem step_stamps {e : BookEvent} (h : s.step hooks e = some t) : Stamps hooks s t := by
  cases e with
  | sampleStart markets prunedAt cycleStart =>
    simp only [BookFeed.step] at h
    split_ifs at h with hguard hmarkets
    · rw [not_or, not_or, not_lt, not_lt] at hguard
      cases h
      exact pruned_stamps (hguard.2.1.trans hguard.2.2) hguard.2.2 rfl rfl
    · rw [not_or, not_or, not_lt, not_lt] at hguard
      cases h
      exact pruned_stamps (hguard.2.1.trans hguard.2.2) hguard.2.2 rfl rfl
  | sampleAnswer i answer goneAt receivedAt =>
    obtain ⟨hgone, hreceived, batch, task, -, -, -, rfl⟩ := step_sampleAnswer h
    obtain ⟨hpersisted, hlast⟩ := fetch_keeps s task.tokenId answer goneAt receivedAt
    exact Stamps.still (hgone.trans hreceived) hpersisted hlast
  | sampleEnd deliveredAt =>
    obtain ⟨hclock, batch, books, -, -, rfl⟩ := step_sampleEnd h
    exact Stamps.deliver rfl hclock rfl rfl
  | sampleCancelled =>
    cases h
    exact Stamps.still le_rfl rfl rfl
  | refreshAnswer token answer goneAt receivedAt deliveredAt =>
    obtain ⟨hgone, hreceived, hdelivered, book, s', hfetch, hend⟩ := step_refreshAnswer h
    obtain ⟨hpersisted, hlast⟩ := fetch_keeps s token answer goneAt receivedAt
    rw [hfetch] at hpersisted hlast
    have hclock : s.clock ≤ deliveredAt := hgone.trans (hreceived.trans hdelivered)
    rcases hend with rfl | ⟨b, -, -, -, rfl⟩
    · exact Stamps.still hclock hpersisted hlast
    · exact Stamps.deliver rfl hclock hpersisted hlast
  | holdings tokens =>
    cases h
    exact Stamps.still le_rfl rfl rfl

/-- A book that comes while its token's stamp is recent is not persisted. -/
theorem throttled_delivery {now last : ℚ} {b : FetchedBook} (hlast : u.lastPersisted b.book.tokenId = some last)
    (hrecent : now - last < hooks.persistInterval) :
    (u.deliverBooks hooks true now [b]).persisted = u.persisted := by
  have hskip : (true : Bool) ∧ (u.lastPersisted b.book.tokenId).any fun last =>
      now - last < hooks.persistInterval := by
    rw [hlast]
    exact ⟨rfl, decide_eq_true hrecent⟩
  have hone : [b].foldl (persistOne hooks true now) u = u := if_pos hskip
  unfold BookFeed.deliverBooks
  rw [hone]
  dsimp only
  split_ifs <;> rfl

/-- A refresh whose book is persisted found no stamp, or one an interval old. -/
theorem refresh_spares {answer : BookAnswer} {goneAt receivedAt deliveredAt : ℚ}
    (h : s.step hooks (.refreshAnswer token answer goneAt receivedAt deliveredAt) = some t)
    (hpersists : t.persisted ≠ s.persisted) :
    s.clock ≤ deliveredAt ∧
      ∀ last, s.lastPersisted token = some last → hooks.persistInterval ≤ deliveredAt - last := by
  obtain ⟨hgone, hreceived, hdelivered, book, s', hfetch, hend⟩ := step_refreshAnswer h
  obtain ⟨hpersisted, hlast⟩ := fetch_keeps s token answer goneAt receivedAt
  rw [hfetch] at hpersisted hlast
  refine ⟨hgone.trans (hreceived.trans hdelivered), ?_⟩
  intro last hstamp
  by_contra hrecent
  rcases hend with rfl | ⟨b, rfl, -, -, rfl⟩
  · exact hpersists hpersisted
  · obtain ⟨-, htoken, -⟩ := fetch_some hfetch
    have hstamp' : s'.lastPersisted b.book.tokenId = some last := by
      rw [htoken]
      exact (congrFun hlast token).trans hstamp
    refine hpersists ((throttled_delivery ?_ (not_le.mp hrecent)).trans hpersisted)
    exact hstamp'

abbrev FeedRuns (hooks : BookHooks) (s : BookFeed) (es : List BookEvent) (t : BookFeed) : Prop :=
  Run (fun s e t => BookFeed.step hooks s e = some t) s es t

/-- The stamp of the token is this old at most, or was pruned at an interval old. -/
def StampedSince (hooks : BookHooks) (token : String) (since : ℚ) (s : BookFeed) : Prop :=
  (∃ last, s.lastPersisted token = some last ∧ since ≤ last ∧ last ≤ s.clock) ∨
    (s.lastPersisted token = none ∧ hooks.persistInterval ≤ s.clock - since)

theorem StampedSince.step {since : ℚ} (h : StampedSince hooks token since s) (hsince : since ≤ s.clock)
    (hstamps : Stamps hooks s t) : StampedSince hooks token since t ∧ since ≤ t.clock := by
  refine ⟨?_, hsince.trans hstamps.clock⟩
  rcases hstamps.stamps token with hsame | hset | ⟨hnone, last, hlast, hold⟩
  · rcases h with ⟨last, hlast, hle, hclock⟩ | ⟨hnone, hold⟩
    · exact .inl ⟨last, hsame.trans hlast, hle, hclock.trans hstamps.clock⟩
    · refine .inr ⟨hsame.trans hnone, ?_⟩
      have := hstamps.clock
      linarith
  · exact .inl ⟨t.clock, hset, hsince.trans hstamps.clock, le_rfl⟩
  · refine .inr ⟨hnone, ?_⟩
    rcases h with ⟨last', hlast', hle, -⟩ | ⟨hnone', -⟩
    · rw [hlast] at hlast'
      cases hlast'
      linarith
    · rw [hnone'] at hlast
      cases hlast

/-- Between a persisted snapshot of a token, of a batch or a refresh, and one that a later
refresh of it persists lies the interval, whatever happens in between and however often
the stamps are pruned. -/
theorem refreshes_spaced {e : BookEvent} {es : List BookEvent} {kept : List FetchedBook} {b : FetchedBook}
    {answer : BookAnswer} {goneAt receivedAt deliveredAt : ℚ} {v : BookFeed}
    (hfirst : s.step hooks e = some t) (hkept : t.persisted = s.persisted ++ kept) (hb : b ∈ kept)
    (hbetween : FeedRuns hooks t es u)
    (hrefresh : u.step hooks (.refreshAnswer b.book.tokenId answer goneAt receivedAt deliveredAt) = some v)
    (hpersists : v.persisted ≠ u.persisted) : hooks.persistInterval ≤ deliveredAt - t.clock := by
  have hstart : StampedSince hooks b.book.tokenId t.clock t := by
    obtain ⟨kept', hkept', hstamped⟩ := (step_stamps hfirst).kept
    have heq : kept = kept' := List.append_cancel_left (hkept.symm.trans hkept')
    exact .inl ⟨t.clock, hstamped b (heq ▸ hb), le_rfl, le_rfl⟩
  have hkeep : ∀ w e w', (StampedSince hooks b.book.tokenId t.clock w ∧ t.clock ≤ w.clock) →
      BookFeed.step hooks w e = some w' → StampedSince hooks b.book.tokenId t.clock w' ∧ t.clock ≤ w'.clock := by
    intro w e w' hw hstep
    exact hw.1.step hw.2 (step_stamps hstep)
  have hinv := Run.invariant hkeep hbetween
  obtain ⟨hsince, -⟩ := hinv ⟨hstart, le_rfl⟩
  obtain ⟨hclock, hold⟩ := refresh_spares hrefresh hpersists
  rcases hsince with ⟨last, hlast, hle, -⟩ | ⟨-, hpruned⟩
  · have := hold last hlast
    linarith
  · linarith

def minuteHooks : BookHooks := ⟨true, false, 60⟩

def refreshAt (now : ℚ) : BookEvent := .refreshAnswer "A" (.book now [] []) now now now

/-- The next refresh comes too soon, and the one after when a cycle has pruned the stamp. -/
theorem refreshes_spaced_sample : ∃ t u v : BookFeed,
    (BookFeed.start 0).step minuteHooks (refreshAt 0) = some t ∧
      FeedRuns minuteHooks t [refreshAt 30, .sampleStart [] 61 61] u ∧
      u.step minuteHooks (refreshAt 62) = some v ∧ u.lastPersisted "A" = none ∧
      minuteHooks.persistInterval ≤ 62 - t.clock := by
  let first : Option BookFeed := (BookFeed.start 0).step minuteHooks (refreshAt 0)
  let second : Option BookFeed :=
    first.bind fun t => [refreshAt 30, .sampleStart [] 61 61].foldlM (BookFeed.step minuteHooks) t
  let third : Option BookFeed := second.bind fun u => u.step minuteHooks (refreshAt 62)
  have hsome : first.isSome = true ∧ second.isSome = true ∧ third.isSome = true := by decide +kernel
  have hpersisted : (first.map BookFeed.persisted, second.map BookFeed.persisted, third.map BookFeed.persisted) =
      (some [⟨⟨"A", 0, [], []⟩, 0⟩], some [⟨⟨"A", 0, [], []⟩, 0⟩],
        some [⟨⟨"A", 0, [], []⟩, 0⟩, ⟨⟨"A", 62, [], []⟩, 62⟩]) := by decide +kernel
  have hpruned : second.map (fun u => u.lastPersisted "A") = some none := by decide +kernel
  obtain ⟨hfirst, hsecond, hthird⟩ := hsome
  obtain ⟨t, ht⟩ := Option.isSome_iff_exists.mp hfirst
  obtain ⟨u, hu⟩ := Option.isSome_iff_exists.mp hsecond
  obtain ⟨v, hv⟩ := Option.isSome_iff_exists.mp hthird
  rw [ht, hu, hv] at hpersisted
  rw [hu] at hpruned
  obtain ⟨hpt, hpu, hpv⟩ : t.persisted = [⟨⟨"A", 0, [], []⟩, 0⟩] ∧ u.persisted = [⟨⟨"A", 0, [], []⟩, 0⟩] ∧
      v.persisted = [⟨⟨"A", 0, [], []⟩, 0⟩, ⟨⟨"A", 62, [], []⟩, 62⟩] := by simpa using hpersisted
  have hbetween : [refreshAt 30, .sampleStart [] 61 61].foldlM (BookFeed.step minuteHooks) t = some u := by
    simpa only [second, ht, Option.bind_some] using hu
  have hlast : u.step minuteHooks (refreshAt 62) = some v := by simpa only [third, hu, Option.bind_some] using hv
  have hmore : v.persisted ≠ u.persisted := by
    rw [hpu, hpv]
    decide
  exact ⟨t, u, v, ht, run_foldlM _ hbetween, hlast, Option.some.inj hpruned,
    refreshes_spaced ht (hpt.trans (List.nil_append _).symm) (List.mem_singleton_self _) (run_foldlM _ hbetween) hlast
      hmore⟩

end OpenPoly
