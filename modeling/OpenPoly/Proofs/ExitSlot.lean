import OpenPoly.Spec.ExitMonitor

/-! One evaluation of a position: what its mark and its decision are, the ways it
can go between two awaits, and what each of the monitor's steps leaves as it was
of the peak, the streak and the records. -/

namespace OpenPoly

/-- A mark is guarded, or is the raw best bid of a thin book. -/
theorem mark_eq {exit : ExitSection} {book : OrderBook} {price : ℚ} {thin : Bool}
    (h : exit.mark book = some (price, thin)) :
    (thin = false ∧ guardedMark book.bids = some price) ∨
      (thin = true ∧ guardedMark book.bids = none ∧ exit.evaluatesThinMarks = true ∧
        book.bestBid = some price) := by
  unfold ExitSection.mark at h
  split at h
  · cases h
  · rename_i best size rest hbids
    split at h
    · rename_i p hp
      cases h
      exact .inl ⟨rfl, hp⟩
    · rename_i hp
      split_ifs at h with hthin
      cases h
      exact .inr ⟨rfl, hp, hthin, by simp [OrderBook.bestBid, hbids]⟩

/-- A decision is the section's run on the mark of the book. -/
theorem decide_some {s s' : Slot} {exit : ExitSection} {held : HeldPosition} {book : OrderBook}
    {stamp : Option ℚ} {now : ℚ} {d : MarkDecision}
    (h : s.decide exit held book stamp now = (some d, s')) :
    ∃ price thin, exit.mark book = some (price, thin) ∧
      d.out = exit.run (some (markedPosition held book s.position stamp now price thin)) ∧
      d.thin = thin ∧ d.stamp = stamp ∧
      s' = (s.put (if thin then s.position
        else { s.position with peak := some (s.position.peakAt price thin) })).record
          (.evaluated exit (markedPosition held book s.position stamp now price thin) stamp) := by
  unfold Slot.decide at h
  split at h
  · simp at h
  · rename_i price thin hmark
    simp only [Prod.mk.injEq, Option.some.injEq] at h
    obtain ⟨rfl, rfl⟩ := h
    exact ⟨price, thin, hmark, rfl, rfl, rfl, rfl⟩

theorem decide_none {s s' : Slot} {exit : ExitSection} {held : HeldPosition} {book : OrderBook}
    {stamp : Option ℚ} {now : ℚ} (h : s.decide exit held book stamp now = (none, s')) :
    exit.mark book = none ∧ s' = s.record (if book.bids = [] then .unseen else .unmarkable) := by
  unfold Slot.decide at h
  split at h
  · rename_i hmark
    exact ⟨hmark, (Prod.mk.inj h).2.symm⟩
  · simp at h

/-- The ways `_evaluate` can go up to its first await. -/
inductive Evaluated (s : Slot) (exit : ExitSection) (held : HeldPosition) (ts : ℚ) (g : Grounds)
    (sight : Sight) : Next × Slot → Prop
  | dust : isDustQty held.qty = true →
      Evaluated s exit held ts g sight (.done false, s.noteDust held ts)
  | noBook : isDustQty held.qty = false → sight.cached = none →
      Evaluated s exit held ts g sight
        (.done true, (s.record .unseen).holdOnce held ts sight.missing)
  | noBids {c : CachedBook} : isDustQty held.qty = false → sight.cached = some c →
      c.fetched.book.bids = [] → Evaluated s exit held ts g sight (.done true, s.record .unseen)
  | unmarked {c : CachedBook} {s' : Slot} : isDustQty held.qty = false → sight.cached = some c →
      c.fetched.book.bids ≠ [] →
      s.decide exit held c.fetched.book (some c.fetchedAt) sight.now = (none, s') →
      Evaluated s exit held ts g sight (s'.conclude held ts g none)
  | kept {c : CachedBook} {d : MarkDecision} {s' : Slot} : isDustQty held.qty = false →
      sight.cached = some c →
      s.decide exit held c.fetched.book (some c.fetchedAt) sight.now = (some d, s') →
      d.out.payload = none → Evaluated s exit held ts g sight (s'.conclude held ts g (some d))
  | young {c : CachedBook} {d : MarkDecision} {s' : Slot} {close : CloseIntent} :
      isDustQty held.qty = false → sight.cached = some c →
      s.decide exit held c.fetched.book (some c.fetchedAt) sight.now = (some d, s') →
      d.out.payload = some close → sight.bookClock - c.fetchedAt ≤ maxBookAgeSeconds →
      Evaluated s exit held ts g sight (s'.act held ts g d)
  | old {c : CachedBook} {d : MarkDecision} {s' : Slot} {close : CloseIntent} :
      isDustQty held.qty = false → sight.cached = some c →
      s.decide exit held c.fetched.book (some c.fetchedAt) sight.now = (some d, s') →
      d.out.payload = some close → maxBookAgeSeconds < sight.bookClock - c.fetchedAt →
      Evaluated s exit held ts g sight (.refetch d (sight.bookClock - c.fetchedAt), s')

theorem evaluate_path (s : Slot) (exit : ExitSection) (held : HeldPosition) (ts : ℚ) (g : Grounds)
    (sight : Sight) : Evaluated s exit held ts g sight (s.evaluate exit held ts g sight) := by
  unfold Slot.evaluate
  split_ifs with hdust
  · exact .dust hdust
  have hdust : isDustQty held.qty = false := by simpa using hdust
  cases hc : sight.cached with
  | none => exact .noBook hdust hc
  | some c =>
    dsimp only
    by_cases hbids : c.fetched.book.bids = []
    · rw [if_pos hbids]
      exact .noBids hdust hc hbids
    rw [if_neg hbids]
    rcases hd : s.decide exit held c.fetched.book (some c.fetchedAt) sight.now with ⟨decision, s'⟩
    cases decision with
    | none => exact .unmarked hdust hc hbids hd
    | some d =>
      dsimp only
      cases hp : d.out.payload with
      | none => exact .kept hdust hc hd hp
      | some close =>
        rw [Option.isNone_some, if_neg Bool.false_ne_true]
        split_ifs with hage
        · exact .young hdust hc hd hp hage
        · exact .old hdust hc hd hp (not_le.mp hage)

/-- The ways `_evaluate` can go from the answer of the re-fetch on. -/
inductive Confirmed (s : Slot) (exit : ExitSection) (held : HeldPosition) (ts : ℚ) (g : Grounds)
    (d : MarkDecision) (r : Refetched) : Next × Slot → Prop
  | held {reason : HoldReason} : r.verdict = .held reason →
      Confirmed s exit held ts g d r (.done true, s.holdOnce held ts reason)
  | asIs : r.verdict = .asIs → Confirmed s exit held ts g d r (s.act held ts g d)
  | unmarked {c : CachedBook} {s' : Slot} : r.verdict = .fresh c →
      s.decide exit held c.fetched.book (some c.fetchedAt) r.now = (none, s') →
      Confirmed s exit held ts g d r (s'.act held ts g d)
  | marked {c : CachedBook} {d' : MarkDecision} {s' : Slot} : r.verdict = .fresh c →
      s.decide exit held c.fetched.book (some c.fetchedAt) r.now = (some d', s') →
      Confirmed s exit held ts g d r (s'.act held ts g d')

theorem confirm_path (s : Slot) (exit : ExitSection) (held : HeldPosition) (ts : ℚ) (g : Grounds)
    (d : MarkDecision) (r : Refetched) :
    Confirmed s exit held ts g d r (s.confirm exit held ts g d r) := by
  unfold Slot.confirm Slot.confirmClose
  cases hv : r.verdict with
  | held reason => exact .held hv
  | asIs => exact .asIs hv
  | fresh c =>
    dsimp only
    rcases hd : s.decide exit held c.fetched.book (some c.fetchedAt) r.now with ⟨decision, s'⟩
    cases decision with
    | none => exact .unmarked hv hd
    | some d' => exact .marked hv hd

theorem verdict_fresh {r : Refetched} {c : CachedBook} (h : r.verdict = .fresh c) :
    r.cached = some c := by
  unfold Refetched.verdict at h
  split at h
  · rename_i c' hc
    cases h
    exact (Option.filter_eq_some_iff.mp hc).1
  · split_ifs at h

/-- The part of a slot that decisions are made on, with its records. -/
def Slot.core (s : Slot) : Option ℚ × ℕ × Option ℚ × List MarkRecord :=
  (s.position.peak, s.position.thinStreak, s.position.thinStamp, s.records)

@[simp] theorem put_position (s : Slot) (p : PositionState) : (s.put p).position = p := rfl

@[simp] theorem put_records (s : Slot) (p : PositionState) : (s.put p).records = s.records := rfl

@[simp] theorem write_position (s : Slot) (row : ExitDecision) :
    (s.write row).position = s.position := rfl

@[simp] theorem write_records (s : Slot) (row : ExitDecision) :
    (s.write row).records = s.records := rfl

@[simp] theorem record_position (s : Slot) (r : MarkRecord) : (s.record r).position = s.position :=
  rfl

@[simp] theorem record_records (s : Slot) (r : MarkRecord) :
    (s.record r).records = r :: s.records := rfl

/-- An update of the state that is there. -/
theorem map_position (s : Slot) {f : PositionState → PositionState} (hf : (f {}) = {}) :
    ({ s with state := s.state.map f } : Slot).position = f s.position := by
  cases h : s.state <;> simp [Slot.position, h, hf]

@[simp] theorem write_core (s : Slot) (row : ExitDecision) : (s.write row).core = s.core := rfl

@[simp] theorem holdOnce_core (s : Slot) (held : HeldPosition) (ts : ℚ) (reason : HoldReason) :
    (s.holdOnce held ts reason).core = s.core := by
  unfold Slot.holdOnce
  split_ifs <;> rfl

@[simp] theorem failOnce_core (s : Slot) (key : CloseFailure) (row : ExitDecision) :
    (s.failOnce key row).core = s.core := by
  unfold Slot.failOnce
  split_ifs <;> rfl

@[simp] theorem noteDust_core (s : Slot) (held : HeldPosition) (ts : ℚ) :
    (s.noteDust held ts).core = s.core := by
  unfold Slot.noteDust
  split_ifs <;> rfl

@[simp] theorem clearHolds_core (s : Slot) : s.clearHolds.core = s.core := by
  have hposition : s.clearHolds.position = { s.position with holdReason := none } :=
    map_position s rfl
  simp only [Slot.core, hposition]
  rfl

@[simp] theorem clearBackoff_core (s : Slot) : s.clearBackoff.core = s.core := by
  have hposition : s.clearBackoff.position = { s.position with backoff := none, errorKey := none } :=
    map_position s rfl
  simp only [Slot.core, hposition]
  rfl

@[simp] theorem recordCloseFailure_core (s : Slot) (clock : ℚ) (trigger : Trigger)
    (floor : Option ℚ) (tick : ℚ) : (s.recordCloseFailure clock trigger floor tick).core = s.core := rfl

theorem conclude_core (s : Slot) (held : HeldPosition) (ts : ℚ) (g : Grounds)
    (decision : Option MarkDecision) :
    (s.conclude held ts g decision).2.core = (s.trackThinStreak decision).core := by
  unfold Slot.conclude
  dsimp only
  split
  · simp
  · split
    · split_ifs <;> simp
    · split_ifs <;> simp

theorem act_core (s : Slot) (held : HeldPosition) (ts : ℚ) (g : Grounds) (d : MarkDecision) :
    (s.act held ts g d).2.core =
      if d.heldBack s g.clock then s.core else (s.trackThinStreak (some d)).core := by
  unfold Slot.act
  split_ifs
  · rfl
  · exact conclude_core s held ts g (some d)

end OpenPoly
