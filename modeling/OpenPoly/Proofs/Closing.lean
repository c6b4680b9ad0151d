import OpenPoly.Lib.Run
import OpenPoly.Proofs.Store
import OpenPoly.Spec.Closing

/-! One seller a position. The in-flight claims alone keep two sells of an id
apart, and settlement and reconciliation off a position being sold. That a sell
starts from a row still open and of the size it was read at also needs every
list of positions read earlier to be current when its turn comes. -/

namespace OpenPoly

open Transition

/-- The row of `held` is open and of the size `held` says. -/
def Current (db : Db) (held : HeldPosition) : Prop :=
  ∃ row, db.get held.positionId = some row ∧ row.status = .open ∧ row.qty = held.qty

/-- The row of `held`, unless closed, is of the size `held` says. -/
def Recent (db : Db) (held : HeldPosition) : Prop :=
  ∃ row, db.get held.positionId = some row ∧ (row.status = .open → row.qty = held.qty)

theorem Current.recent {db : Db} {held : HeldPosition} (h : Current db held) : Recent db held := by
  obtain ⟨row, hget, -, hq⟩ := h
  exact ⟨row, hget, fun _ => hq⟩

/-- What was just read from the table is current. -/
theorem current_of_mem {db : Db} (h : (db.positions.map PositionRow.id).Nodup)
    {held : HeldPosition} (hm : held ∈ db.getOpenPositions) : Current db held := by
  obtain ⟨row, hrow, rfl⟩ := List.mem_map.mp hm
  obtain ⟨hmem, hopen⟩ := List.mem_filter.mp hrow
  exact ⟨row, Db.get_of_mem h hmem, by simpa using hopen, rfl⟩

/-- The attempt neither closes nor sells `positionId`. -/
def Spares (e : Attempt) (positionId : ℕ) : Prop :=
  e.outage = none → (∀ a, e.call ≠ .closePosition positionId a) ∧
    ∀ a, e.call ≠ .recordSell positionId a

theorem Current.attempt {db : Db} {held : HeldPosition} {e : Attempt} (h : Current db held)
    (he : Spares e held.positionId) : Current (db.attempt e) held := by
  obtain ⟨row, hget, ho, hq⟩ := h
  rcases attempt_get hget e with hsame | ⟨hout, -, ⟨a, hc, -⟩ | ⟨a, hc, -⟩⟩
  · exact ⟨row, hsame, ho, hq⟩
  · exact ((he hout).1 a hc).elim
  · exact ((he hout).2 a hc).elim

/-- A sell of `positionId`, if the attempt is one, leaves too little to sell. -/
def SellsOut (db : Db) (e : Attempt) (positionId : ℕ) : Prop :=
  e.outage = none → ∀ a, e.call = .recordSell positionId a → ∀ row, db.get positionId = some row →
    row.qty - min a.soldQty row.qty < minSellableQty

theorem Spares.sellsOut {e : Attempt} {i : ℕ} (h : Spares e i) (db : Db) : SellsOut db e i :=
  fun hout a hc => ((h hout).2 a hc).elim

theorem Recent.attempt {db : Db} {held : HeldPosition} {e : Attempt} (h : Recent db held)
    (he : SellsOut db e held.positionId) : Recent (db.attempt e) held := by
  obtain ⟨row, hget, hq⟩ := h
  rcases attempt_get hget e with hsame | ⟨hout, -, ⟨a, -, hnew⟩ | ⟨a, hc, hnew⟩⟩
  · exact ⟨row, hsame, hq⟩
  · refine ⟨_, hnew, fun ho => ?_⟩
    have hclosed : (db.closedRow row a).status = .closed := rfl
    rw [hclosed] at ho
    cases ho
  · refine ⟨_, hnew, fun ho => ?_⟩
    rw [soldRow_closed (he hout a hc row hget)] at ho
    cases ho

/-- The registered ids are the ids of the claims, one claim an id. -/
def Desk.Claimed (s : Desk) : Prop := Registry.Tracks Claim.positionId s.closing s.claims

theorem claimed_init (db : Db) : (Desk.init db).Claimed := Registry.tracks_nil

theorem Desk.Claimed.claim {s : Desk} (h : s.Claimed) {seller : Seller} {held : HeldPosition}
    (hfree : s.isClosing held.positionId = false) : (s.claim seller held).Claimed := by
  have hk : held.positionId ∉ s.closing := by simpa [Desk.isClosing] using hfree
  exact Registry.Tracks.claim h ⟨seller, held, .claimed⟩ hk

theorem Desk.Claimed.setPhase {s : Desk} (h : s.Claimed) (i : ℕ) (p : SellPhase) :
    (s.setPhase i p).Claimed := by
  refine Registry.Tracks.update h fun c => ?_
  split_ifs <;> rfl

def Desk.sweeping (s : Desk) : List HeldPosition := s.exitSweep.getD []

def Desk.awaited (s : Desk) : List HeldPosition := s.closeAlls.flatMap Prod.snd

/-- No fill and no close lands on a position between a list being read and its
turn in it: on one awaited by a close-all, none at all; on one of an exit tick's,
which is re-read for its status, no sell that leaves it open. -/
def Undisturbed (s : Desk) : DeskEvent → Prop
  | .book positionId a outage =>
    (outage = none → ∀ h ∈ s.awaited, h.positionId ≠ positionId) ∧
      ∀ h ∈ s.sweeping, SellsOut s.db ⟨.recordSell positionId a, outage⟩ h.positionId
  | .settle positionId _ _ outage =>
    outage = none → s.isClosing positionId = false → ∀ h ∈ s.awaited, h.positionId ≠ positionId
  | .reconcile pos _ outage =>
    outage = none → s.isClosing pos.positionId = false →
      ∀ h ∈ s.awaited, h.positionId ≠ pos.positionId
  | _ => True

/-- Only the lists moved, and what they hold was in them or just read. -/
structure Narrows (s t : Desk) : Prop where
  db : t.db = s.db
  closing : t.closing = s.closing
  claims : t.claims = s.claims
  sweeping : ∀ h ∈ t.sweeping, h ∈ s.sweeping ∨ h ∈ s.db.getOpenPositions
  awaited : ∀ h ∈ t.awaited, h ∈ s.awaited ∨ h ∈ s.db.getOpenPositions

theorem Narrows.refl (s : Desk) : Narrows s s :=
  ⟨rfl, rfl, rfl, fun _ => .inl, fun _ => .inl⟩

theorem Narrows.kept {s t : Desk} (hn : Narrows s t) (h : s.Claimed) : t.Claimed := by
  unfold Desk.Claimed
  rw [hn.closing, hn.claims]
  exact h

theorem narrows_exitSweep {s : Desk} {l : List HeldPosition} (h : ∀ x ∈ l, x ∈ s.sweeping) :
    Narrows s { s with exitSweep := some l } :=
  ⟨rfl, rfl, rfl, fun x hx => .inl (h x hx), fun _ => .inl⟩

theorem mem_awaited {s : Desk} {h : HeldPosition} :
    h ∈ s.awaited ↔ ∃ r ∈ s.closeAlls, h ∈ r.2 := by
  simp [Desk.awaited, List.mem_flatMap]

theorem narrows_setCloseAll {s : Desk} {request : ℕ} {rest : List HeldPosition}
    (h : ∀ x ∈ rest, x ∈ s.awaited) : Narrows s (s.setCloseAll request rest) := by
  refine ⟨rfl, rfl, rfl, fun _ => .inl, fun x hx => .inl ?_⟩
  obtain ⟨r, hr, hxr⟩ := mem_awaited.mp hx
  obtain ⟨q, hq, rfl⟩ := List.mem_map.mp hr
  split_ifs at hxr with hid
  · exact h x hxr
  · exact mem_awaited.mpr ⟨q, hq, hxr⟩

/-- Where a claimed position comes from: the table, an exit tick's list after
the row was seen open, or a close-all's list. -/
def Sourced (s : Desk) (held : HeldPosition) : Prop :=
  held ∈ s.db.getOpenPositions ∨
    (held ∈ s.sweeping ∧ s.stillOpen held.positionId = true) ∨ held ∈ s.awaited

inductive Effect (s : Desk) (e : DeskEvent) : Desk → Prop
  | narrow {t : Desk} : Narrows s t → Effect s e t
  | claim {t : Desk} {seller : Seller} {held : HeldPosition} : Narrows s t →
      s.isClosing held.positionId = false → Sourced s held → Effect s e (t.claim seller held)
  | phase {i : ℕ} {p : SellPhase} : p ≠ .claimed → Effect s e (s.setPhase i p)
  | book {i : ℕ} {a : SellArgs} {outage : Option PyErr} : e = .book i a outage →
      Effect s e { s.setPhase i .booked with db := s.db.attempt ⟨.recordSell i a, outage⟩ }
  | release {i : ℕ} : Effect s e { s with
      closing := Registry.discard i s.closing
      claims := s.claims.filter fun c => c.positionId ≠ i }
  | write {a : Attempt} : (∀ i, SellsOut s.db a i) → (∀ i ∈ s.closing, Spares a i) →
      (Undisturbed s e → ∀ h ∈ s.awaited, Spares a h.positionId) →
      Effect s e { s with db := s.db.attempt a }

theorem effect_sweepClose {s : Desk} {e : DeskEvent} {i : ℕ} {a : CloseArgs}
    {outage : Option PyErr}
    (hun : Undisturbed s e → outage = none → s.isClosing i = false →
      ∀ h ∈ s.awaited, h.positionId ≠ i) : Effect s e (s.sweepClose i a outage) := by
  unfold Desk.sweepClose
  by_cases hc : s.isClosing i = true
  · rw [if_pos hc]
    exact .narrow (.refl s)
  · rw [if_neg hc]
    have hfree : i ∉ s.closing := by simpa [Desk.isClosing] using hc
    have hspares : ∀ j, j ≠ i → Spares ⟨.closePosition i a, outage⟩ j := by
      intro j hj _
      exact ⟨fun b hb => hj (Call.closePosition.inj hb).1.symm, fun b hb => by cases hb⟩
    refine .write (fun j hout b hb => by cases hb) (fun j hj => hspares j ?_)
      (fun hu h hh hout => hspares _ (hun hu hout (by simpa using hc) h hh) hout)
    exact fun heq => hfree (heq ▸ hj)

theorem exit_effect {s t : Desk} {e : DeskEvent} (he : e = .exitHold ∨ e = .exitClose ∨ e = .exitDone)
    (hs : deskStep s e = some t) : Effect s e t := by
  unfold deskStep at hs
  cases hsw : s.exitSweep with
  | none => rcases he with rfl | rfl | rfl <;> simp [hsw] at hs
  | some l =>
    have hl : s.sweeping = l := by simp [Desk.sweeping, hsw]
    cases l with
    | nil =>
      rcases he with rfl | rfl | rfl
      · simp [hsw] at hs
      · simp [hsw] at hs
      · simp only [hsw] at hs
        split_ifs at hs
        cases hs
        exact .narrow ⟨rfl, rfl, rfl, fun x hx => by simp [Desk.sweeping] at hx, fun _ => .inl⟩
    | cons held rest =>
      have hrest : Narrows s { s with exitSweep := some rest } :=
        narrows_exitSweep fun x hx => hl ▸ List.mem_cons_of_mem _ hx
      rcases he with rfl | rfl | rfl
      · simp only [hsw] at hs
        split_ifs at hs
        cases hs
        exact .narrow hrest
      · simp only [hsw] at hs
        split_ifs at hs with hb hskip
        · cases hs
          exact .narrow hrest
        · cases hs
          simp only [Bool.or_eq_true, Bool.not_eq_true', not_or, Bool.not_eq_false,
            Bool.not_eq_true] at hskip
          exact .claim hrest hskip.2 (.inr (.inl ⟨hl ▸ List.mem_cons_self, hskip.1⟩))
      · simp [hsw] at hs

theorem closeAllNext_effect {s t : Desk} {request : ℕ}
    (hs : deskStep s (.closeAllNext request) = some t) : Effect s (.closeAllNext request) t := by
  unfold deskStep at hs
  cases hf : s.closeAlls.find? (fun r => r.1 == request) with
  | none => simp [hf] at hs
  | some r =>
    obtain ⟨q, l⟩ := r
    have hmem := List.mem_of_find?_eq_some hf
    cases l with
    | nil =>
      simp only [hf] at hs
      split_ifs at hs
      cases hs
      refine .narrow ⟨rfl, rfl, rfl, fun _ => .inl, fun x hx => .inl ?_⟩
      obtain ⟨r, hr, hxr⟩ := mem_awaited.mp hx
      exact mem_awaited.mpr ⟨r, (List.mem_filter.mp hr).1, hxr⟩
    | cons held rest =>
      have hin : ∀ x ∈ held :: rest, x ∈ s.awaited := fun x hx => mem_awaited.mpr ⟨_, hmem, hx⟩
      have hrest : Narrows s (s.setCloseAll request rest) :=
        narrows_setCloseAll fun x hx => hin x (List.mem_cons_of_mem _ hx)
      simp only [hf] at hs
      split_ifs at hs with hb hc
      · cases hs
        exact .narrow hrest
      · cases hs
        exact .claim hrest (by simpa using hc) (.inr (.inr (hin held List.mem_cons_self)))

theorem deskStep_effect {s t : Desk} {e : DeskEvent} (hs : deskStep s e = some t) :
    Effect s e t := by
  cases e with
  | exitTick =>
    unfold deskStep at hs
    cases hsw : s.exitSweep with
    | none =>
      simp only [hsw, Option.some.injEq] at hs
      subst hs
      exact .narrow ⟨rfl, rfl, rfl, fun x hx => .inr hx, fun _ => .inl⟩
    | some l => simp [hsw] at hs
  | exitHold => exact exit_effect (.inl rfl) hs
  | exitClose => exact exit_effect (.inr (.inl rfl)) hs
  | exitDone => exact exit_effect (.inr (.inr rfl)) hs
  | manualClose i =>
    unfold deskStep at hs
    cases hf : s.db.getOpenPositions.find? (fun p => p.positionId == i) with
    | none =>
      simp only [hf, Option.some.injEq] at hs
      exact hs ▸ .narrow (.refl s)
    | some held =>
      have hid : held.positionId = i := by simpa using List.find?_some hf
      simp only [hf] at hs
      split_ifs at hs with hc
      · cases hs
        exact .narrow (.refl s)
      · cases hs
        exact .claim (.refl s) (by simpa [hid] using hc) (.inl (List.mem_of_find?_eq_some hf))
  | closeAll request =>
    unfold deskStep at hs
    simp only at hs
    split_ifs at hs
    cases hs
    refine .narrow ⟨rfl, rfl, rfl, fun _ => .inl, fun x hx => ?_⟩
    obtain ⟨r, hr, hxr⟩ := mem_awaited.mp hx
    rcases List.mem_cons.mp hr with rfl | hr
    · exact .inr hxr
    · exact .inl (mem_awaited.mpr ⟨r, hr, hxr⟩)
  | closeAllNext request => exact closeAllNext_effect hs
  | start held =>
    unfold deskStep at hs
    simp only at hs
    split_ifs at hs
    cases hs
    exact .phase (by decide)
  | book i a outage =>
    unfold deskStep at hs
    simp only at hs
    split_ifs at hs
    cases hs
    exact .book rfl
  | sellReturn i =>
    unfold deskStep at hs
    simp only at hs
    split_ifs at hs
    cases hs
    exact .phase (by decide)
  | release i =>
    unfold deskStep at hs
    simp only at hs
    split_ifs at hs
    cases hs
    exact .release
  | settle i finalPrice ts outage =>
    unfold deskStep at hs
    cases hs
    exact effect_sweepClose fun hu => hu
  | reconcile pos ts outage =>
    unfold deskStep at hs
    cases hs
    exact effect_sweepClose fun hu => hu
  | buy a outage =>
    unfold deskStep at hs
    cases hs
    have hspares : ∀ i, Spares ⟨.openPosition a, outage⟩ i :=
      fun i _ => ⟨fun b => by simp, fun b => by simp⟩
    exact .write (fun i => (hspares i).sellsOut _) (fun i _ => hspares i)
      (fun _ h _ => hspares h.positionId)

/-- Every step, whatever lands between reads, keeps one claim an id. -/
theorem claimed_step {s t : Desk} {e : DeskEvent} (h : s.Claimed) (hs : deskStep s e = some t) :
    t.Claimed := by
  cases deskStep_effect hs with
  | narrow hn => exact hn.kept h
  | claim hn hfree _ =>
    refine (hn.kept h).claim ?_
    rwa [Desk.isClosing, hn.closing]
  | phase _ => exact h.setPhase _ _
  | book _ => exact h.setPhase _ _
  | release => exact Registry.Tracks.release h _
  | write _ _ _ => exact h

theorem hasPhase_iff {s : Desk} {i : ℕ} {p : SellPhase} :
    s.hasPhase i p = true ↔ ∃ c ∈ s.claims, c.positionId = i ∧ c.phase = p := by
  simp [Desk.hasPhase]

theorem Desk.Claimed.closing_of_inFlight {s : Desk} (h : s.Claimed) {i : ℕ} (hi : s.inFlight i) :
    s.isClosing i = true := by
  have hmem : ∃ c ∈ s.claims, c.positionId = i := by
    rcases hi with hp | hp
    · obtain ⟨c, hc, hid, -⟩ := hasPhase_iff.mp hp
      exact ⟨c, hc, hid⟩
    · obtain ⟨c, hc, hid, -⟩ := hasPhase_iff.mp hp
      exact ⟨c, hc, hid⟩
  simpa [Desk.isClosing] using (h.mem i).mpr hmem

/-- While a claim waits to start, no sell of its id is in flight. -/
theorem Desk.Claimed.not_inFlight {s : Desk} (h : s.Claimed) {c : Claim} (hc : c ∈ s.claims)
    (hp : c.phase = .claimed) : ¬ s.inFlight c.positionId := by
  rintro (hf | hf)
  all_goals
    obtain ⟨d, hd, hid, hdp⟩ := hasPhase_iff.mp hf
    have heq : d = c := Registry.Tracks.exclusive h hd hc hid
    rw [heq, hp] at hdp
    cases hdp

structure DeskInv (s : Desk) : Prop where
  ids : (s.db.positions.map PositionRow.id).Nodup
  claims : s.Claimed
  claimed : ∀ c ∈ s.claims, c.phase = .claimed → Current s.db c.held
  awaited : ∀ h ∈ s.awaited, Current s.db h
  sweeping : ∀ h ∈ s.sweeping, Recent s.db h

theorem deskInv_init {db : Db} (h : (db.positions.map PositionRow.id).Nodup) :
    DeskInv (Desk.init db) where
  ids := h
  claims := claimed_init db
  claimed := by simp [Desk.init]
  awaited := by simp [Desk.init, Desk.awaited]
  sweeping := by simp [Desk.init, Desk.sweeping]

theorem DeskInv.sourced {s : Desk} (h : DeskInv s) {held : HeldPosition} (hs : Sourced s held) :
    Current s.db held := by
  rcases hs with hm | ⟨hm, ho⟩ | hm
  · exact current_of_mem h.ids hm
  · obtain ⟨row, hget, hq⟩ := h.sweeping held hm
    have hopen : row.status = .open := by simpa [Desk.stillOpen, hget] using ho
    exact ⟨row, hget, hopen, hq hopen⟩
  · exact h.awaited held hm

theorem Narrows.inv {s t : Desk} (hn : Narrows s t) (h : DeskInv s) : DeskInv t where
  ids := hn.db ▸ h.ids
  claims := hn.kept h.claims
  claimed := by
    rw [hn.db, hn.claims]
    exact h.claimed
  awaited := by
    intro x hx
    rw [hn.db]
    rcases hn.awaited x hx with hx | hx
    · exact h.awaited x hx
    · exact current_of_mem h.ids hx
  sweeping := by
    intro x hx
    rw [hn.db]
    rcases hn.sweeping x hx with hx | hx
    · exact h.sweeping x hx
    · exact (current_of_mem h.ids hx).recent

theorem DeskInv.attempt {s : Desk} (h : DeskInv s) {a : Attempt}
    (hclaimed : ∀ c ∈ s.claims, c.phase = .claimed → Spares a c.positionId)
    (hawaited : ∀ x ∈ s.awaited, Spares a x.positionId)
    (hsweeping : ∀ x ∈ s.sweeping, SellsOut s.db a x.positionId) :
    DeskInv { s with db := s.db.attempt a } where
  ids := attempt_ids h.ids a
  claims := h.claims
  claimed := fun c hc hp => (h.claimed c hc hp).attempt (hclaimed c hc hp)
  awaited := fun x hx => (h.awaited x hx).attempt (hawaited x hx)
  sweeping := fun x hx => (h.sweeping x hx).attempt (hsweeping x hx)

/-- A claim still waiting to start was not touched by the new phase. -/
theorem mem_setPhase {s : Desk} {i : ℕ} {p : SellPhase} (hp : p ≠ .claimed) {c : Claim}
    (hc : c ∈ (s.setPhase i p).claims) (hph : c.phase = .claimed) :
    c ∈ s.claims ∧ c.positionId ≠ i := by
  obtain ⟨d, hd, rfl⟩ := List.mem_map.mp hc
  split_ifs at hph ⊢ with hid
  · exact (hp hph).elim
  · exact ⟨hd, hid⟩

theorem DeskInv.setPhase {s : Desk} (h : DeskInv s) {i : ℕ} {p : SellPhase} (hp : p ≠ .claimed) :
    DeskInv (s.setPhase i p) where
  ids := h.ids
  claims := h.claims.setPhase i p
  claimed := fun c hc hph => h.claimed c (mem_setPhase hp hc hph).1 hph
  awaited := h.awaited
  sweeping := h.sweeping

/-- The step lemma: an undisturbed step keeps every list current. -/
theorem deskInv_step {s t : Desk} {e : DeskEvent} (h : DeskInv s) (hu : Undisturbed s e)
    (hs : deskStep s e = some t) : DeskInv t := by
  cases deskStep_effect hs with
  | narrow hn => exact hn.inv h
  | @claim t₀ seller held hn hfree hsrc =>
    have h₀ := hn.inv h
    refine ⟨h₀.ids, claimed_step h.claims hs, ?_, h₀.awaited, h₀.sweeping⟩
    intro c hc hp
    rcases List.mem_cons.mp hc with rfl | hc
    · exact hn.db ▸ h.sourced hsrc
    · exact h₀.claimed c hc hp
  | phase hp => exact h.setPhase hp
  | @book i a outage he =>
    subst he
    refine (h.setPhase (i := i) (p := .booked) (by decide)).attempt ?_ ?_ hu.2
    · intro c hc hp _
      refine ⟨fun b => by simp, fun b hb => ?_⟩
      exact (mem_setPhase (by decide) hc hp).2 (Call.recordSell.inj hb).1.symm
    · intro x hx hout
      refine ⟨fun b => by simp, fun b hb => ?_⟩
      exact hu.1 hout x hx (Call.recordSell.inj hb).1.symm
  | release =>
    refine ⟨h.ids, claimed_step h.claims hs, ?_, h.awaited, h.sweeping⟩
    exact fun c hc hp => h.claimed c (List.mem_filter.mp hc).1 hp
  | write hsells hspares hawaited =>
    exact h.attempt (fun c hc _ => hspares _ (h.claims.registered hc)) (hawaited hu)
      (fun x _ => hsells _)

/-- What the position needs of a step that starts selling it, or that closes it
from outside. -/
def SellSafe (s : Desk) (e : DeskEvent) (t : Desk) : Prop :=
  match e with
  | .start held =>
    (∃ row, s.db.get held.positionId = some row ∧ row.status = .open ∧ row.qty = held.qty) ∧
      ¬ s.inFlight held.positionId
  | .settle positionId _ _ _ => s.inFlight positionId → t.db = s.db
  | .reconcile pos _ _ => s.inFlight pos.positionId → t.db = s.db
  | _ => True

theorem start_claim {s t : Desk} {held : HeldPosition} (hs : deskStep s (.start held) = some t) :
    ∃ c ∈ s.claims, c.held = held ∧ c.phase = .claimed := by
  unfold deskStep at hs
  simp only at hs
  split_ifs at hs with hc
  simpa using hc

theorem sweepClose_inFlight {s : Desk} (h : s.Claimed) {i : ℕ} (hi : s.inFlight i) (a : CloseArgs)
    (outage : Option PyErr) : s.sweepClose i a outage = s := by
  rw [Desk.sweepClose, if_pos (h.closing_of_inFlight hi)]

theorem sellSafe_step {s t : Desk} {e : DeskEvent} (h : DeskInv s) (hs : deskStep s e = some t) :
    SellSafe s e t := by
  cases e with
  | start held =>
    obtain ⟨c, hc, rfl, hp⟩ := start_claim hs
    exact ⟨h.claimed c hc hp, h.claims.not_inFlight hc hp⟩
  | settle i finalPrice ts outage =>
    intro hi
    cases hs
    rw [sweepClose_inFlight h.claims hi]
  | reconcile pos ts outage =>
    intro hi
    cases hs
    rw [sweepClose_inFlight h.claims hi]
  | _ => trivial

abbrev DeskRun : Desk → List DeskEvent → Desk → Prop :=
  Run fun s e t => deskStep s e = some t

abbrev CalmRun : Desk → List DeskEvent → Desk → Prop :=
  Run (guarded Undisturbed fun s e t => deskStep s e = some t)

theorem deskInv_run {db : Db} {es : List DeskEvent} {s : Desk}
    (hids : (db.positions.map PositionRow.id).Nodup) (h : CalmRun (Desk.init db) es s) :
    DeskInv s :=
  h.invariant (fun _ _ _ hi hst => deskInv_step hi hst.1 hst.2) (deskInv_init hids)

/-- Over every run at all, two sells of one id are never in flight together and
nothing from outside closes a position being sold. -/
theorem sells_exclude_run {db : Db} {es : List DeskEvent} {s : Desk}
    (h : DeskRun (Desk.init db) es s) :
    (∀ c ∈ s.claims, ∀ d ∈ s.claims, c.positionId = d.positionId → c = d) ∧
    ∀ i, s.inFlight i → ∀ a outage, s.sweepClose i a outage = s := by
  have hc : s.Claimed := h.invariant (fun _ _ _ hi hst => claimed_step hi hst) (claimed_init db)
  exact ⟨fun c hc' d hd => Registry.Tracks.exclusive hc hc' hd,
    fun i hi a outage => sweepClose_inFlight hc hi a outage⟩

/-- Where nothing lands on a position between a list being read and its turn in
it, every sell starts from an open row of the size it was read at with no other
sell of it in flight, and nothing from outside closes a position being sold. -/
theorem sells_start_current {db : Db} {es : List DeskEvent} {s t : Desk} {e : DeskEvent}
    (hids : (db.positions.map PositionRow.id).Nodup) (h : CalmRun (Desk.init db) es s)
    (hs : deskStep s e = some t) : SellSafe s e t :=
  sellSafe_step (deskInv_run hids h) hs

def deskOpen (marketId : String) : OpenArgs where
  marketId := marketId
  side := .yes
  tokenId := marketId ++ "-yes"
  conditionId := "0x" ++ marketId
  price := 2 / 5
  qty := 10
  ts := 1

def deskRow (id : ℕ) (marketId : String) : PositionRow := openRow id (deskOpen marketId)

def sampleDesk : Desk := Desk.init ⟨[deskRow 1 "m1", deskRow 2 "m2"], []⟩

def halfSell : SellArgs where
  soldQty := 4
  sellPrice := 1 / 2
  ts := 2
  closeReason := .manual

/-- With no close-all under way, and no tick either or no fill, nothing is disturbed. -/
theorem undisturbed_of_unread {s : Desk} {e : DeskEvent} (hall : s.closeAlls = [])
    (hsweep : s.exitSweep = none ∨ ∀ i a outage, e ≠ .book i a outage) : Undisturbed s e := by
  have hawaited : s.awaited = [] := by rw [Desk.awaited, hall, List.flatMap_nil]
  cases e with
  | book i a outage =>
    have hsweeping : s.sweeping = [] := by
      rw [Desk.sweeping, hsweep.resolve_right fun h => h i a outage rfl, Option.getD_none]
    exact ⟨fun _ => hawaited ▸ List.forall_mem_nil _, hsweeping ▸ List.forall_mem_nil _⟩
  | settle _ _ _ _ => exact fun _ _ => hawaited ▸ List.forall_mem_nil _
  | reconcile _ _ _ => exact fun _ _ => hawaited ▸ List.forall_mem_nil _
  | _ => trivial

/-- Part of the first position is sold by hand, and its rest by a tick that reads both; the
second is settled in between. -/
def partSold : List DeskEvent :=
  [.manualClose 1, .start (deskRow 1 "m1").toHeld, .book 1 halfSell none, .sellReturn 1, .release 1]

def restSold : List DeskEvent := [.exitTick, .exitClose, .settle 2 1 3 none]

def restHeld : HeldPosition := { (deskRow 1 "m1").toHeld with qty := 6 }

/-- The events in turn, with no close-all and no fill while a tick walks its list. -/
def calmly (es : List DeskEvent) : Option Desk :=
  es.foldlM (fun s e => if s.closeAlls.isEmpty && (s.exitSweep.isNone || decide (e ∈ restSold)) then deskStep s e
    else none) sampleDesk

theorem calmly_run {es : List DeskEvent} {s : Desk} (h : calmly es = some s) : CalmRun sampleDesk es s := by
  refine (run_checkedM h).mono fun u e v hstep => ⟨?_, hstep.2⟩
  obtain ⟨hempty, hsweep⟩ := Bool.and_eq_true .. |>.mp hstep.1
  refine undisturbed_of_unread (List.isEmpty_iff.mp hempty) ?_
  refine (Bool.or_eq_true .. |>.mp hsweep).imp Option.isNone_iff_eq_none.mp fun hmem i a outage => ?_
  rintro rfl
  simp [restSold] at hmem

theorem sells_start_current_sample :
    ∃ s t, CalmRun sampleDesk (partSold ++ restSold) s ∧ deskStep s (.start restHeld) = some t ∧
      SellSafe s (.start restHeld) t ∧ (s.db.get 2).map PositionRow.status = some .closed := by
  have hread : (calmly (partSold ++ restSold)).map (fun s =>
      ((deskStep s (.start restHeld)).isSome, (s.db.get 2).map PositionRow.status)) =
        some (true, some .closed) := by decide +kernel
  obtain ⟨s, hs, hread⟩ := Option.map_eq_some_iff.mp hread
  obtain ⟨hstart, hclosed⟩ := Prod.mk.inj hread
  obtain ⟨t, ht⟩ := Option.isSome_iff_exists.mp hstart
  exact ⟨s, t, calmly_run hs, ht, sells_start_current (by decide) (calmly_run hs) ht, hclosed⟩

/-- A manual sell of part of the position after the exit tick read it; and a
settlement of the second position while a close-all sells the first. -/
def staleTick : List DeskEvent :=
  [.exitTick, .manualClose 1, .start (deskRow 1 "m1").toHeld, .book 1 halfSell none, .sellReturn 1,
    .release 1, .exitClose]

def staleCloseAll : List DeskEvent :=
  [.closeAll 0, .closeAllNext 0, .start (deskRow 1 "m1").toHeld, .settle 2 1 2 none,
    .book 1 halfSell none, .sellReturn 1, .release 1, .closeAllNext 0]

/-- The exit tick then sells ten shares of a position of six, and the close-all
a closed position. -/
theorem stale_sell_starts :
    (∃ s t, DeskRun sampleDesk staleTick s ∧
      deskStep s (.start (deskRow 1 "m1").toHeld) = some t ∧
      ¬ SellSafe s (.start (deskRow 1 "m1").toHeld) t) ∧
    ∃ s t, DeskRun sampleDesk staleCloseAll s ∧
      deskStep s (.start (deskRow 2 "m2").toHeld) = some t ∧
      ¬ SellSafe s (.start (deskRow 2 "m2").toHeld) t := by
  have hstale : ∀ {es : List DeskEvent} {held : HeldPosition},
      ((es.foldlM deskStep sampleDesk).bind (deskStep · (.start held))).isSome = true →
      ((es.foldlM deskStep sampleDesk).all fun s => (s.db.get held.positionId).all fun row =>
        row.status = .closed ∨ row.qty ≠ held.qty) = true →
      ∃ s t, DeskRun sampleDesk es s ∧ deskStep s (.start held) = some t ∧
        ¬ SellSafe s (.start held) t := by
    intro es held hrun hbad
    obtain ⟨t, ht⟩ := Option.isSome_iff_exists.mp hrun
    obtain ⟨s, hs, hst⟩ := Option.bind_eq_some_iff.mp ht
    refine ⟨s, t, run_foldlM _ hs, hst, ?_⟩
    rintro ⟨⟨row, hget, ho, hq⟩, -⟩
    simp [hs, hget, ho, hq] at hbad
  exact ⟨hstale (by decide +kernel) (by decide +kernel),
    hstale (by decide +kernel) (by decide +kernel)⟩

end OpenPoly
