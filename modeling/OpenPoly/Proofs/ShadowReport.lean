import OpenPoly.Lib.Except
import OpenPoly.Lib.Run
import OpenPoly.Spec.ShadowReport

/-! The shadow report counts every pick once under every key, and the pruning of the books
leaves it the marks of the picks within the retention. -/

namespace OpenPoly

open Transition Results

def PickOutcome.return? : PickOutcome → Option ℚ
  | .returned r => some r
  | _ => none

def HorizonReport.of (outcomes : List PickOutcome) : HorizonReport :=
  ⟨summaryOf (outcomes.filterMap PickOutcome.return?), outcomes.count .pending, outcomes.count .noData⟩

theorem tally_foldl (outcomes : List PickOutcome) :
    outcomes.foldl KeyTally.add {} =
      ⟨outcomes.filterMap PickOutcome.return?, outcomes.count .pending, outcomes.count .noData⟩ := by
  induction outcomes using List.reverseRecOn with
  | nil => rfl
  | append_singleton outcomes o ih =>
    rw [List.foldl_append, ih]
    cases o <;> simp [KeyTally.add, PickOutcome.return?]

/-- Each pick is counted once. -/
theorem outcomes_counted (outcomes : List PickOutcome) :
    (HorizonReport.of outcomes).summary.count + (HorizonReport.of outcomes).pending +
      (HorizonReport.of outcomes).noData = outcomes.length := by
  induction outcomes with
  | nil => rfl
  | cons o outcomes ih =>
    unfold HorizonReport.of summaryOf at ih ⊢
    cases o with
    | returned r =>
      simp [PickOutcome.return?] at ih ⊢
      omega
    | pending =>
      simp [PickOutcome.return?, List.filterMap_cons] at ih ⊢
      omega
    | noData =>
      simp [PickOutcome.return?, List.filterMap_cons] at ih ⊢
      omega

variable {rows : List OrderBookSnapshot} {now : ℚ}

/-- The tallies of a group are, key by key, those of the outcomes of its picks. -/
theorem group_foldl (o : ShadowPickRow → MarkKey → PickOutcome) (picks : List ShadowPickRow) :
    picks.foldl (fun g pick => g.add (markKeys.map (o pick))) PickGroup.empty =
      ⟨picks.length, markKeys.map fun key => (picks.map fun pick => o pick key).foldl KeyTally.add {}⟩ := by
  induction picks using List.reverseRecOn with
  | nil => rfl
  | append_singleton picks pick ih =>
    rw [List.foldl_append, ih]
    simp [PickGroup.add, List.zipWith_map_left, List.zipWith_map_right, List.zipWith_self]

theorem mapM_ok {ε α β : Type} {f : α → Except ε β} {g : α → β} {xs : List α} {ys : List β}
    (hg : ∀ x y, f x = .ok y → y = g x) (h : xs.mapM f = .ok ys) :
    ys = xs.map g ∧ ∀ x ∈ xs, f x = .ok (g x) := by
  induction xs generalizing ys with
  | nil =>
    cases h
    exact ⟨rfl, List.forall_mem_nil _⟩
  | cons x xs ih =>
    rw [List.mapM_cons] at h
    obtain ⟨y, hy, h⟩ := except_bind_ok h
    obtain ⟨ys', hys, h⟩ := except_bind_ok h
    cases h
    obtain ⟨rfl, hall⟩ := ih hys
    obtain rfl := hg x y hy
    exact ⟨rfl, List.forall_mem_cons.mpr ⟨hy, hall⟩⟩

def ShadowPickRow.counted (rows : List OrderBookSnapshot) (now : ℚ) (pick : ShadowPickRow) (key : MarkKey) :
    PickOutcome := (pick.outcome rows now key).toOption.getD .noData

theorem counted_of_ok {pick : ShadowPickRow} {key : MarkKey} {o : PickOutcome}
    (h : pick.outcome rows now key = .ok o) : o = pick.counted rows now key := by
  unfold ShadowPickRow.counted
  rw [h]
  rfl

def picksOf (picks : List ShadowPickRow) (conf : String) : List ShadowPickRow :=
  (picks.insertionSort fun p p' => p.ts ≤ p'.ts).filter fun pick => pick.confidence = conf

theorem shadowGroups_ok {picks : List ShadowPickRow} {groups : List (String × PickGroup)}
    (h : shadowGroups rows now picks = .ok groups) :
    (∀ pick ∈ picks, ∀ key ∈ markKeys, pick.outcome rows now key = .ok (pick.counted rows now key)) ∧
      (groups.map Prod.fst).Nodup ∧
      ∀ conf, Grouped.get? groups conf = if picksOf picks conf = [] then none else
        some ⟨(picksOf picks conf).length, markKeys.map fun key =>
          ((picksOf picks conf).map fun pick => pick.counted rows now key).foldl KeyTally.add {}⟩ := by
  obtain ⟨bs, hbs, hok, rfl⟩ := Grouped.groupM_ok h
  have hrow : ∀ ab ∈ bs, ab.2 = markKeys.map (ab.1.counted rows now) ∧
      ∀ key ∈ markKeys, ab.1.outcome rows now key = .ok (ab.1.counted rows now key) := by
    intro ab hab
    exact mapM_ok (fun _ _ => counted_of_ok) (hok ab hab)
  refine ⟨?_, Grouped.nodup_group bs, ?_⟩
  · intro pick hpick
    have hmem : pick ∈ bs.map Prod.fst := by
      rw [hbs]
      exact (List.mem_insertionSort _).mpr hpick
    obtain ⟨ab, hab, rfl⟩ := List.mem_map.mp hmem
    exact (hrow ab hab).2
  · intro conf
    have hmembers : picksOf picks conf = (bs.filter fun ab => ab.1.confidence = conf).map Prod.fst := by
      unfold picksOf
      rw [← hbs, List.filter_map]
      rfl
    have hfold : (bs.filter fun ab => ab.1.confidence = conf).foldl (fun g ab => g.add ab.2) PickGroup.empty =
        (picksOf picks conf).foldl (fun g pick => g.add (markKeys.map (pick.counted rows now))) PickGroup.empty := by
      rw [hmembers, List.foldl_map]
      refine List.foldl_ext _ _ _ fun g ab hab => ?_
      rw [(hrow ab (List.mem_of_mem_filter hab)).1]
    rw [Grouped.get?_group, hfold, group_foldl, hmembers]
    simp only [List.map_eq_nil_iff]

theorem zip_map_self {α β : Type} (f : α → β) (l : List α) : l.zip (l.map f) = l.map fun a => (a, f a) := by
  induction l with
  | nil => rfl
  | cons a l ih => rw [List.map_cons, List.zip_cons_cons, ih, List.map_cons]

theorem collected (prs : List (String × ℚ)) (rs : List ℚ) :
    prs.foldl (fun rs pr => rs ++ [pr.2]) rs = rs ++ prs.map Prod.snd := by
  induction prs generalizing rs with
  | nil => exact (List.append_nil _).symm
  | cons pr prs ih => rw [List.foldl_cons, ih, List.map_cons, List.append_assoc, List.singleton_append]

/-- The report has one entry for each confidence that occurs, and under every key each pick
of it is counted once: as the return, pending or without data that it comes to by itself. -/
theorem shadow_report_tallies {picks : List ShadowPickRow} {positions : List PositionRow}
    {costBasis : ℕ → Option ℚ} {report : ShadowReport}
    (h : shadowReport picks rows positions costBasis now = .ok report) :
    (∀ pick ∈ picks, ∀ key ∈ markKeys, pick.outcome rows now key = .ok (pick.counted rows now key)) ∧
      (report.shadow.map Prod.fst).Nodup ∧
      (∀ conf, Grouped.get? report.shadow conf = if picksOf picks conf = [] then none else
        some ⟨(picksOf picks conf).length, markKeys.map fun key =>
          (key, .of ((picksOf picks conf).map fun pick => pick.counted rows now key))⟩) ∧
      (∀ e ∈ report.shadow, ∀ kh ∈ e.2.horizons,
        kh.2.summary.count + kh.2.pending + kh.2.noData = e.2.picks) ∧
      (report.real.map Prod.fst).Nodup ∧
      ∀ conf, Grouped.get? report.real conf =
        if (positions.filterMap (realReturn costBasis)).filter (fun pr => pr.1 = conf) = [] then none else
          some (summaryOf (((positions.filterMap (realReturn costBasis)).filter fun pr => pr.1 = conf).map Prod.snd)) := by
  obtain ⟨groups, hgroups, hreport⟩ := except_bind_ok h
  cases hreport
  obtain ⟨houtcomes, hnodup, hget⟩ := shadowGroups_ok hgroups
  have hshadow : ∀ conf, Grouped.get? (groups.map fun e => (e.1, e.2.report)) conf =
      if picksOf picks conf = [] then none else
        some ⟨(picksOf picks conf).length, markKeys.map fun key =>
          (key, .of ((picksOf picks conf).map fun pick => pick.counted rows now key))⟩ := by
    intro conf
    rw [Grouped.get?_map, hget]
    split_ifs with hnil
    · rfl
    · simp only [Option.map_some, PickGroup.report, tally_foldl]
      rw [List.map_map, zip_map_self]
      rfl
  have hkeys : ((groups.map fun e => (e.1, e.2.report)).map Prod.fst).Nodup := by
    rw [List.map_map]
    exact hnodup
  refine ⟨houtcomes, hkeys, hshadow, ?_, ?_, ?_⟩
  · intro e he kh hkh
    have hentry := hshadow e.1
    rw [Grouped.get?_of_mem hkeys he] at hentry
    split_ifs at hentry with hnil
    rw [Option.some.inj hentry] at hkh ⊢
    obtain ⟨key, -, rfl⟩ := List.mem_map.mp hkh
    exact (outcomes_counted _).trans (List.length_map _)
  · rw [List.map_map]
    exact Grouped.nodup_group _
  · intro conf
    unfold realReturns
    rw [Grouped.get?_map, Grouped.get?_group]
    split_ifs with hnil
    · rfl
    · rw [collected]
      rfl

def oldPick : ShadowPickRow := ⟨0, "low", some "A", some (1 / 2), none⟩

def latePick : ShadowPickRow := ⟨777600, "low", some "A", some (1 / 2), none⟩

/-- The books of the token six hours, and nine and a half days after the first pick. -/
def earlyBook : OrderBookSnapshot := ⟨"A", 21600, [(3 / 5, 100)]⟩

def lateBook : OrderBookSnapshot := ⟨"A", 820800, [(9 / 10, 100)]⟩

theorem shadow_report_tallies_sample : ∃ report : ShadowReport,
    shadowReport [latePick, oldPick] [earlyBook, lateBook] [] (fun _ => none) 864000 = .ok report ∧
      ∀ e ∈ report.shadow, ∀ kh ∈ e.2.horizons,
        kh.2.summary.count + kh.2.pending + kh.2.noData = e.2.picks := by
  have hok : (shadowReport [latePick, oldPick] [earlyBook, lateBook] [] (fun _ => none) 864000).isOk = true := by
    decide +kernel
  cases hreport : shadowReport [latePick, oldPick] [earlyBook, lateBook] [] (fun _ => none) 864000 with
  | error e =>
    rw [hreport] at hok
    cases hok
  | ok report => exact ⟨report, rfl, (shadow_report_tallies hreport).2.2.2.1⟩

def ArchiveRuns (a : ShadowArchive) (es : List ArchiveEvent) (b : ShadowArchive) : Prop :=
  Run (fun a e b => a.step e = some b) a es b

def ShadowArchive.Spares (a : ShadowArchive) (stamp : ℚ) : Prop :=
  ∀ cutoff ∈ a.sweeps.map Sweep.cutoff, cutoff ≤ stamp

/-- What was written is kept or deleted, and kept where no sweep has reached. -/
structure ShadowArchive.Kept (a : ShadowArchive) : Prop where
  count : a.rows.length + (a.sweeps.map Sweep.deleted).sum = a.written.length
  spared : ∀ stamp, a.Spares stamp →
    (a.books.filter fun s => stamp ≤ s.recordedAt) = a.written.filter fun s => stamp ≤ s.recordedAt

variable {a b : ShadowArchive}

theorem books_insert (books : List OrderBookSnapshot) (rows : List (ℕ × OrderBookSnapshot)) :
    (books.foldl insertSnapshot rows).map Prod.snd = rows.map Prod.snd ++ books := by
  induction books generalizing rows with
  | nil => exact (List.append_nil _).symm
  | cons s books ih =>
    rw [List.foldl_cons, ih, insertSnapshot, List.map_append, List.append_assoc]
    rfl

theorem sum_set {l : List ℕ} {k x : ℕ} (h : l[k]? = some x) (d : ℕ) : (l.set k (x + d)).sum = l.sum + d := by
  induction l generalizing k with
  | nil => cases h
  | cons y l ih =>
    cases k with
    | zero =>
      cases h
      simp only [List.set_cons_zero, List.sum_cons]
      omega
    | succ k =>
      simp only [List.set_cons_succ, List.sum_cons, ih h]
      omega

theorem map_set_same {σ τ : Type} {f : σ → τ} {l : List σ} {k : ℕ} {x y : σ} (h : l[k]? = some x) (hf : f y = f x) :
    (l.set k y).map f = l.map f := by
  obtain ⟨hk, rfl⟩ := List.getElem?_eq_some_iff.mp h
  have hmap : k < (l.map f).length := (List.length_map f).symm ▸ hk
  have hget : (l.map f)[k] = f l[k] := List.getElem_map f
  rw [List.map_set, hf, ← hget]
  exact List.set_getElem_self hmap

/-- Of a statement's rows all are old, and it stops short only where no old row is left. -/
theorem takes_old {cutoff : ℚ} {ids : List ℕ} (h : a.takes cutoff ids = true) :
    (∀ r ∈ a.rows, ids.contains r.1 = true → r.2.recordedAt < cutoff) ∧
      (a.rows.countP fun r => ids.contains r.1) =
        min pruneBatchRows (a.rows.countP fun r => decide (r.2.recordedAt < cutoff)) := by
  unfold ShadowArchive.takes at h
  rw [Bool.and_eq_true, decide_eq_true_eq, List.all_eq_true] at h
  refine ⟨?_, h.2⟩
  intro r hr hid
  have hold := h.1 r hr
  rw [hid] at hold
  simpa using hold

theorem cutoffs_delete {k : ℕ} {sweep : Sweep} {ids : List ℕ} (h : a.sweeps[k]? = some sweep) :
    (a.delete k sweep ids).sweeps.map Sweep.cutoff = a.sweeps.map Sweep.cutoff :=
  map_set_same h rfl

theorem cutoffs_bail {k : ℕ} {sweep : Sweep} (h : a.sweeps[k]? = some sweep) :
    (a.sweeps.set k { sweep with running := false }).map Sweep.cutoff = a.sweeps.map Sweep.cutoff :=
  map_set_same h rfl

theorem kept_delete {k : ℕ} {sweep : Sweep} {ids : List ℕ} (ha : a.Kept) (hk : a.sweeps[k]? = some sweep)
    (htakes : a.takes sweep.cutoff ids = true) : (a.delete k sweep ids).Kept := by
  constructor
  · have hdeleted : (a.sweeps.map Sweep.deleted)[k]? = some sweep.deleted := by
      rw [List.getElem?_map, hk]
      rfl
    have hsum := sum_set hdeleted (a.rows.countP fun r => ids.contains r.1)
    have hlength := List.length_eq_countP_add_countP (l := a.rows) fun r => ids.contains r.1
    have hrest : (a.rows.filter fun r => !ids.contains r.1).length =
        a.rows.countP fun r => ¬ ids.contains r.1 = true := by
      rw [List.countP_eq_length_filter]
      simp
    have hcount := ha.count
    simp only [ShadowArchive.delete, List.map_set, hrest]
    omega
  · intro stamp hspares
    have hspares' : a.Spares stamp := by
      unfold ShadowArchive.Spares at hspares ⊢
      rw [cutoffs_delete hk] at hspares
      exact hspares
    have hcutoff : sweep.cutoff ≤ stamp :=
      hspares' _ (List.mem_map_of_mem (List.mem_of_getElem? hk))
    have hsame : ((a.rows.filter fun r => !ids.contains r.1).filter fun r => decide (stamp ≤ r.2.recordedAt)) =
        a.rows.filter fun r => decide (stamp ≤ r.2.recordedAt) := by
      rw [List.filter_filter]
      refine List.filter_congr fun r hr => ?_
      by_cases hid : ids.contains r.1 = true
      · have hold := (takes_old htakes).1 r hr hid
        have hnot : ¬ stamp ≤ r.2.recordedAt := not_le.mpr (lt_of_lt_of_le hold hcutoff)
        simp [hnot]
      · simp at hid
        simp [hid]
    have hkept := ha.spared stamp hspares'
    unfold ShadowArchive.books at hkept ⊢
    rw [List.filter_map] at hkept ⊢
    exact (congrArg (List.map Prod.snd) hsame).trans hkept

theorem kept_step {e : ArchiveEvent} (ha : a.Kept) (h : a.step e = some b) : b.Kept := by
  cases e with
  | persist books =>
    cases h
    constructor
    · have hlength : (books.foldl insertSnapshot a.rows).length = a.rows.length + books.length := by
        have hmap := congrArg List.length (books_insert books a.rows)
        simpa using hmap
      have hcount := ha.count
      simp only [hlength, List.length_append]
      omega
    · intro stamp hspares
      have hkept := ha.spared stamp hspares
      unfold ShadowArchive.books at hkept ⊢
      rw [books_insert, List.filter_append, hkept, List.filter_append]
  | record r =>
    cases h
    exact ⟨ha.count, ha.spared⟩
  | startPrune now retentionDays =>
    simp only [ShadowArchive.step] at h
    split_ifs at h with hdays
    · cases h
      exact ha
    · cases h
      constructor
      · simpa using ha.count
      · intro stamp hspares
        refine ha.spared stamp fun cutoff hcutoff => hspares cutoff ?_
        rw [List.map_append]
        exact List.mem_append_left _ hcutoff
  | pruneBatch k ids =>
    simp only [ShadowArchive.step] at h
    split at h
    · next sweep hk =>
      split_ifs at h with htakes
      cases h
      rw [Bool.and_eq_true] at htakes
      exact kept_delete ha hk htakes.2
    · cases h
  | bail k =>
    simp only [ShadowArchive.step] at h
    split at h
    · next sweep hk =>
      cases h
      constructor
      · have hdeleted : (a.sweeps.set k { sweep with running := false }).map Sweep.deleted =
            a.sweeps.map Sweep.deleted := map_set_same hk rfl
        have hcount := ha.count
        rw [← hdeleted] at hcount
        exact hcount
      · intro stamp hspares
        refine ha.spared stamp ?_
        unfold ShadowArchive.Spares at hspares ⊢
        rw [← cutoffs_bail hk]
        exact hspares
    · cases h

theorem kept_run {es : List ArchiveEvent} (h : ArchiveRuns .empty es a) : a.Kept :=
  Run.invariant (fun _ _ _ => kept_step) h ⟨rfl, fun _ _ => rfl⟩

/-- What a query reads only where no sweep has reached is as it was written. -/
theorem books_filter {stamp : ℚ} {p : OrderBookSnapshot → Bool} (ha : a.Kept) (hspares : a.Spares stamp)
    (hp : ∀ s, p s = true → stamp ≤ s.recordedAt) : a.books.filter p = a.written.filter p := by
  have hsplit : ∀ l : List OrderBookSnapshot,
      l.filter p = (l.filter fun s => decide (stamp ≤ s.recordedAt)).filter p := by
    intro l
    rw [List.filter_filter]
    refine List.filter_congr fun s _ => ?_
    cases hs : p s with
    | false => rfl
    | true => simp [hp s hs]
  rw [hsplit, hsplit a.written, ha.spared stamp hspares]

theorem snapshotAt_spared {due : ℚ} (ha : a.Kept) (hspares : a.Spares due) (token : String) :
    snapshotAt a.books token due = snapshotAt a.written token due := by
  unfold snapshotAt
  rw [books_filter ha hspares]
  intro s hs
  exact (of_decide_eq_true hs).2

theorem outcome_spared {pick : ShadowPickRow} (ha : a.Kept) (hspares : a.Spares pick.ts) (key : MarkKey) :
    pick.outcome a.books now key = pick.outcome a.written now key := by
  have hmark : ∀ h token, shadowMarkAt a.books token (pick.dueAt h) = shadowMarkAt a.written token (pick.dueAt h) := by
    intro h token
    have hdue : pick.ts ≤ pick.dueAt h := by
      unfold ShadowPickRow.dueAt
      have : (0 : ℚ) ≤ h * 3600 := by positivity
      linarith
    unfold shadowMarkAt
    rw [snapshotAt_spared ha (fun cutoff hcutoff => (hspares cutoff hcutoff).trans hdue)]
  have hlatest : ∀ token, latestMark a.books token pick.ts = latestMark a.written token pick.ts := by
    intro token
    unfold latestMark
    rw [books_filter ha hspares]
    intro s hs
    exact (of_decide_eq_true hs).2.le
  unfold ShadowPickRow.outcome
  simp only [hmark, hlatest]

/-- A sweep that ends by itself has left nothing older than its cutoff. -/
theorem sweep_ends {k : ℕ} {ids : List ℕ} {sweep : Sweep} (h : a.step (.pruneBatch k ids) = some b)
    (hsweep : b.sweeps[k]? = some sweep) (hdone : sweep.running = false) :
    ∀ s ∈ b.books, sweep.cutoff ≤ s.recordedAt := by
  simp only [ShadowArchive.step] at h
  split at h
  · next before hk =>
    split_ifs at h with htakes
    cases h
    rw [Bool.and_eq_true] at htakes
    obtain ⟨hold, hcount⟩ := takes_old htakes.2
    have hlt : k < a.sweeps.length := (List.getElem?_eq_some_iff.mp hk).1
    have hset : (a.delete k before ids).sweeps[k]? = some ⟨before.cutoff,
        before.deleted + (a.rows.countP fun r => ids.contains r.1),
        decide ((a.rows.countP fun r => ids.contains r.1) = pruneBatchRows)⟩ := List.getElem?_set_self hlt
    rw [hset] at hsweep
    cases hsweep
    have hshort := of_decide_eq_false hdone
    have hall : (a.rows.countP fun r => ids.contains r.1) =
        a.rows.countP fun r => decide (r.2.recordedAt < before.cutoff) := by omega
    -- the rows taken are all the old ones, so those left are not old
    have hsplit := List.countP_eq_countP_filter_add a.rows (fun r => decide (r.2.recordedAt < before.cutoff))
      fun r => ids.contains r.1
    have htaken : (a.rows.filter fun r => ids.contains r.1).countP
        (fun r => decide (r.2.recordedAt < before.cutoff)) = a.rows.countP fun r => ids.contains r.1 := by
      rw [List.countP_eq_length.mpr, List.countP_eq_length_filter]
      intro r hr
      obtain ⟨hr, hid⟩ := List.mem_filter.mp hr
      exact decide_eq_true (hold r hr hid)
    have hnone : (a.rows.filter fun r => !ids.contains r.1).countP
        (fun r => decide (r.2.recordedAt < before.cutoff)) = 0 := by omega
    intro s hs
    obtain ⟨r, hr, rfl⟩ := List.mem_map.mp hs
    have hnot := List.countP_eq_zero.mp hnone r hr
    simpa using hnot
  · cases h

/-- Whatever is written, and whatever sweeps run and are cut short: every snapshot is kept or
counted as deleted, a sweep that ends by itself leaves none older than its cutoff, and a
pick no sweep has reached is counted as on everything ever written. -/
theorem shadow_marks_stand {es : List ArchiveEvent} (h : ArchiveRuns .empty es a) :
    a.rows.length + (a.sweeps.map Sweep.deleted).sum = a.written.length ∧
      (∀ k ids b sweep, a.step (.pruneBatch k ids) = some b → b.sweeps[k]? = some sweep →
        sweep.running = false → ∀ s ∈ b.books, sweep.cutoff ≤ s.recordedAt) ∧
      ∀ pick : ShadowPickRow, a.Spares pick.ts → ∀ now key,
        pick.outcome a.books now key = pick.outcome a.written now key := by
  have hkept := kept_run h
  refine ⟨hkept.count, ?_, ?_⟩
  · intro k ids b sweep hstep hsweep hdone
    exact sweep_ends hstep hsweep hdone
  · intro pick hspares now key
    exact outcome_spared hkept hspares key

def ShadowArchive.after (a : ShadowArchive) (es : List ArchiveEvent) : Option ShadowArchive :=
  es.foldlM ShadowArchive.step a

def prunedTable : List ArchiveEvent :=
  [.persist [earlyBook], .persist [lateBook], .startPrune 864000 7, .pruneBatch 0 [1]]

theorem shadow_marks_stand_sample : ∃ a : ShadowArchive, ArchiveRuns .empty prunedTable a ∧ a.books = [lateBook] ∧
    latePick.outcome a.books 864000 (.hours 6) = latePick.outcome a.written 864000 (.hours 6) := by
  have hafter : (ShadowArchive.empty.after prunedTable).map (fun a => (a.books, a.sweeps.map Sweep.cutoff)) =
      some ([lateBook], [259200]) := by decide +kernel
  obtain ⟨a, ha, heq⟩ := Option.map_eq_some_iff.mp hafter
  obtain ⟨hbooks, hcutoffs⟩ := Prod.mk.inj heq
  have hrun : ArchiveRuns .empty prunedTable a := run_foldlM _ ha
  refine ⟨a, hrun, hbooks, (shadow_marks_stand hrun).2.2 latePick ?_ _ _⟩
  intro cutoff hcutoff
  rw [hcutoffs, List.mem_singleton] at hcutoff
  subst hcutoff
  decide +kernel

/-- Nothing takes a snapshot back or a cutoff away. -/
structure Grown (a b : ShadowArchive) : Prop where
  written : a.written <+: b.written
  cutoffs : a.sweeps.map Sweep.cutoff <+: b.sweeps.map Sweep.cutoff

theorem grown_step {e : ArchiveEvent} (h : a.step e = some b) : Grown a b := by
  cases e with
  | persist books =>
    cases h
    exact ⟨List.prefix_append _ _, List.prefix_rfl⟩
  | record r =>
    cases h
    exact ⟨List.prefix_rfl, List.prefix_rfl⟩
  | startPrune now retentionDays =>
    simp only [ShadowArchive.step] at h
    split_ifs at h with hdays
    · cases h
      exact ⟨List.prefix_rfl, List.prefix_rfl⟩
    · cases h
      refine ⟨List.prefix_rfl, ?_⟩
      rw [List.map_append]
      exact List.prefix_append _ _
  | pruneBatch k ids =>
    simp only [ShadowArchive.step] at h
    split at h
    · next sweep hk =>
      split_ifs at h with htakes
      cases h
      refine ⟨List.prefix_rfl, ?_⟩
      rw [cutoffs_delete hk]
    · cases h
  | bail k =>
    simp only [ShadowArchive.step] at h
    split at h
    · next sweep hk =>
      cases h
      refine ⟨List.prefix_rfl, ?_⟩
      rw [cutoffs_bail hk]
    · cases h

theorem grown_run {es : List ArchiveEvent} (h : ArchiveRuns a es b) : Grown a b := by
  have hkeep : ∀ c e d, Grown a c → ShadowArchive.step c e = some d → Grown a d := by
    intro c e d hc hstep
    have hd := grown_step hstep
    exact ⟨hc.written.trans hd.written, hc.cutoffs.trans hd.cutoffs⟩
  exact Run.invariant hkeep h ⟨List.prefix_rfl, List.prefix_rfl⟩

/-- A horizon once marked keeps its mark, whatever is written and deleted later, until a
sweep's cutoff has passed it: where a token's snapshots are written in the order of their
stamps. -/
theorem horizon_marks_final {es fs : List ArchiveEvent} (h : ArchiveRuns .empty es a)
    (hlater : ArchiveRuns a fs b)
    (hordered : b.written.Pairwise fun s s' => s.tokenId = s'.tokenId → s.recordedAt ≤ s'.recordedAt)
    {pick : ShadowPickRow} {hours : ℕ} (hspares : b.Spares (pick.dueAt hours)) {now' : ℚ} (hnow : now ≤ now')
    {r : ℚ} (hmarked : pick.outcome a.books now (.hours hours) = .ok (.returned r)) :
    pick.outcome b.books now' (.hours hours) = .ok (.returned r) := by
  obtain ⟨later, hlater'⟩ := (grown_run hlater).written
  have hspares' : a.Spares (pick.dueAt hours) := fun cutoff hcutoff =>
    hspares cutoff ((grown_run hlater).cutoffs.subset hcutoff)
  have hb : b.Kept := kept_run (Run.append h hlater)
  unfold ShadowPickRow.outcome at hmarked ⊢
  split at hmarked
  · next token ask htoken hask =>
    by_cases hzero : ask = 0
    · rw [if_pos hzero] at hmarked
      cases hmarked
    · rw [if_neg hzero] at hmarked
      by_cases hdue : now < pick.dueAt hours
      · simp only [if_pos hdue] at hmarked
        cases hmarked
      · simp only [if_neg hdue] at hmarked
        have hdue' : ¬ now' < pick.dueAt hours := fun hlt => hdue (lt_of_le_of_lt hnow hlt)
        have hsame : snapshotAt b.books token (pick.dueAt hours) = snapshotAt a.books token (pick.dueAt hours) := by
          rw [snapshotAt_spared hb hspares, snapshotAt_spared (kept_run h) hspares', ← hlater']
          cases hfirst : snapshotAt a.written token (pick.dueAt hours) with
          | none =>
            rw [shadowMarkAt, snapshotAt_spared (kept_run h) hspares', hfirst] at hmarked
            cases hmarked
          | some s =>
            unfold snapshotAt at hfirst ⊢
            rw [List.filter_append]
            apply Earliest.first_append hfirst
            intro s' hs' s hs
            rw [← hlater', List.pairwise_append] at hordered
            obtain ⟨hs, htok⟩ := List.mem_filter.mp hs
            obtain ⟨hs', htok'⟩ := List.mem_filter.mp hs'
            exact hordered.2.2 s hs s' hs'
              ((of_decide_eq_true htok).1.trans (of_decide_eq_true htok').1.symm)
        rw [if_neg hzero]
        simp only [if_neg hdue']
        rw [shadowMarkAt, hsame]
        exact hmarked
  · cases hmarked

def firstBook : ShadowArchive := ⟨[(1, earlyBook)], [], [], [earlyBook]⟩

theorem horizon_marks_final_sample : ∃ b : ShadowArchive,
    ArchiveRuns firstBook [.startPrune 600000 7, .persist [lateBook]] b ∧ b.written = [earlyBook, lateBook] ∧
      oldPick.outcome b.books 864000 (.hours 6) = .ok (.returned (1 / 5)) := by
  have hstart : ArchiveRuns .empty [.persist [earlyBook]] firstBook := run_foldlM _ rfl
  have hmarked : oldPick.outcome firstBook.books 21600 (.hours 6) = .ok (.returned (1 / 5)) := by decide +kernel
  have hafter : (firstBook.after [.startPrune 600000 7, .persist [lateBook]]).map
      (fun b => (b.written, b.sweeps.map Sweep.cutoff)) = some ([earlyBook, lateBook], [-4800]) := by
    decide +kernel
  obtain ⟨b, hb, heq⟩ := Option.map_eq_some_iff.mp hafter
  obtain ⟨hwritten, hcutoffs⟩ := Prod.mk.inj heq
  have hordered : b.written.Pairwise fun s s' => s.tokenId = s'.tokenId → s.recordedAt ≤ s'.recordedAt := by
    rw [hwritten]
    decide +kernel
  have hspares : b.Spares (oldPick.dueAt 6) := by
    intro cutoff hcutoff
    rw [hcutoffs, List.mem_singleton] at hcutoff
    subst hcutoff
    decide +kernel
  have hrun : ArchiveRuns firstBook [.startPrune 600000 7, .persist [lateBook]] b := run_foldlM _ hb
  exact ⟨b, hrun, hwritten, horizon_marks_final hstart hrun hordered hspares (by decide +kernel) hmarked⟩

/-- Once its own snapshot is pruned, a horizon is marked at whatever is left: not without
data, but at a price of days later. -/
theorem pruned_mark_drifts : ∃ a b : ShadowArchive,
    ArchiveRuns .empty [.persist [earlyBook], .persist [lateBook]] a ∧
      ArchiveRuns a [.startPrune 864000 7, .pruneBatch 0 [1]] b ∧
      oldPick.outcome a.books 864000 (.hours 6) = .ok (.returned (1 / 5)) ∧
      oldPick.outcome b.books 864000 (.hours 6) = .ok (.returned (4 / 5)) := by
  have hbefore : oldPick.outcome [earlyBook, lateBook] 864000 (.hours 6) = .ok (.returned (1 / 5)) := by
    decide +kernel
  have hafter : (ShadowArchive.empty.after prunedTable).map ShadowArchive.books = some [lateBook] := by
    decide +kernel
  have hdrifted : oldPick.outcome [lateBook] 864000 (.hours 6) = .ok (.returned (4 / 5)) := by decide +kernel
  obtain ⟨b, hb, hbooks⟩ := Option.map_eq_some_iff.mp hafter
  refine ⟨⟨[(1, earlyBook), (2, lateBook)], [], [], [earlyBook, lateBook]⟩, b, run_foldlM _ rfl, ?_, hbefore, ?_⟩
  · exact run_foldlM _ hb
  · rw [hbooks]
    exact hdrifted

end OpenPoly
