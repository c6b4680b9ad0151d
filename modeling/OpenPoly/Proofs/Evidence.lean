import OpenPoly.Spec.Conclusion

/-! What the evidence of an order holds after the readings of it, and what it
resolves to. -/

namespace OpenPoly

open Largest

theorem fillTol_pos : 0 < fillTol := by norm_num [fillTol]

theorem plausibleQty_eq_some {qty : Option ℚ} {size q : ℚ} :
    plausibleQty qty size = some q ↔ qty = some q ∧ 0 ≤ q ∧ q ≤ size + fillTol := by
  simp [plausibleQty, Option.filter_eq_some_iff, not_or]

@[simp] theorem plausibleQty_plausibleQty (qty : Option ℚ) (size : ℚ) :
    plausibleQty (plausibleQty qty size) size = plausibleQty qty size := by
  cases h : plausibleQty qty size with
  | none => rfl
  | some q => exact plausibleQty_eq_some.mpr ⟨rfl, (plausibleQty_eq_some.mp h).2⟩

theorem plausibleQty_of_le {q size : ℚ} (h0 : 0 ≤ q) (h : q ≤ size) : plausibleQty (some q) size = some q :=
  plausibleQty_eq_some.mpr ⟨rfl, h0, by linarith [fillTol_pos]⟩

/-- The evidence with one more lower bound, where there is one. -/
def FillEvidence.bounded (ev : FillEvidence) (q : Option ℚ) (source : Source) (settled : Bool) :
    FillEvidence :=
  { ev with bounds := ev.bounds ++ (q.map fun q => ⟨q, source, settled⟩).toList }

theorem FillEvidence.add_bound (ev : FillEvidence) (qty : Option ℚ) (source : Source)
    (settled : Bool) :
    ev.add qty source false false settled =
      ev.bounded ((plausibleQty qty ev.size).filter fun q => 0 < q) source settled := by
  unfold FillEvidence.add FillEvidence.bounded
  cases plausibleQty qty ev.size with
  | none => simp
  | some q =>
    by_cases hq : 0 < q
    · simp [hq, not_le.mpr hq, Option.filter]
    · simp [hq, not_lt.mp hq, Option.filter]

theorem FillEvidence.add_exact (ev : FillEvidence) (qty : Option ℚ) (source : Source) :
    ev.add qty source true =
      { ev with exact := ((plausibleQty qty ev.size).map fun q => ⟨q, source, false⟩).or ev.exact } := by
  unfold FillEvidence.add
  cases plausibleQty qty ev.size with
  | none => simp
  | some q => simp

/-- Everything a reading adds. -/
theorem FillEvidence.addRead_snd (ev : FillEvidence) (r : Reading) :
    (ev.addRead r.1 r.2).2 =
      if r.terminal ev.size then
        { ev with exact := ((r.count ev.size).map fun q => ⟨q, .orderRead, false⟩).or ev.exact }
      else ev.bounded (r.bound ev.size) .orderRead false := by
  unfold FillEvidence.addRead
  show ev.add (plausibleQty r.1 ev.size) .orderRead (r.terminal ev.size) = _
  cases r.terminal ev.size with
  | true => rw [FillEvidence.add_exact, plausibleQty_plausibleQty, if_pos rfl]; rfl
  | false =>
    rw [FillEvidence.add_bound, plausibleQty_plausibleQty, if_neg (by decide)]
    rfl

theorem FillEvidence.addRead_fst (ev : FillEvidence) (r : Reading) :
    (ev.addRead r.1 r.2).1 = r.terminal ev.size := rfl

def FillEvidence.readAll (ev : FillEvidence) (reads : List Reading) : FillEvidence :=
  reads.foldl (fun ev r => (ev.addRead r.1 r.2).2) ev

@[simp] theorem FillEvidence.readAll_nil (ev : FillEvidence) : ev.readAll [] = ev := rfl

@[simp] theorem FillEvidence.readAll_cons (ev : FillEvidence) (r : Reading) (reads : List Reading) :
    ev.readAll (r :: reads) = (ev.addRead r.1 r.2).2.readAll reads := rfl

theorem FillEvidence.readAll_append (ev : FillEvidence) (rs rs' : List Reading) :
    ev.readAll (rs ++ rs') = (ev.readAll rs).readAll rs' := List.foldl_append

@[simp] theorem FillEvidence.addRead_size (ev : FillEvidence) (r : Reading) :
    (ev.addRead r.1 r.2).2.size = ev.size := by
  rw [FillEvidence.addRead_snd]
  split_ifs <;> rfl

@[simp] theorem FillEvidence.readAll_size (ev : FillEvidence) (reads : List Reading) :
    (ev.readAll reads).size = ev.size := by
  induction reads generalizing ev with
  | nil => rfl
  | cons r reads ih => rw [FillEvidence.readAll_cons, ih, FillEvidence.addRead_size]

theorem FillEvidence.readAll_bounds (ev : FillEvidence) (reads : List Reading) :
    (ev.readAll reads).bounds =
      ev.bounds ++ (readBounds ev.size reads).map fun q => ⟨q, .orderRead, false⟩ := by
  induction reads generalizing ev with
  | nil => simp [readBounds]
  | cons r reads ih =>
    rw [FillEvidence.readAll_cons, ih, FillEvidence.addRead_size, FillEvidence.addRead_snd]
    cases ht : r.terminal ev.size with
    | true => simp [readBounds, ht]
    | false =>
      cases hb : r.bound ev.size with
      | none => simp [readBounds, ht, hb, FillEvidence.bounded]
      | some q => simp [readBounds, ht, hb, FillEvidence.bounded]

/-- The count the evidence holds is that of the last terminal reading with one. -/
theorem FillEvidence.readAll_exact (ev : FillEvidence) (reads : List Reading) :
    (ev.readAll reads).exact =
      ((finalCounts ev.size reads).getLast?.map fun q => ⟨q, .orderRead, false⟩).or ev.exact := by
  induction reads generalizing ev with
  | nil => simp [finalCounts]
  | cons r reads ih =>
    rw [FillEvidence.readAll_cons, ih, FillEvidence.addRead_size, FillEvidence.addRead_snd]
    cases ht : r.terminal ev.size with
    | false => simp [finalCounts, ht, FillEvidence.bounded]
    | true =>
      cases hc : r.count ev.size with
      | none => simp [finalCounts, ht, hc]
      | some q =>
        have hcons : finalCounts ev.size (r :: reads) = q :: finalCounts ev.size reads := by
          simp [finalCounts, ht, hc]
        rw [hcons, List.getLast?_cons]
        cases (finalCounts ev.size reads).getLast? with
        | none => simp
        | some c => simp

/-- The bounds a count of `source` does not overrule. -/
def FillEvidence.outlasting (ev : FillEvidence) (source : Source) : List ℚ :=
  (ev.bounds.filter fun b => b.settled ∨ b.source = source).map Evidence.qty

theorem foldl_raiseExact (source : Source) (bounds : List Evidence) (a : ℚ) :
    bounds.foldl (raiseExact source) a =
      ((bounds.filter fun b => b.settled ∨ b.source = source).map Evidence.qty).foldl
        (raise fillTol) a := by
  induction bounds generalizing a with
  | nil => rfl
  | cons b bounds ih =>
    rw [List.foldl_cons, ih]
    by_cases hb : b.settled = true ∨ b.source = source
    · have hstep : raiseExact source a b = raise fillTol a b.qty := by
        simp [raiseExact, raise, hb]
      simp [hb, hstep]
    · have hstep : raiseExact source a b = a := by simp [raiseExact, hb]
      simp [hb, hstep]

/-- A count resolves to the largest of it and the bounds that outlast it. -/
theorem FillEvidence.resolve_exact (ev : FillEvidence) {count : Evidence}
    (h : ev.exact = some count) :
    ∃ q, ev.resolve = some q ∧ IsLargest fillTol (count.qty :: ev.outlasting count.source) q := by
  refine ⟨_, by rw [FillEvidence.resolve, h], ?_⟩
  rw [foldl_raiseExact]
  exact isLargest_foldl fillTol_pos.le _ _

theorem FillEvidence.resolve_bounds (ev : FillEvidence) (h : ev.exact = none) :
    ev.resolve = (ev.bounds.map Evidence.qty).max? := by
  rw [FillEvidence.resolve, h]

/-- Whether there is an answer is a matter of what was seen, not of its order. -/
theorem FillEvidence.resolve_isSome_perm {size : ℚ} {exact : Option Evidence}
    {bs bs' : List Evidence} (h : bs.Perm bs') :
    (FillEvidence.resolve ⟨size, exact, bs⟩).isSome =
      (FillEvidence.resolve ⟨size, exact, bs'⟩).isSome := by
  cases exact with
  | some count => rfl
  | none =>
    rw [FillEvidence.resolve_bounds ⟨size, none, bs⟩ rfl,
      FillEvidence.resolve_bounds ⟨size, none, bs'⟩ rfl, Bool.eq_iff_iff, List.isSome_max?_iff,
      List.isSome_max?_iff]
    simp only [ne_eq, List.map_eq_nil_iff]
    rw [← List.length_eq_zero_iff, h.length_eq, List.length_eq_zero_iff]

/-- Lower bounds in another order: the same answer, up to the slack where there
is a count. -/
theorem FillEvidence.resolve_perm {size : ℚ} {exact : Option Evidence} {bs bs' : List Evidence}
    (h : bs.Perm bs') {q q' : ℚ} (hq : FillEvidence.resolve ⟨size, exact, bs⟩ = some q)
    (hq' : FillEvidence.resolve ⟨size, exact, bs'⟩ = some q') : |q - q'| ≤ fillTol := by
  cases exact with
  | some count =>
    obtain ⟨p, hp, hl⟩ := FillEvidence.resolve_exact ⟨size, some count, bs⟩ rfl
    obtain ⟨p', hp', hl'⟩ := FillEvidence.resolve_exact ⟨size, some count, bs'⟩ rfl
    obtain rfl : p = q := Option.some.inj (hp.symm.trans hq)
    obtain rfl : p' = q' := Option.some.inj (hp'.symm.trans hq')
    exact (hl.perm (((h.filter _).map _).cons _)).abs_sub_le hl'
  | none =>
    have hl := isLargest_max? ((FillEvidence.resolve_bounds ⟨size, none, bs⟩ rfl) ▸ hq)
    have hl' := isLargest_max? ((FillEvidence.resolve_bounds ⟨size, none, bs'⟩ rfl) ▸ hq')
    exact ((hl.perm (h.map _)).abs_sub_le hl').trans fillTol_pos.le

end OpenPoly
