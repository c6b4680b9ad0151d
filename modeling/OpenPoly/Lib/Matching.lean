import Mathlib.Algebra.Order.BigOperators.Group.List
import Mathlib.Algebra.Order.Ring.Defs
import Mathlib.Algebra.Order.Group.MinMax
import Mathlib.Tactic.Linarith
import Mathlib.Tactic.Ring

/-! Matching a quantity against price levels taken in order: what is executed at
each, how much in all, and how much of it at prices a condition allows. -/

namespace Matching

variable {P K : Type*} [AddCommGroup K]

def volume (levels : List (P × K)) : K := (levels.map Prod.snd).sum

@[simp] theorem volume_nil : volume ([] : List (P × K)) = 0 := rfl

@[simp] theorem volume_cons (l : P × K) (levels : List (P × K)) :
    volume (l :: levels) = l.2 + volume levels := rfl

variable [LinearOrder K]

/-- The executions of `qty`, each level in turn until it is used up. -/
def takeBest : List (P × K) → K → List (P × K)
  | [], _ => []
  | (price, size) :: levels, qty =>
    if qty ≤ 0 then [] else (price, min qty size) :: takeBest levels (qty - min qty size)

theorem takeBest_nonpos (levels : List (P × K)) {qty : K} (h : qty ≤ 0) : takeBest levels qty = [] := by
  cases levels with
  | nil => rfl
  | cons l levels => simp [takeBest, h]

theorem takeBest_cons (price : P) (size : K) (levels : List (P × K)) {qty : K} (h : 0 < qty) :
    takeBest ((price, size) :: levels) qty =
      (price, min qty size) :: takeBest levels (qty - min qty size) := if_neg h.not_ge

/-- Where every level a condition allows stands before those it does not, the
leading executions it allows are those of the levels it allows. -/
theorem takeBest_takeWhile {p : P → Bool} {levels : List (P × K)}
    (h : levels.Pairwise fun a b => p b.1 = true → p a.1 = true) (qty : K) :
    (takeBest levels qty).takeWhile (fun e => p e.1) = takeBest (levels.filter fun l => p l.1) qty := by
  induction levels generalizing qty with
  | nil => rfl
  | cons l levels ih =>
    obtain ⟨price, size⟩ := l
    obtain ⟨hhead, htail⟩ := List.pairwise_cons.mp h
    by_cases h0 : qty ≤ 0
    · rw [takeBest_nonpos _ h0, takeBest_nonpos _ h0, List.takeWhile_nil]
    · by_cases hp : p price = true
      · simp [takeBest, h0, hp, ih htail]
      · -- nothing behind a level it does not allow is allowed
        have hnil : levels.filter (fun l => p l.1) = [] :=
          List.filter_eq_nil_iff.mpr fun l hl hpl => hp (hhead l hl hpl)
        simp [takeBest, h0, hp, hnil]

theorem takeBest_pos {levels : List (P × K)} (h : ∀ l ∈ levels, 0 < l.2) {qty : K} {e : P × K}
    (he : e ∈ takeBest levels qty) : 0 < e.2 := by
  induction levels generalizing qty with
  | nil => simp [takeBest] at he
  | cons l levels ih =>
    obtain ⟨price, size⟩ := l
    unfold takeBest at he
    split_ifs at he with h0
    · simp at he
    · rcases List.mem_cons.mp he with rfl | he
      · exact lt_min (not_le.mp h0) (h _ List.mem_cons_self)
      · exact ih (fun l hl => h l (List.mem_cons_of_mem _ hl)) he

/-- Executions are at the prices of the levels. -/
theorem price_mem_takeBest {levels : List (P × K)} {qty : K} {e : P × K}
    (he : e ∈ takeBest levels qty) : e.1 ∈ levels.map Prod.fst := by
  induction levels generalizing qty with
  | nil => simp [takeBest] at he
  | cons l levels ih =>
    obtain ⟨price, size⟩ := l
    unfold takeBest at he
    split_ifs at he with h0
    · simp at he
    · rcases List.mem_cons.mp he with rfl | he
      · exact List.mem_cons_self
      · exact List.mem_cons_of_mem _ (ih he)

variable [IsOrderedAddMonoid K]

theorem volume_nonneg {levels : List (P × K)} (h : ∀ l ∈ levels, 0 < l.2) : 0 ≤ volume levels := by
  refine List.sum_nonneg fun q hq => ?_
  obtain ⟨l, hl, rfl⟩ := List.mem_map.mp hq
  exact (h l hl).le

/-- A prefix holds no more than the whole. -/
theorem volume_prefix {levels levels' : List (P × K)} (h : levels <+: levels')
    (hpos : ∀ l ∈ levels', 0 < l.2) : volume levels ≤ volume levels' := by
  obtain ⟨rest, rfl⟩ := h
  have hrest := volume_nonneg fun l hl => hpos l (List.mem_append_right levels hl)
  unfold volume at hrest ⊢
  rw [List.map_append, List.sum_append]
  exact le_add_of_nonneg_right hrest

/-- What is executed: the quantity, or all there is. -/
theorem volume_takeBest {levels : List (P × K)} (h : ∀ l ∈ levels, 0 < l.2) {qty : K} (hq : 0 ≤ qty) :
    volume (takeBest levels qty) = min qty (volume levels) := by
  induction levels generalizing qty with
  | nil => simp [takeBest, hq]
  | cons l levels ih =>
    obtain ⟨price, size⟩ := l
    have hsize : 0 < size := h _ List.mem_cons_self
    have hrest : ∀ l ∈ levels, 0 < l.2 := fun l hl => h l (List.mem_cons_of_mem _ hl)
    have hvol := volume_nonneg hrest
    unfold takeBest
    split_ifs with h0
    · obtain rfl : qty = 0 := le_antisymm h0 hq
      simp [add_nonneg hsize.le hvol]
    · rw [volume_cons, ih hrest (sub_nonneg.mpr (min_le_left _ _)), volume_cons]
      rcases le_total qty size with hle | hle
      · simp only [min_eq_left hle, sub_self, min_eq_left hvol, add_zero]
        exact (min_eq_left (le_add_of_le_of_nonneg hle hvol)).symm
      · simp only [min_eq_right hle]
        rw [← min_add_add_left, add_sub_cancel]

/-- A quantity there is not enough for takes everything. -/
theorem takeBest_all {levels : List (P × K)} (h : ∀ l ∈ levels, 0 < l.2) {qty : K} (hq : volume levels ≤ qty) :
    takeBest levels qty = levels := by
  induction levels generalizing qty with
  | nil => rfl
  | cons l levels ih =>
    obtain ⟨price, size⟩ := l
    have hsize : 0 < size := h _ List.mem_cons_self
    have hrest : ∀ l ∈ levels, 0 < l.2 := fun l hl => h l (List.mem_cons_of_mem _ hl)
    have hle : size ≤ qty := (le_add_of_nonneg_right (volume_nonneg hrest)).trans hq
    rw [takeBest_cons price size levels (hsize.trans_le hle), min_eq_right hle,
      ih hrest (le_sub_iff_add_le'.mpr hq)]

section Notional

variable {F : Type*} [CommRing F]

def notional (levels : List (F × F)) : F := (levels.map fun l => l.1 * l.2).sum

@[simp] theorem notional_nil : notional ([] : List (F × F)) = 0 := rfl

@[simp] theorem notional_cons (l : F × F) (levels : List (F × F)) :
    notional (l :: levels) = l.1 * l.2 + notional levels := rfl

variable [LinearOrder F] [IsStrictOrderedRing F]

/-- No more than the volume at the highest price. -/
theorem notional_le {levels : List (F × F)} {best : F} (h : ∀ l ∈ levels, l.1 ≤ best)
    (hpos : ∀ l ∈ levels, 0 < l.2) : notional levels ≤ best * volume levels := by
  induction levels with
  | nil => simp
  | cons l levels ih =>
    have hrest := ih (fun l hl => h l (List.mem_cons_of_mem _ hl)) fun l hl =>
      hpos l (List.mem_cons_of_mem _ hl)
    have hl := mul_le_mul_of_nonneg_right (h l List.mem_cons_self) (hpos l List.mem_cons_self).le
    rw [notional_cons, volume_cons, mul_add]
    exact add_le_add hl hrest

/-- No less than the volume at the lowest price. -/
theorem le_notional {levels : List (F × F)} {low : F} (h : ∀ l ∈ levels, low ≤ l.1)
    (hpos : ∀ l ∈ levels, 0 < l.2) : low * volume levels ≤ notional levels := by
  induction levels with
  | nil => simp
  | cons l levels ih =>
    have hrest := ih (fun l hl => h l (List.mem_cons_of_mem _ hl)) fun l hl =>
      hpos l (List.mem_cons_of_mem _ hl)
    have hl := mul_le_mul_of_nonneg_right (h l List.mem_cons_self) (hpos l List.mem_cons_self).le
    rw [notional_cons, volume_cons, mul_add]
    exact add_le_add hl hrest

/-- A larger quantity costs no less. -/
theorem notional_takeBest_mono {levels : List (F × F)} (hpos : ∀ l ∈ levels, 0 < l.2)
    (hprice : ∀ l ∈ levels, 0 ≤ l.1) {qty more : F} (h : qty ≤ more) :
    notional (takeBest levels qty) ≤ notional (takeBest levels more) := by
  induction levels generalizing qty more with
  | nil => exact le_rfl
  | cons l levels ih =>
    obtain ⟨price, size⟩ := l
    have hrest := fun l hl => hpos l (List.mem_cons_of_mem _ hl)
    have hprices := fun l hl => hprice l (List.mem_cons_of_mem _ hl)
    have hprice0 : 0 ≤ price := hprice _ List.mem_cons_self
    rcases le_or_gt qty 0 with h0 | h0
    · rw [takeBest_nonpos _ h0, notional_nil]
      refine List.sum_nonneg fun x hx => ?_
      obtain ⟨e, he, rfl⟩ := List.mem_map.mp hx
      obtain ⟨l, hl, heq⟩ := List.mem_map.mp (price_mem_takeBest he)
      exact mul_nonneg (heq ▸ hprice l hl) (takeBest_pos hpos he).le
    · rw [takeBest_cons price size levels h0, takeBest_cons price size levels (h0.trans_le h), notional_cons,
        notional_cons]
      have hleft : qty - min qty size ≤ more - min more size := by
        rcases le_total more size with hm | hm
        · rw [min_eq_left hm, min_eq_left (h.trans hm), sub_self, sub_self]
        · rw [min_eq_right hm]
          rcases le_total qty size with hq | hq
          · rw [min_eq_left hq, sub_self]
            exact sub_nonneg.mpr hm
          · rw [min_eq_right hq]
            exact sub_le_sub_right h size
      exact add_le_add (mul_le_mul_of_nonneg_left (min_le_min_right size h) hprice0) (ih hrest hprices hleft)

/-- How much is taken of each level, at most what it holds. -/
def Takes (levels : List (F × F)) (parts : List F) : Prop :=
  List.Forall₂ (fun l part => 0 ≤ part ∧ part ≤ l.2) levels parts

def worth (levels : List (F × F)) (parts : List F) : F :=
  (List.zipWith (fun l part => l.1 * part) levels parts).sum

omit [LinearOrder F] [IsStrictOrderedRing F] in
@[simp] theorem worth_cons (l : F × F) (levels : List (F × F)) (part : F) (parts : List F) :
    worth (l :: levels) (part :: parts) = l.1 * part + worth levels parts := rfl

theorem Takes.sum_bounds {levels : List (F × F)} {parts : List F} (h : Takes levels parts) :
    0 ≤ parts.sum ∧ parts.sum ≤ volume levels := by
  induction h with
  | nil => exact ⟨le_rfl, le_rfl⟩
  | cons hpart _ ih =>
    rw [List.sum_cons, volume_cons]
    exact ⟨add_nonneg hpart.1 ih.1, add_le_add hpart.2 ih.2⟩

/-- What a larger quantity costs more, no dearer than the dearest level. -/
theorem notional_takeBest_add_le {levels : List (F × F)} {top x d : F} (hpos : ∀ l ∈ levels, 0 < l.2)
    (htop : ∀ l ∈ levels, l.1 ≤ top) (hx : 0 ≤ x) (hd : 0 ≤ d) (hle : x + d ≤ volume levels) :
    notional (takeBest levels (x + d)) ≤ notional (takeBest levels x) + top * d := by
  induction levels generalizing x d with
  | nil =>
    obtain rfl : d = 0 := le_antisymm (by simpa using (le_add_of_nonneg_left hx).trans hle) hd
    simp
  | cons l levels ih =>
    obtain ⟨price, size⟩ := l
    have hrest := fun l hl => hpos l (List.mem_cons_of_mem _ hl)
    have htops := fun l hl => htop l (List.mem_cons_of_mem _ hl)
    have hprice : price ≤ top := htop _ List.mem_cons_self
    have hsize : 0 < size := hpos _ List.mem_cons_self
    rcases hx.eq_or_lt with rfl | hx0
    · have hle' : d ≤ volume ((price, size) :: levels) := by simpa using hle
      have hprices : ∀ e ∈ takeBest ((price, size) :: levels) d, e.1 ≤ top := by
        intro e he
        obtain ⟨m, hm, heq⟩ := List.mem_map.mp (price_mem_takeBest he)
        exact heq ▸ htop m hm
      have hall := notional_le hprices fun e he => takeBest_pos hpos he
      rw [volume_takeBest hpos hd, min_eq_left hle'] at hall
      rwa [zero_add, takeBest_nonpos _ le_rfl, notional_nil, zero_add]
    · have hmore : min x size ≤ min (x + d) size := min_le_min_right size (le_add_of_nonneg_right hd)
      have hleft : 0 ≤ x - min x size := sub_nonneg.mpr (min_le_left _ _)
      have hshift : x + d - min (x + d) size = x - min x size + (d - (min (x + d) size - min x size)) := by ring
      have hd' : 0 ≤ d - (min (x + d) size - min x size) := by
        rcases le_total x size with hxs | hxs
        · rw [min_eq_left hxs]
          linarith [min_le_left (x + d) size]
        · rw [min_eq_right hxs]
          linarith [min_le_right (x + d) size]
      have hfits : x - min x size + (d - (min (x + d) size - min x size)) ≤ volume levels := by
        rw [← hshift]
        rcases le_total (x + d) size with hxs | hxs
        · rw [min_eq_left hxs, sub_self]
          exact volume_nonneg hrest
        · rw [min_eq_right hxs, sub_le_iff_le_add']
          exact hle
      have hstep := ih hrest htops hleft hd' hfits
      have hfirst := mul_le_mul_of_nonneg_right hprice (sub_nonneg.mpr hmore)
      rw [takeBest_cons price size levels hx0, takeBest_cons price size levels (add_pos_of_pos_of_nonneg hx0 hd),
        notional_cons, notional_cons, hshift]
      linarith

/-- Best first, no other way to take the same quantity is worth more. -/
theorem worth_le_takeBest {levels : List (F × F)} {parts : List F} (hpos : ∀ l ∈ levels, 0 < l.2)
    (hbest : levels.Pairwise fun a b => b.1 ≤ a.1) (h : Takes levels parts) :
    worth levels parts ≤ notional (takeBest levels parts.sum) := by
  induction h with
  | nil => exact le_rfl
  | @cons l part levels parts hpart htakes ih =>
    obtain ⟨price, size⟩ := l
    obtain ⟨hhead, htail⟩ := List.pairwise_cons.mp hbest
    have hrest := fun l hl => hpos l (List.mem_cons_of_mem _ hl)
    have hworth := ih hrest htail
    obtain ⟨hsum, hfits⟩ := Takes.sum_bounds htakes
    rw [worth_cons, List.sum_cons]
    rcases (add_nonneg hpart.1 hsum).eq_or_lt with h0 | h0
    · have hpart0 : part = 0 := le_antisymm (by linarith) hpart.1
      have hsum0 : parts.sum = 0 := by linarith
      rw [hsum0, takeBest_nonpos _ le_rfl] at hworth
      rw [← h0, takeBest_nonpos _ le_rfl, hpart0, mul_zero, zero_add]
      exact hworth
    · have hmin : part ≤ min (part + parts.sum) size := le_min (le_add_of_nonneg_right hsum) hpart.2
      have hsplit : parts.sum =
          part + parts.sum - min (part + parts.sum) size + (min (part + parts.sum) size - part) := by ring
      have hgrow := notional_takeBest_add_le hrest hhead (sub_nonneg.mpr (min_le_left (part + parts.sum) size))
        (sub_nonneg.mpr hmin) (hsplit ▸ hfits)
      rw [← hsplit] at hgrow
      rw [takeBest_cons price size levels h0, notional_cons]
      dsimp only at hgrow ⊢
      linarith

end Notional

end Matching
