import OpenPoly.Lib.Except
import OpenPoly.Proofs.JsonDump

/-! What the decoder can give: nested no deeper than it allows, integers of the
digits it converts, floats with a decimal text, no key twice in a dict, and no two
halves of a surrogate pair side by side. -/

namespace OpenPoly

open Results

/-- An escape that gives a surrogate: its digits, and no low half after a high one. -/
theorem scanEscape_surrogate {cs rest : List Char} {n : ℕ} (h : scanEscape cs = some (.surrogate n, rest)) :
    ∃ ds, cs = 'u' :: ds ∧ scanHex ds = some (n, rest) ∧ (0xD800 ≤ n ∧ n ≤ 0xDFFF) ∧
      (n ≤ 0xDBFF → scanLowSurrogate rest = none) := by
  unfold scanEscape at h
  split at h
  · cases h
  · rename_i ds
    simp only [Option.bind_eq_bind, Option.bind_eq_some_iff] at h
    obtain ⟨⟨n', rest'⟩, hhex, h⟩ := h
    dsimp only at h
    cases hlow : (scanLowSurrogate rest').filter fun _ => 0xD800 ≤ n' ∧ n' ≤ 0xDBFF with
    | some r =>
      rw [hlow] at h
      simp at h
    | none =>
      rw [hlow] at h
      simp only [Option.pure_def, Option.some.injEq, Prod.mk.injEq] at h
      obtain ⟨hchar, rfl⟩ := h
      unfold unicodeEscape at hchar
      split_ifs at hchar with hrange
      cases hchar
      refine ⟨ds, rfl, hhex, hrange, fun hhigh => ?_⟩
      cases hscan : scanLowSurrogate rest' with
      | none => rfl
      | some r => simp [hscan, hrange.1, hhigh] at hlow
  · simp at h

/-- The first code point of a string, and where the rest is read from. -/
theorem scanString_cons {rounds : ℕ} {cs rest : List Char} {c : PyChar} {s : PyStr}
    (h : scanString rounds cs = .ok (c :: s, rest)) :
    ∃ rounds' cs', scanString rounds' cs' = .ok (s, rest) ∧
      ((∃ ch, c = .char ch) ∨ ∃ back ds n, cs = back :: 'u' :: ds ∧ back.toNat = 0x5C ∧ c = .surrogate n ∧
        scanHex ds = some (n, cs') ∧ (0xD800 ≤ n ∧ n ≤ 0xDFFF) ∧ (n ≤ 0xDBFF → scanLowSurrogate cs' = none)) := by
  cases rounds with
  | zero => cases h
  | succ rounds =>
    cases cs with
    | nil => cases h
    | cons c' cs =>
      have hmap : ∀ {r : Except PyErr (PyStr × List Char)} {ch : PyChar},
          (r.map fun r => (ch :: r.1, r.2)) = .ok (c :: s, rest) → ch = c ∧ r = .ok (s, rest) := by
        intro r ch hr
        cases r with
        | error e => cases hr
        | ok r =>
          cases hr
          exact ⟨rfl, rfl⟩
      unfold scanString at h
      by_cases hquote : c'.toNat = 0x22
      · rw [if_pos hquote] at h
        cases h
      rw [if_neg hquote] at h
      by_cases hcontrol : c'.toNat < 0x20
      · rw [if_pos hcontrol] at h
        cases h
      rw [if_neg hcontrol] at h
      by_cases hback : c'.toNat = 0x5C
      · rw [if_pos hback] at h
        cases hescape : scanEscape cs with
        | none =>
          rw [hescape] at h
          cases h
        | some r =>
          obtain ⟨ch, cs'⟩ := r
          rw [hescape] at h
          obtain ⟨rfl, hrest⟩ := hmap h
          refine ⟨rounds, cs', hrest, ?_⟩
          cases ch with
          | char ch => exact .inl ⟨ch, rfl⟩
          | surrogate n =>
            obtain ⟨ds, rfl, hhex, hrange, hlow⟩ := scanEscape_surrogate hescape
            exact .inr ⟨c', ds, n, rfl, hback, rfl, hhex, hrange, hlow⟩
      · rw [if_neg hback] at h
        obtain ⟨rfl, hrest⟩ := hmap h
        exact ⟨rounds, cs, hrest, .inl ⟨c', rfl⟩⟩

/-- A string starts with a low half only where its text does. -/
theorem scanString_low {rounds : ℕ} {cs rest : List Char} {c : PyChar} {s : PyStr}
    (h : scanString rounds cs = .ok (c :: s, rest)) (hlow : c.low = true) :
    (scanLowSurrogate cs).isSome = true := by
  obtain ⟨_, cs', -, ⟨ch, rfl⟩ | ⟨back, ds, n, rfl, hback, rfl, hhex, -, -⟩⟩ := scanString_cons h
  · cases hlow
  · have hrange : 0xDC00 ≤ n ∧ n ≤ 0xDFFF := by simpa [PyChar.low] using hlow
    simp [scanLowSurrogate, hback, hhex, hrange]

theorem scanString_unpaired {rounds : ℕ} {cs rest : List Char} {s : PyStr}
    (h : scanString rounds cs = .ok (s, rest)) : Unpaired s := by
  induction s generalizing rounds cs with
  | nil => trivial
  | cons c s ih =>
    obtain ⟨rounds', cs', hrest, hc⟩ := scanString_cons h
    rcases hc with ⟨ch, rfl⟩ | ⟨back, ds, n, -, -, rfl, -, hrange, hpair⟩
    · exact ⟨.inr (.inr ⟨ch, rfl⟩), fun hhigh => Bool.false_ne_true hhigh.1, ih hrest⟩
    · refine ⟨?_, ?_, ih hrest⟩
      · simp only [PyChar.high, PyChar.low, decide_eq_true_eq]
        omega
      · rintro ⟨hhigh, hlow⟩
        have hn : 0xD800 ≤ n ∧ n ≤ 0xDBFF := by simpa [PyChar.high] using hhigh
        cases s with
        | nil => cases hlow
        | cons c s =>
          have hsome := scanString_low hrest hlow
          rw [hpair hn.2] at hsome
          cases hsome

theorem digitsValue_lt {ds : List Char} (h : ∀ c ∈ ds, c.isDigit = true) : digitsValue ds < 10 ^ ds.length := by
  induction ds using List.reverseRecOn with
  | nil => decide
  | append_singleton ds c ih =>
    have hds := ih fun d hd => h d (List.mem_append_left _ hd)
    have hc : digitsValue [c] < 10 := by
      have hdigit := h c (List.mem_append_right _ (List.mem_singleton_self c))
      have hcode : 0x30 ≤ c.toNat ∧ c.toNat ≤ 0x39 := by
        simpa [Char.isDigit, UInt32.le_iff_toNat_le] using hdigit
      show 10 * 0 + (c.toNat - 0x30) < 10
      omega
    rw [digitsValue_append, List.length_append, List.length_singleton, pow_one, pow_succ]
    omega

theorem decimal_of_mul {q : ℚ} {k : ℕ} {m : ℤ} (h : q * 10 ^ k = m) : Decimal q := by
  have hpow : (10 : ℚ) ^ k ≠ 0 := by positivity
  have hq : q = Rat.divInt m (10 ^ k) := by
    rw [Rat.divInt_eq_div, ← h]
    push_cast
    field_simp
  have hdvd := Rat.den_dvd m (10 ^ k)
  rw [← hq] at hdvd
  exact ⟨k, by exact_mod_cast hdvd⟩

/-- Digits with a power of ten are a decimal. -/
theorem decimal_scaled (n : ℕ) (e : ℤ) : Decimal ((n : ℚ) * 10 ^ e) := by
  obtain ⟨k, rfl | rfl⟩ := e.eq_nat_or_neg
  · refine @decimal_of_mul _ 0 (n * 10 ^ k) ?_
    push_cast
    rw [zpow_natCast, pow_zero, mul_one]
  · refine @decimal_of_mul _ k n ?_
    have hpow : (10 : ℚ) ^ k ≠ 0 := by positivity
    rw [zpow_neg, zpow_natCast, mul_assoc, inv_mul_cancel₀ hpow, mul_one]
    rfl

theorem Decimal.neg {q : ℚ} (h : Decimal q) : Decimal (-q) := h

/-- A finite float is the number it was read from. -/
theorem toFloat_fin {q q' : ℚ} (h : toFloat q = .fin q') : q' = q := by
  unfold toFloat at h
  split_ifs at h
  exact (PyFloat.fin.inj h).symm

theorem fits_toFloat {q : ℚ} (h : Decimal q) (depth : ℕ) : Fits depth (.float (toFloat q)) := by
  cases hq : toFloat q with
  | fin q' =>
    obtain rfl := toFloat_fin hq
    unfold Fits
    exact ⟨h, hq⟩
  | _ => simp [Fits]

theorem scanNumber_fits {neg : Bool} {cs rest : List Char} {x : PyJson}
    (h : scanNumber neg cs = .ok (x, rest)) (depth : ℕ) : Fits depth x := by
  unfold scanNumber at h
  dsimp only at h
  have hdigits : ∀ c ∈ (if cs.head? = some '0' then ['0'] else cs.takeWhile Char.isDigit), c.isDigit = true := by
    split_ifs
    · exact isDigit_zero
    · exact fun c hc => List.mem_takeWhile_imp hc
  generalize (if cs.head? = some '0' then ['0'] else cs.takeWhile Char.isDigit) = whole at h hdigits
  by_cases hnil : whole.isEmpty = true
  · rw [if_pos hnil] at h
    cases h
  rw [if_neg hnil] at h
  generalize scanFraction (cs.drop whole.length) = f at h
  generalize scanExponent f.2 = e at h
  by_cases hint : f.1.isEmpty = true ∧ e.1.isNone = true
  · rw [if_pos hint] at h
    by_cases hlong : maxIntDigits < whole.length
    · rw [if_pos hlong] at h
      cases h
    · rw [if_neg hlong] at h
      cases h
      have hvalue : (if neg then -(digitsValue whole : ℤ) else digitsValue whole).natAbs = digitsValue whole := by
        split_ifs <;> simp
      unfold Fits
      rw [hvalue, Nat.length_toDigits_le_iff (by decide) (by decide)]
      exact (digitsValue_lt hdigits).trans_le (Nat.pow_le_pow_right (by decide) (Nat.not_lt.mp hlong))
  · rw [if_neg hint] at h
    cases h
    refine fits_toFloat ?_ depth
    split_ifs
    · exact (decimal_scaled _ _).neg
    · exact decimal_scaled _ _

/-- The scan of the values inside a container gives what fits there. -/
def Gives (scan : Scan) (depth : ℕ) : Prop := ∀ cs x rest, scan cs = .ok (x, rest) → Fits depth x

theorem scanItems_fits {scan : Scan} {depth : ℕ} (hscan : Gives scan depth) {rounds : ℕ} {cs rest : List Char}
    {xs : List PyJson} (h : scanItems scan rounds cs = .ok (xs, rest)) : ∀ x ∈ xs, Fits depth x := by
  induction rounds generalizing cs xs with
  | zero => cases h
  | succ rounds ih =>
    unfold scanItems at h
    obtain ⟨⟨x, cs'⟩, hx, h⟩ := except_bind_ok h
    have hfits : Fits depth x := hscan cs x cs' hx
    dsimp only at h
    split at h
    · cases h
      simpa using hfits
    · obtain ⟨⟨ys, rest'⟩, hys, h⟩ := except_bind_ok h
      cases h
      exact List.forall_mem_cons.mpr ⟨hfits, ih hys⟩
    · cases h

theorem scanMembers_fits {scan : Scan} {depth : ℕ} (hscan : Gives scan depth) {rounds : ℕ}
    {cs rest : List Char} {d : List (PyStr × PyJson)} (h : scanMembers scan rounds cs = .ok (d, rest)) :
    ∀ kv ∈ d, Unpaired kv.1 ∧ Fits depth kv.2 := by
  induction rounds generalizing cs d with
  | zero => cases h
  | succ rounds ih =>
    cases cs with
    | nil => cases h
    | cons c cs =>
      unfold scanMembers at h
      by_cases hquote : c.toNat ≠ 0x22
      · rw [if_pos hquote] at h
        cases h
      rw [if_neg hquote] at h
      obtain ⟨⟨key, cs₁⟩, hkey, h⟩ := except_bind_ok h
      have hunpaired : Unpaired key := scanString_unpaired hkey
      dsimp only at h
      split at h
      · obtain ⟨⟨x, cs₂⟩, hx, h⟩ := except_bind_ok h
        have hkv : Unpaired key ∧ Fits depth x := ⟨hunpaired, hscan _ x cs₂ hx⟩
        dsimp only at h
        split at h
        · obtain ⟨⟨e, rest'⟩, he, h⟩ := except_bind_ok h
          cases h
          exact List.forall_mem_cons.mpr ⟨hkv, ih he⟩
        · split_ifs at h
          cases h
          simpa using hkv
        · cases h
      · cases h

theorem nodup_assign {d : PyDict} (h : (d.map Prod.fst).Nodup) (key : PyStr) (x : PyJson) :
    ((d.assign key x).map Prod.fst).Nodup := by
  by_cases hmem : key ∈ d.map Prod.fst
  · unfold PyDict.assign
    have hany : d.any (fun kv => kv.1 = key) = true := by
      obtain ⟨kv, hkv, rfl⟩ := List.mem_map.mp hmem
      exact List.any_eq_true.mpr ⟨kv, hkv, decide_eq_true rfl⟩
    rw [if_pos hany, List.map_map]
    have hkeys : (Prod.fst ∘ fun kv : PyStr × PyJson => if kv.1 = key then (kv.1, x) else kv) = Prod.fst := by
      funext kv
      simp only [Function.comp_apply]
      split_ifs <;> rfl
    rw [hkeys]
    exact h
  · rw [PyDict.assign_new hmem, List.map_append]
    exact List.nodup_append.mpr ⟨h, List.nodup_singleton _, fun a ha b hb => by
      rw [List.mem_singleton.mp hb]
      rintro rfl
      exact hmem ha⟩

theorem mem_assign {d : PyDict} {key : PyStr} {x : PyJson} {kv : PyStr × PyJson} (h : kv ∈ d.assign key x) :
    kv ∈ d ∨ kv = (key, x) := by
  unfold PyDict.assign at h
  split_ifs at h
  · obtain ⟨kv', hmem, rfl⟩ := List.mem_map.mp h
    by_cases hkey : kv'.1 = key
    · rw [if_pos hkey, hkey]
      exact .inr rfl
    · rw [if_neg hkey]
      exact .inl hmem
  · simpa using h

/-- A dict has each key once, with a value some pair gave it. -/
theorem dictOf_spec (pairs : List (PyStr × PyJson)) :
    ((dictOf pairs).map Prod.fst).Nodup ∧ ∀ kv ∈ dictOf pairs, kv ∈ pairs := by
  unfold dictOf
  induction pairs using List.reverseRecOn with
  | nil => exact ⟨List.nodup_nil, nofun⟩
  | append_singleton pairs kv ih =>
    rw [List.foldl_append, List.foldl_cons, List.foldl_nil]
    refine ⟨nodup_assign ih.1 kv.1 kv.2, fun kv' h => ?_⟩
    rcases mem_assign h with h | rfl
    · exact List.mem_append_left _ (ih.2 kv' h)
    · exact List.mem_append_right _ (List.mem_singleton_self _)

theorem scanWord_leaf {cs rest : List Char} {x : PyJson} (h : scanWord cs = some (x, rest)) (depth : ℕ) :
    Fits depth x := by
  obtain ⟨w, hw, hx⟩ := List.exists_of_findSome?_eq_some h
  split_ifs at hx
  cases hx
  simp only [jsonWords, List.mem_cons, List.not_mem_nil, or_false] at hw
  rcases hw with rfl | rfl | rfl | rfl | rfl | rfl <;> simp [Fits]

theorem scanOnce_fits {nested : Option Scan} {depth : ℕ}
    (hnested : ∀ scan ∈ nested, ∃ d, depth = d + 1 ∧ Gives scan d) : Gives (scanOnce nested) depth := by
  intro cs x rest h
  cases cs with
  | nil => cases h
  | cons c cs =>
    unfold scanOnce at h
    dsimp only at h
    by_cases hquote : c.toNat = 0x22
    · rw [if_pos hquote] at h
      obtain ⟨⟨s, rest'⟩, hs, h⟩ := except_map_ok h
      cases h
      unfold Fits
      exact scanString_unpaired hs
    rw [if_neg hquote] at h
    by_cases hbracket : c = '['
    · rw [if_pos hbracket] at h
      cases nested with
      | none => cases h
      | some scan =>
        obtain ⟨d, rfl, hgives⟩ := hnested scan rfl
        dsimp only at h
        split at h
        · cases h
          simp [Fits]
        · obtain ⟨⟨xs, rest'⟩, hxs, h⟩ := except_map_ok h
          cases h
          unfold Fits
          exact scanItems_fits hgives hxs
    rw [if_neg hbracket] at h
    by_cases hbrace : c.toNat = 0x7B
    · rw [if_pos hbrace] at h
      cases nested with
      | none => cases h
      | some scan =>
        obtain ⟨d, rfl, hgives⟩ := hnested scan rfl
        dsimp only at h
        split_ifs at h
        · cases h
          simp [Fits]
        · obtain ⟨⟨pairs, rest'⟩, hpairs, h⟩ := except_map_ok h
          cases h
          have hdict := dictOf_spec pairs
          unfold Fits
          exact ⟨hdict.1, fun kv hkv => scanMembers_fits hgives hpairs kv (hdict.2 kv hkv)⟩
    rw [if_neg hbrace] at h
    cases hword : scanWord (c :: cs) with
    | some r =>
      rw [hword] at h
      cases h
      exact scanWord_leaf hword depth
    | none =>
      rw [hword] at h
      dsimp only at h
      split_ifs at h
      · exact scanNumber_fits h depth
      · exact scanNumber_fits h depth

theorem scanValue_fits (depth : ℕ) : Gives (scanValue depth) depth := by
  induction depth with
  | zero => exact scanOnce_fits nofun
  | succ depth ih =>
    refine scanOnce_fits fun scan hscan => ?_
    cases hscan
    exact ⟨depth, rfl, ih⟩

/-- What is decoded can be written, and read again. -/
theorem jsonDecode_fits {depth : ℕ} {s : String} {x : PyJson} (h : jsonDecode depth s = .ok x) : Fits depth x := by
  unfold jsonDecode at h
  split_ifs at h
  obtain ⟨⟨x', rest⟩, hx, h⟩ := except_bind_ok h
  dsimp only at h
  split_ifs at h
  cases h
  exact scanValue_fits depth _ _ _ hx

end OpenPoly
