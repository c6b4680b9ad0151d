import OpenPoly.Spec.JsonDump

/-! What `json.dump` writes, the decoder reads back: a value the decoder could have
given, at any layout and in front of any text that does not go on with a number. -/

namespace OpenPoly

theorem hexDigit_hexChar : ∀ n < 16, hexDigit (hexChar n) = some n := by decide

/-- The four digits of a code unit. -/
theorem scanHex_unicode {n : ℕ} (h : n < 0x10000) (tail : List Char) :
    scanHex (hexChar (n / 4096) :: hexChar (n / 256 % 16) :: hexChar (n / 16 % 16) :: hexChar (n % 16) :: tail) =
      some (n, tail) := by
  have h1 := hexDigit_hexChar (n / 4096) (by omega)
  have h2 := hexDigit_hexChar (n / 256 % 16) (by omega)
  have h3 := hexDigit_hexChar (n / 16 % 16) (by omega)
  have h4 := hexDigit_hexChar (n % 16) (by omega)
  have hn : (n / 4096 * 16 + n / 256 % 16) * 256 + (n / 16 % 16 * 16 + n % 16) = n := by omega
  simp [scanHex, hexValue, h1, h2, h3, h4, hn]

def PyChar.high : PyChar → Bool
  | .surrogate n => 0xD800 ≤ n ∧ n ≤ 0xDBFF
  | .char _ => false

def PyChar.low : PyChar → Bool
  | .surrogate n => 0xDC00 ≤ n ∧ n ≤ 0xDFFF
  | .char _ => false

/-- A string as the decoder gives it: the halves of a pair never stand together. -/
def Unpaired : PyStr → Prop
  | [] => True
  | c :: s => (c.high = true ∨ c.low = true ∨ ∃ c', c = .char c') ∧
      ¬ (c.high = true ∧ s.head?.any PyChar.low = true) ∧ Unpaired s

theorem char_code (c : Char) : c.toNat < 0xD800 ∨ 0xDFFF < c.toNat ∧ c.toNat < 0x110000 := c.valid

theorem shortEscape_ne (n : ℕ) : shortEscape n ≠ some 'u' := by
  unfold shortEscape
  split <;> decide

/-- A short escape reads back. -/
theorem simpleEscape_short {n : ℕ} {e : Char} (h : shortEscape n = some e) :
    simpleEscape e = some (Char.ofNat n) := by
  unfold shortEscape at h
  split at h <;> cases h <;> decide

theorem backslash_code : backslash.toNat = 0x5C := by decide

theorem quoteMark_code : quoteMark.toNat = 0x22 := by decide

/-- A code unit that is no low half does not go on a pair. -/
theorem scanLowSurrogate_unicode {n : ℕ} (hn : n < 0x10000) (hlow : ¬ (0xDC00 ≤ n ∧ n ≤ 0xDFFF))
    (tail : List Char) : scanLowSurrogate (unicodeText n ++ tail) = none := by
  have hhex := scanHex_unicode hn tail
  simp [unicodeText, scanLowSurrogate, backslash_code, hhex]
  omega

theorem scanLowSurrogate_low {n : ℕ} (hn : n < 0x10000) (hlow : 0xDC00 ≤ n ∧ n ≤ 0xDFFF) (tail : List Char) :
    scanLowSurrogate (unicodeText n ++ tail) = some (n, tail) := by
  have hhex := scanHex_unicode hn tail
  simp [unicodeText, scanLowSurrogate, backslash_code, hhex, hlow]

/-- The ways a character is written. -/
theorem encodeChar_cases (c : Char) :
    (∃ e, shortEscape c.toNat = some e ∧ encodeChar (.char c) = [backslash, e]) ∨
    (0x20 ≤ c.toNat ∧ c.toNat ≠ 0x22 ∧ c.toNat ≠ 0x5C ∧ encodeChar (.char c) = [c]) ∨
    (c.toNat < 0x10000 ∧ encodeChar (.char c) = unicodeText c.toNat) ∨
    (0x10000 ≤ c.toNat ∧ encodeChar (.char c) =
      unicodeText (0xD800 + (c.toNat - 0x10000) / 0x400) ++ unicodeText (0xDC00 + (c.toNat - 0x10000) % 0x400)) := by
  unfold encodeChar
  dsimp only
  split
  · rename_i e hshort
    exact .inl ⟨e, hshort, rfl⟩
  · rename_i hshort
    have hcode : ∀ n, (shortEscape n).isSome = true → c.toNat ≠ n := by
      intro n hn heq
      rw [heq] at hshort
      rw [hshort] at hn
      cases hn
    refine .inr ?_
    split_ifs with hplain hunit
    · exact .inl ⟨hplain.1, hcode _ rfl, hcode _ rfl, rfl⟩
    · exact .inr (.inl ⟨hunit, rfl⟩)
    · exact .inr (.inr ⟨by omega, rfl⟩)

/-- What a code point is written as does not go on a surrogate pair, unless it is a
low half. -/
theorem scanLowSurrogate_encode {c : PyChar} (h : c.low = false)
    (hvalid : c.high = true ∨ c.low = true ∨ ∃ c', c = .char c') (tail : List Char) :
    scanLowSurrogate (encodeChar c ++ tail) = none := by
  cases c with
  | surrogate n =>
    have hn : 0xD800 ≤ n ∧ n ≤ 0xDBFF := by simpa [PyChar.high, h] using hvalid
    exact scanLowSurrogate_unicode (by omega) (by omega) tail
  | char c =>
    have hc := char_code c
    rcases encodeChar_cases c with ⟨e, hshort, henc⟩ | ⟨-, -, hback, henc⟩ | ⟨hunit, henc⟩ | ⟨hpair, henc⟩
    · have hu : e ≠ 'u' := fun heq => shortEscape_ne c.toNat (heq ▸ hshort)
      rw [henc]
      simp [scanLowSurrogate, hu]
    · rw [henc]
      unfold scanLowSurrogate
      split
      · rename_i heq
        rw [← (List.cons.inj heq).1]
        exact if_neg hback
      · rfl
    · rw [henc]
      exact scanLowSurrogate_unicode hunit (by omega) tail
    · rw [henc, List.append_assoc]
      exact scanLowSurrogate_unicode (by omega) (by omega) _

theorem scanLowSurrogate_quote (tail : List Char) : scanLowSurrogate (quoteMark :: tail) = none := by
  unfold scanLowSurrogate
  split
  · rename_i heq
    rw [← (List.cons.inj heq).1]
    exact if_neg (by decide)
  · rfl

/-- The code unit of an escape. -/
theorem scanEscape_unicode {n : ℕ} (hn : n < 0x10000) (tail : List Char) :
    scanEscape ((unicodeText n ++ tail).drop 1) =
      match (scanLowSurrogate tail).filter fun _ => 0xD800 ≤ n ∧ n ≤ 0xDBFF with
      | some (low, rest) =>
        some (.char (Char.ofNat (0x10000 + (n - 0xD800) * 0x400 + (low - 0xDC00))), rest)
      | none => some (unicodeEscape n, tail) := by
  have hhex := scanHex_unicode hn tail
  simp only [unicodeText, List.cons_append, List.nil_append, List.drop_succ_cons, List.drop_zero, scanEscape, hhex]
  rfl

/-- One code point reads back, if what follows does not go on its pair. -/
theorem scanString_encode {c : PyChar} (hvalid : c.high = true ∨ c.low = true ∨ ∃ c', c = .char c')
    {tail : List Char} (htail : c.high = true → scanLowSurrogate tail = none) (rounds : ℕ) :
    scanString (rounds + 1) (encodeChar c ++ tail) = (scanString rounds tail).map fun r => (c :: r.1, r.2) := by
  have hescape : ∀ {cs rest : List Char} {ch : PyChar}, scanEscape cs = some (ch, rest) →
      scanString (rounds + 1) (backslash :: cs) = (scanString rounds rest).map fun r => (ch :: r.1, r.2) := by
    intro cs rest ch hscan
    simp [scanString, backslash_code, hscan]
  cases c with
  | surrogate n =>
    have hn : 0xD800 ≤ n ∧ n ≤ 0xDFFF := by
      simp [PyChar.high, PyChar.low] at hvalid
      omega
    refine hescape ((scanEscape_unicode (show n < 0x10000 by omega) tail).trans ?_)
    have hnone : ((scanLowSurrogate tail).filter fun _ => 0xD800 ≤ n ∧ n ≤ 0xDBFF) = none := by
      by_cases hhigh : 0xD800 ≤ n ∧ n ≤ 0xDBFF
      · rw [htail (by simpa [PyChar.high] using hhigh)]
        rfl
      · simp [hhigh]
    rw [hnone]
    simp [unicodeEscape, hn]
  | char c =>
    have hc := char_code c
    rcases encodeChar_cases c with ⟨e, hshort, henc⟩ | ⟨hspace, hquote, hback, henc⟩ | ⟨hunit, henc⟩ | ⟨hpair, henc⟩
    · have hu : e ≠ 'u' := fun heq => shortEscape_ne c.toNat (heq ▸ hshort)
      rw [henc]
      refine @hescape (e :: tail) tail (.char c) ?_
      simp [scanEscape, simpleEscape_short hshort]
    · rw [henc]
      simp [scanString, hquote, hback, Nat.not_lt.mpr hspace]
    · rw [henc]
      refine hescape ((scanEscape_unicode hunit tail).trans ?_)
      have hnot : ¬ (0xD800 ≤ c.toNat ∧ c.toNat ≤ 0xDBFF) := by omega
      have hnot' : ¬ (0xD800 ≤ c.toNat ∧ c.toNat ≤ 0xDFFF) := by omega
      simp [hnot, unicodeEscape, hnot']
    · rw [henc, List.append_assoc]
      refine hescape ((scanEscape_unicode (by omega) _).trans ?_)
      rw [scanLowSurrogate_low (by omega) (by omega)]
      have hhigh : 0xD800 ≤ 0xD800 + (c.toNat - 0x10000) / 0x400 ∧
          0xD800 + (c.toNat - 0x10000) / 0x400 ≤ 0xDBFF := by omega
      have hcode : 0x10000 + (0xD800 + (c.toNat - 0x10000) / 0x400 - 0xD800) * 0x400 +
          (0xDC00 + (c.toNat - 0x10000) % 0x400 - 0xDC00) = c.toNat := by omega
      simp only [Option.filter_some, hhigh, and_self, decide_true, if_true, hcode, Char.ofNat_toNat]

/-- A string reads back up to its quote. -/
theorem scanString_flatMap {s : PyStr} (h : Unpaired s) (rest : List Char) {rounds : ℕ}
    (hrounds : s.length < rounds) :
    scanString rounds (s.flatMap encodeChar ++ quoteMark :: rest) = .ok (s, rest) := by
  induction s generalizing rounds with
  | nil =>
    cases rounds with
    | zero => cases hrounds
    | succ rounds => simp [scanString, quoteMark_code]
  | cons c s ih =>
    cases rounds with
    | zero => cases hrounds
    | succ rounds =>
      obtain ⟨hvalid, hpair, hs⟩ := h
      rw [List.flatMap_cons, List.append_assoc, scanString_encode hvalid fun hhigh => ?_]
      · rw [ih hs (by simpa using hrounds)]
        rfl
      · cases s with
        | nil => exact scanLowSurrogate_quote rest
        | cons c' s =>
          have hlow : c'.low = false := by simpa [hhigh] using hpair
          rw [List.flatMap_cons, List.append_assoc]
          exact scanLowSurrogate_encode hlow hs.1 _

theorem encodeChar_length (c : PyChar) : 1 ≤ (encodeChar c).length := by
  cases c with
  | surrogate n => exact Nat.le_add_left _ _
  | char c =>
    rcases encodeChar_cases c with ⟨e, -, henc⟩ | ⟨-, -, -, henc⟩ | ⟨-, henc⟩ | ⟨-, henc⟩ <;>
      simp [henc, unicodeText]

theorem length_flatMap_encode (s : PyStr) : s.length ≤ (s.flatMap encodeChar).length := by
  induction s with
  | nil => rfl
  | cons c s ih =>
    have hc := encodeChar_length c
    rw [List.flatMap_cons, List.length_append, List.length_cons]
    omega

/-- The text of a string reads back, after its opening quote. -/
theorem scanString_text {s : PyStr} (h : Unpaired s) (rest : List Char) :
    let cs := s.flatMap encodeChar ++ quoteMark :: rest
    scanString (cs.length + 1) cs = .ok (s, rest) := by
  have hlen := length_flatMap_encode s
  refine scanString_flatMap h rest ?_
  rw [List.length_append]
  omega

theorem digitsValue_append (ds es : List Char) :
    digitsValue (ds ++ es) = digitsValue ds * 10 ^ es.length + digitsValue es := by
  show Nat.ofDigitChars 10 (ds ++ es) 0 = Nat.ofDigitChars 10 ds 0 * _ + Nat.ofDigitChars 10 es 0
  rw [Nat.ofDigitChars_append, Nat.ofDigitChars_eq_ofDigitChars_zero, Nat.mul_comm]

theorem digitsValue_zeros (n : ℕ) : digitsValue (List.replicate n '0') = 0 := by
  show Nat.ofDigitChars 10 (List.replicate n '0') 0 = 0
  rw [Nat.ofDigitChars_replicate_zero, Nat.mul_zero]

theorem digitsValue_toDigits (n : ℕ) : digitsValue (Nat.toDigits 10 n) = n := Nat.ofDigitChars_ten_toDigits

theorem isDigit_toDigits {n : ℕ} {c : Char} (h : c ∈ Nat.toDigits 10 n) : c.isDigit = true :=
  Nat.isDigit_of_mem_toDigits (by decide) (by decide) h

/-- The digits before a point: a number of more than one does not start with a zero. -/
structure Whole (ds : List Char) : Prop where
  ne : ds ≠ []
  digits : ∀ c ∈ ds, c.isDigit = true
  zero : ds.head? = some '0' → ds = ['0']

theorem isDigit_zero : ∀ c ∈ ['0'], c.isDigit = true := List.forall_mem_singleton.mpr rfl

theorem whole_toDigits (n : ℕ) : Whole (Nat.toDigits 10 n) := by
  refine ⟨Nat.toDigits_ne_nil, fun c => isDigit_toDigits, ?_⟩
  induction n using Nat.strong_induction_on with
  | h n ih =>
    by_cases hn : n < 10
    · rw [Nat.toDigits_of_lt_base hn]
      intro hzero
      rw [Option.some.inj hzero]
    · rw [Nat.toDigits_of_base_le (by decide) (by omega),
        List.head?_append_of_ne_nil _ Nat.toDigits_ne_nil]
      intro hzero
      have hlow := ih (n / 10) (by omega) hzero
      have hvalue := digitsValue_toDigits (n / 10)
      rw [hlow] at hvalue
      have hnull : digitsValue ['0'] = 0 := by decide
      omega

def NumberEnd (rest : List Char) : Prop :=
  ∀ c ∈ rest.head?, c.isDigit = false ∧ c ≠ '.' ∧ c ≠ 'e' ∧ c ≠ 'E'

theorem takeWhile_digits {ds rest : List Char} (hds : ∀ c ∈ ds, c.isDigit = true)
    (hrest : ∀ c ∈ rest.head?, c.isDigit = false) :
    (ds ++ rest).takeWhile Char.isDigit = ds ∧ (ds ++ rest).dropWhile Char.isDigit = rest := by
  have hstop : rest.takeWhile Char.isDigit = [] ∧ rest.dropWhile Char.isDigit = rest := by
    cases rest with
    | nil => exact ⟨rfl, rfl⟩
    | cons c rest =>
      have hc := hrest c rfl
      simp [hc]
  rw [List.takeWhile_append_of_pos hds, List.dropWhile_append_of_pos hds, hstop.1, hstop.2, List.append_nil]
  exact ⟨rfl, rfl⟩

/-- The whole digits are read off as they stand. -/
theorem scanNumber_whole {whole rest : List Char} (h : Whole whole)
    (hrest : ∀ c ∈ rest.head?, c.isDigit = false) :
    (if (whole ++ rest).head? = some '0' then ['0'] else (whole ++ rest).takeWhile Char.isDigit) = whole := by
  rw [List.head?_append_of_ne_nil _ h.ne]
  by_cases hzero : whole.head? = some '0'
  · rw [if_pos hzero, h.zero hzero]
  · rw [if_neg hzero]
    exact (takeWhile_digits h.digits hrest).1

theorem scanFraction_none {tail : List Char} (h : ∀ c ∈ tail.head?, c ≠ '.') : scanFraction tail = ([], tail) := by
  unfold scanFraction
  split
  · exact (h '.' rfl rfl).elim
  · rfl

theorem scanExponent_none {rest : List Char} (h : NumberEnd rest) : scanExponent rest = (none, rest) := by
  cases rest with
  | nil => rfl
  | cons c rest =>
    obtain ⟨-, -, he, hE⟩ := h c rfl
    simp [scanExponent, he, hE]

theorem scanNumber_int (neg : Bool) {whole rest : List Char} (h : Whole whole)
    (hlen : whole.length ≤ maxIntDigits) (hrest : NumberEnd rest) :
    scanNumber neg (whole ++ rest) =
      .ok (.int (if neg then -(digitsValue whole : ℤ) else digitsValue whole), rest) := by
  have hwhole := scanNumber_whole h fun c hc => (hrest c hc).1
  unfold scanNumber
  simp only [hwhole, List.drop_left, scanFraction_none fun c hc => (hrest c hc).2.1, scanExponent_none hrest]
  rw [if_neg (by simpa using h.ne)]
  simp [Nat.not_lt.mpr hlen]

def fractionText (frac : List Char) : List Char := if frac = [] then [] else '.' :: frac

theorem scanFraction_text {frac tail : List Char} (hfrac : ∀ c ∈ frac, c.isDigit = true)
    (htail : ∀ c ∈ tail.head?, c.isDigit = false ∧ c ≠ '.') :
    scanFraction (fractionText frac ++ tail) = (frac, tail) := by
  unfold fractionText
  by_cases hnil : frac = []
  · rw [if_pos hnil, hnil]
    exact scanFraction_none fun c hc => (htail c hc).2
  · rw [if_neg hnil, List.cons_append]
    obtain ⟨htake, hdrop⟩ := takeWhile_digits hfrac fun c hc => (htail c hc).1
    simp [scanFraction, htake, hdrop, hnil]

/-- A number with a fraction or an exponent is a float. -/
theorem scanNumber_float (neg : Bool) {whole frac tail rest : List Char} {exponent : Option ℤ}
    (hwhole : Whole whole) (hfrac : ∀ c ∈ frac, c.isDigit = true)
    (htail : ∀ c ∈ tail.head?, c.isDigit = false ∧ c ≠ '.') (hexp : scanExponent tail = (exponent, rest))
    (hsome : frac ≠ [] ∨ exponent.isSome = true) {q : ℚ}
    (hq : digitsValue (whole ++ frac) * 10 ^ (exponent.getD 0 - (frac.length : ℤ)) = q) :
    scanNumber neg (whole ++ (fractionText frac ++ tail)) =
      .ok (.float (toFloat (if neg then -q else q)), rest) := by
  have hstop : ∀ c ∈ (fractionText frac ++ tail).head?, c.isDigit = false := by
    unfold fractionText
    by_cases hnil : frac = []
    · rw [if_pos hnil]
      exact fun c hc => (htail c hc).1
    · rw [if_neg hnil]
      intro c hc
      obtain rfl := Option.some.inj hc
      decide
  have hdigits := scanNumber_whole hwhole hstop
  have hfraction := scanFraction_text hfrac htail
  unfold scanNumber
  simp only [hdigits, List.drop_left, hfraction, hexp, hq]
  rw [if_neg (by simpa using hwhole.ne), if_neg ?_]
  rintro ⟨hnil, hnone⟩
  rcases hsome with hsome | hsome
  · exact hsome (List.isEmpty_iff.mp hnil)
  · rw [Option.isNone_iff_eq_none.mp hnone] at hsome
    cases hsome

theorem scanExponent_text (e : ℤ) {rest : List Char} (h : NumberEnd rest) :
    scanExponent (exponentText e ++ rest) = (some e, rest) := by
  unfold exponentText
  generalize hds : (if e.natAbs < 10 then '0' :: Nat.toDigits 10 e.natAbs else Nat.toDigits 10 e.natAbs) = ds
  have hdigits : (∀ c ∈ ds, c.isDigit = true) ∧ ds ≠ [] ∧ digitsValue ds = e.natAbs := by
    subst hds
    split_ifs
    · refine ⟨fun c hc => ?_, List.cons_ne_nil _ _, ?_⟩
      · rcases List.mem_cons.mp hc with rfl | hc
        · decide
        · exact isDigit_toDigits hc
      · exact digitsValue_toDigits e.natAbs
    · exact ⟨fun c hc => isDigit_toDigits hc, Nat.toDigits_ne_nil, digitsValue_toDigits e.natAbs⟩
  obtain ⟨hdigits, hne, hvalue⟩ := hdigits
  obtain ⟨htake, hdrop⟩ := takeWhile_digits hdigits fun c hc => (h c hc).1
  have hsign : takeSign ((if e < 0 then '-' else '+') :: (ds ++ rest)) = (decide (e < 0), ds ++ rest) := by
    split_ifs with hneg <;> simp [takeSign, hneg]
  simp only [List.cons_append, scanExponent, hsign, htake, hdrop]
  rw [if_pos (by simpa using hne), hvalue]
  by_cases hneg : e < 0
  · simp [hneg, abs_of_neg hneg]
  · simp [hneg, abs_of_nonneg (not_lt.mp hneg)]

/-- The text of a number that is read as a float. -/
structure FloatText (cs : List Char) (q : ℚ) : Prop where
  scan : ∀ neg rest, NumberEnd rest →
    scanNumber neg (cs ++ rest) = .ok (.float (toFloat (if neg then -q else q)), rest)
  head : ∃ c ∈ cs.head?, c.isDigit = true

theorem Whole.head {ds : List Char} (h : Whole ds) (tail : List Char) :
    ∃ c ∈ (ds ++ tail).head?, c.isDigit = true := by
  obtain ⟨c, ds', rfl⟩ := List.exists_cons_of_ne_nil h.ne
  exact ⟨c, rfl, h.digits c (List.mem_cons_self ..)⟩

/-- Digits with a point in them. -/
theorem floatText_point {digits : List Char} (h : Whole digits) {places : ℕ}
    (hzero : digits = ['0'] → places = 0) :
    FloatText (pointText digits places) (digitsValue digits * 10 ^ (-(places : ℤ))) := by
  have hparts : ∀ whole frac, Whole whole → (∀ c ∈ frac, c.isDigit = true) → frac ≠ [] →
      (digitsValue (whole ++ frac) : ℚ) * 10 ^ (0 - (frac.length : ℤ)) =
        digitsValue digits * 10 ^ (-(places : ℤ)) →
      FloatText (whole ++ '.' :: frac) (digitsValue digits * 10 ^ (-(places : ℤ))) := by
    intro whole frac hwhole hfrac hne hvalue
    refine ⟨fun neg rest hrest => ?_, hwhole.head _⟩
    have htext : whole ++ '.' :: frac ++ rest = whole ++ (fractionText frac ++ rest) := by
      rw [fractionText, if_neg hne, List.append_assoc]
    rw [htext]
    exact scanNumber_float neg hwhole hfrac (fun c hc => ⟨(hrest c hc).1, (hrest c hc).2.1⟩)
      (scanExponent_none hrest) (.inl hne) hvalue
  unfold pointText
  by_cases hplaces : places = 0
  · rw [if_pos hplaces]
    refine hparts digits ['0'] h isDigit_zero (by decide) ?_
    have hnull : digitsValue ['0'] = 0 := by decide
    rw [digitsValue_append, hnull, hplaces]
    norm_num
    ring
  · rw [if_neg hplaces]
    by_cases hlt : places < digits.length
    · rw [if_pos hlt]
      have hlen : (digits.drop (digits.length - places)).length = places := by
        rw [List.length_drop]
        omega
      have hhead : (digits.take (digits.length - places)).head? = digits.head? := by
        rw [List.head?_take, if_neg (by omega)]
      refine hparts _ _ ⟨?_, fun c hc => h.digits c (List.mem_of_mem_take hc), fun hz => ?_⟩
        (fun c hc => h.digits c (List.mem_of_mem_drop hc)) ?_ ?_
      · intro hnil
        rw [hnil] at hhead
        exact h.ne (List.head?_eq_none_iff.mp hhead.symm)
      · exact (hplaces (hzero (h.zero (hhead.symm.trans hz)))).elim
      · intro hnil
        rw [hnil] at hlen
        exact hplaces hlen.symm
      · rw [List.take_append_drop, hlen, zero_sub]
    · rw [if_neg hlt]
      have hlen : (List.replicate (places - digits.length) '0' ++ digits).length = places := by
        rw [List.length_append, List.length_replicate]
        omega
      refine hparts ['0'] _ ⟨by decide, isDigit_zero, fun _ => rfl⟩ (fun c hc => ?_) ?_ ?_
      · rcases List.mem_append.mp hc with hc | hc
        · rw [List.eq_of_mem_replicate hc]
          decide
        · exact h.digits c hc
      · exact fun hnil => h.ne (List.append_eq_nil_iff.mp hnil).2
      · have hnull : digitsValue ['0'] = 0 := by decide
        rw [hlen, zero_sub, digitsValue_append, digitsValue_append, digitsValue_zeros, hnull]
        simp

theorem scientificText_eq {digits ds : List Char} {d : Char} (h : digits.rdropWhile (· = '0') = d :: ds)
    (e : ℤ) : scientificText digits e = [d] ++ (fractionText ds ++ exponentText e) := by
  unfold scientificText
  rw [h]
  cases ds <;> rfl

/-- Digits written with an exponent. -/
theorem floatText_scientific {digits : List Char} (hdigits : ∀ c ∈ digits, c.isDigit = true)
    (hpos : digitsValue digits ≠ 0) (places : ℕ) :
    FloatText (scientificText digits (digits.length - places - 1)) (digitsValue digits * 10 ^ (-(places : ℤ))) := by
  have hsplit : digits.rdropWhile (· = '0') ++ digits.rtakeWhile (· = '0') = digits :=
    List.rdropWhile_append_rtakeWhile
  have hzeros : digits.rtakeWhile (· = '0') =
      List.replicate (digits.rtakeWhile (· = '0')).length '0' :=
    List.eq_replicate_iff.mpr ⟨rfl, fun c hc => by simpa using List.mem_rtakeWhile_imp hc⟩
  generalize (digits.rtakeWhile (· = '0')).length = zeros at hzeros
  rw [hzeros] at hsplit
  cases hsig : digits.rdropWhile (· = '0') with
  | nil =>
    rw [hsig, List.nil_append] at hsplit
    rw [← hsplit, digitsValue_zeros] at hpos
    exact (hpos rfl).elim
  | cons d ds =>
    rw [hsig] at hsplit
    rw [scientificText_eq hsig]
    generalize he : (digits.length - places - 1 : ℤ) = e
    have hsig : ∀ c ∈ d :: ds, c.isDigit = true := by
      intro c hc
      refine hdigits c ?_
      rw [← hsplit]
      exact List.mem_append_left _ hc
    have hwhole : Whole [d] := by
      refine ⟨List.cons_ne_nil _ _, fun c hc => hsig c ?_, fun hz => ?_⟩
      · rw [List.mem_singleton.mp hc]
        exact List.mem_cons_self ..
      · rw [Option.some.inj hz]
    have hvalue : (digitsValue ([d] ++ ds) : ℚ) * 10 ^ (e - (ds.length : ℤ)) =
        digitsValue digits * 10 ^ (-(places : ℤ)) := by
      have hlen : digits.length = ds.length + 1 + zeros := by
        rw [← hsplit, List.length_append, List.length_cons, List.length_replicate]
      have hexp : e - (ds.length : ℤ) = zeros + -(places : ℤ) := by
        rw [← he, hlen]
        push_cast
        ring
      rw [hexp, zpow_add₀ (by norm_num), zpow_natCast, ← hsplit, digitsValue_append (d :: ds),
        digitsValue_zeros, List.length_replicate, List.singleton_append]
      push_cast
      ring
    refine ⟨fun neg rest hrest => ?_, hwhole.head _⟩
    rw [List.append_assoc, List.append_assoc]
    refine scanNumber_float neg hwhole (fun c hc => hsig c (List.mem_cons_of_mem d hc)) (fun c hc => ?_)
      (scanExponent_text e hrest) (.inr rfl) hvalue
    obtain rfl := Option.some.inj hc
    decide

def Decimal (q : ℚ) : Prop := ∃ k, q.den ∣ 10 ^ k

/-- A divisor of a power of ten divides one that is not larger than itself. -/
theorem dvd_ten_pow_log2 {d k : ℕ} (h : d ∣ 10 ^ k) : d ∣ 10 ^ d.log2 := by
  have hd : 0 < d := Nat.pos_of_dvd_of_pos h (by positivity)
  rw [show (10 : ℕ) = 2 * 5 from rfl, mul_pow] at h ⊢
  obtain ⟨a, b, ha, hb, rfl⟩ := exists_dvd_and_dvd_of_dvd_mul h
  obtain ⟨i, -, rfl⟩ := (Nat.dvd_prime_pow Nat.prime_two).mp ha
  obtain ⟨j, -, rfl⟩ := (Nat.dvd_prime_pow Nat.prime_five).mp hb
  have hi : i ≤ (2 ^ i * 5 ^ j).log2 := by
    rw [Nat.le_log2 hd.ne']
    exact Nat.le_mul_of_pos_right _ (by positivity)
  have hj : j ≤ (2 ^ i * 5 ^ j).log2 := by
    rw [Nat.le_log2 hd.ne']
    exact (Nat.pow_le_pow_left (by decide) j).trans (Nat.le_mul_of_pos_left _ (by positivity))
  exact mul_dvd_mul (pow_dvd_pow 2 hi) (pow_dvd_pow 5 hj)

theorem decimalPlaces_dvd {q : ℚ} (h : Decimal q) : q.den ∣ 10 ^ decimalPlaces q := by
  obtain ⟨k, hk⟩ := h
  unfold decimalPlaces
  cases hfind : (List.range (q.den.log2 + 1)).find? fun k => q.den ∣ 10 ^ k with
  | none =>
    have hnot := List.find?_eq_none.mp hfind q.den.log2 (List.mem_range.mpr (Nat.lt_succ_self _))
    exact (hnot (by simpa using dvd_ten_pow_log2 hk)).elim
  | some places => simpa using List.find?_some hfind

/-- The digits of a decimal, with its places. -/
theorem abs_eq_digits {q : ℚ} (h : Decimal q) :
    (((q * 10 ^ decimalPlaces q).num.natAbs : ℕ) : ℚ) * 10 ^ (-(decimalPlaces q : ℤ)) = |q| := by
  obtain ⟨m, hm⟩ := decimalPlaces_dvd h
  generalize decimalPlaces q = places at hm ⊢
  have hint : q * 10 ^ places = ((q.num * m : ℤ) : ℚ) := by
    have hpow : ((10 : ℚ) ^ places) = q.den * m := by exact_mod_cast hm
    rw [hpow, ← mul_assoc, Rat.mul_den_eq_num]
    push_cast
    ring
  have hpow : (0 : ℚ) < 10 ^ places := by positivity
  rw [hint, Rat.num_intCast, Nat.cast_natAbs, Int.cast_abs, ← hint, abs_mul, abs_of_pos hpow, mul_assoc,
    zpow_neg, zpow_natCast, mul_inv_cancel₀ hpow.ne', mul_one]

/-- The text of a finite float is a sign and the text of its magnitude. -/
theorem floatRepr_text {q : ℚ} (h : Decimal q) :
    ∃ cs, floatRepr q = (if q < 0 then ['-'] else []) ++ cs ∧ FloatText cs |q| := by
  have habs := abs_eq_digits h
  unfold floatRepr
  dsimp only
  refine ⟨_, rfl, ?_⟩
  generalize hn : (q * 10 ^ decimalPlaces q).num.natAbs = n at habs ⊢
  have hzero : n = 0 → decimalPlaces q = 0 := by
    rintro rfl
    have hq : q = 0 := abs_eq_zero.mp (by rw [← habs, Nat.cast_zero, zero_mul])
    rw [hq]
    rfl
  rw [← habs]
  split_ifs with hpoint
  · have hfloat := @floatText_point _ (whole_toDigits n) (decimalPlaces q) fun hdigits => ?_
    · rwa [digitsValue_toDigits] at hfloat
    · refine hzero ?_
      rw [← digitsValue_toDigits n, hdigits]
      rfl
  · have hpos : n ≠ 0 := by
      intro hn
      refine hpoint ?_
      rw [hzero hn, hn]
      decide
    have hfloat := @floatText_scientific (Nat.toDigits 10 n) (fun c => isDigit_toDigits)
      (by rwa [digitsValue_toDigits]) (decimalPlaces q)
    rwa [digitsValue_toDigits] at hfloat

/-- The words are read as they stand. -/
theorem scanOnce_word (nested : Option Scan) {w : List Char × PyJson} (h : w ∈ jsonWords) (rest : List Char) :
    scanOnce nested (w.1 ++ rest) = .ok (w.2, rest) := by
  simp only [jsonWords, List.mem_cons, List.not_mem_nil, or_false] at h
  rcases h with rfl | rfl | rfl | rfl | rfl | rfl <;> rfl

theorem scanWord_digit {c : Char} (h : c.isDigit = true) (cs : List Char) : scanWord (c :: cs) = none := by
  have hne : ∀ d : Char, d.isDigit = false → (d == c) = false := by
    intro d hd
    refine beq_false_of_ne ?_
    rintro rfl
    exact Bool.false_ne_true (hd.symm.trans h)
  refine List.findSome?_eq_none_iff.mpr fun w hw => if_neg ?_
  simp only [jsonWords, List.mem_cons, List.not_mem_nil, or_false] at hw
  rcases hw with rfl | rfl | rfl | rfl | rfl | rfl <;>
    simp [List.isPrefixOf, hne]

theorem scanWord_minus {c : Char} (h : c.isDigit = true) (cs : List Char) : scanWord ('-' :: c :: cs) = none := by
  have hne : ('I' == c) = false := by
    refine beq_false_of_ne ?_
    rintro rfl
    revert h
    decide
  refine List.findSome?_eq_none_iff.mpr fun w hw => if_neg ?_
  simp only [jsonWords, List.mem_cons, List.not_mem_nil, or_false] at hw
  rcases hw with rfl | rfl | rfl | rfl | rfl | rfl <;>
    simp [List.isPrefixOf, hne]

theorem scanOnce_digit (nested : Option Scan) {c : Char} (h : c.isDigit = true) (cs : List Char) :
    scanOnce nested (c :: cs) = scanNumber false (c :: cs) := by
  have hne : ∀ d : Char, d.isDigit = false → c ≠ d := by
    rintro d hd rfl
    exact Bool.false_ne_true (hd.symm.trans h)
  have hcode : ∀ d : Char, d.isDigit = false → c.toNat ≠ d.toNat := by
    intro d hd heq
    exact hne d hd (Char.toNat_inj.mp heq)
  have hquote : c.toNat ≠ 0x22 := hcode (Char.ofNat 0x22) (by decide)
  have hbrace : c.toNat ≠ 0x7B := hcode (Char.ofNat 0x7B) (by decide)
  unfold scanOnce
  simp only [scanWord_digit h]
  rw [if_neg hquote, if_neg (hne '[' (by decide)), if_neg hbrace, if_neg (hne '-' (by decide))]

theorem scanOnce_minus (nested : Option Scan) {c : Char} (h : c.isDigit = true) (cs : List Char) :
    scanOnce nested ('-' :: c :: cs) = scanNumber true (c :: cs) := by
  unfold scanOnce
  simp only [scanWord_minus h]
  rfl

/-- A number's text, with its sign. -/
theorem scanOnce_signed (nested : Option Scan) {cs rest : List Char} (h : ∃ c ∈ cs.head?, c.isDigit = true)
    (neg : Bool) :
    scanOnce nested ((if neg then ['-'] else []) ++ cs ++ rest) = scanNumber neg (cs ++ rest) := by
  obtain ⟨c, hc, hdigit⟩ := h
  obtain ⟨cs, rfl⟩ := List.head?_eq_some_iff.mp hc
  cases neg with
  | true => exact scanOnce_minus nested hdigit _
  | false => exact scanOnce_digit nested hdigit _

/-- A value the decoder can give, inside at most `depth` containers. -/
def Fits : ℕ → PyJson → Prop
  | _, .int n => (Nat.toDigits 10 n.natAbs).length ≤ maxIntDigits
  | _, .float (.fin q) => Decimal q ∧ toFloat q = .fin q
  | _, .str s => Unpaired s
  | 0, .arr _ => False
  | 0, .obj _ => False
  | depth + 1, .arr xs => ∀ x ∈ xs, Fits depth x
  | depth + 1, .obj d => (d.map Prod.fst).Nodup ∧ ∀ kv ∈ d, Unpaired kv.1 ∧ Fits depth kv.2
  | _, _ => True

variable {L : JsonLayout}

def PyJson.leaf : PyJson → Bool
  | .arr _ => false
  | .obj _ => false
  | _ => true

theorem intText_sign (n : ℤ) :
    intText n = (if n < 0 then ['-'] else []) ++ Nat.toDigits 10 n.natAbs := by
  unfold intText
  split_ifs <;> rfl

theorem scanOnce_leaf (nested : Option Scan) {depth : ℕ} {x : PyJson} (h : Fits depth x) (hleaf : x.leaf = true)
    (k : ℕ) {rest : List Char} (hrest : NumberEnd rest) :
    scanOnce nested (x.encode L k ++ rest) = .ok (x, rest) := by
  cases x with
  | arr xs => cases hleaf
  | obj d => cases hleaf
  | null => exact @scanOnce_word nested ("null".toList, .null) (by simp [jsonWords]) rest
  | bool b =>
    cases b with
    | true => exact @scanOnce_word nested ("true".toList, .bool true) (by simp [jsonWords]) rest
    | false => exact @scanOnce_word nested ("false".toList, .bool false) (by simp [jsonWords]) rest
  | int n =>
    have hwhole := whole_toDigits n.natAbs
    have hlen : (Nat.toDigits 10 n.natAbs).length ≤ maxIntDigits := by
      unfold Fits at h
      exact h
    show scanOnce nested (intText n ++ rest) = _
    rw [intText_sign]
    have hhead : ∃ c ∈ (Nat.toDigits 10 n.natAbs).head?, c.isDigit = true := by simpa using hwhole.head []
    have hscan := @scanOnce_signed nested _ rest hhead (decide (n < 0))
    simp only [decide_eq_true_eq] at hscan
    rw [hscan, scanNumber_int _ hwhole hlen hrest, digitsValue_toDigits]
    by_cases hneg : n < 0
    · simp [hneg, abs_of_neg hneg]
    · simp [hneg, abs_of_nonneg (not_lt.mp hneg)]
  | float x =>
    cases x with
    | nan => exact @scanOnce_word nested ("NaN".toList, .float .nan) (by simp [jsonWords]) rest
    | inf => exact @scanOnce_word nested ("Infinity".toList, .float .inf) (by simp [jsonWords]) rest
    | negInf => exact @scanOnce_word nested ("-Infinity".toList, .float .negInf) (by simp [jsonWords]) rest
    | fin q =>
      have hq : Decimal q ∧ toFloat q = .fin q := by
        unfold Fits at h
        exact h
      obtain ⟨cs, htext, hcs⟩ := floatRepr_text hq.1
      show scanOnce nested (floatRepr q ++ rest) = _
      rw [htext]
      have hscan := @scanOnce_signed nested _ rest hcs.head (decide (q < 0))
      simp only [decide_eq_true_eq] at hscan
      rw [hscan, hcs.scan _ _ hrest]
      have habs : (if decide (q < 0) = true then -|q| else |q|) = q := by
        by_cases hneg : q < 0
        · simp [hneg, abs_of_neg hneg]
        · simp [hneg, abs_of_nonneg (not_lt.mp hneg)]
      rw [habs, hq.2]
  | str s =>
    have hs : Unpaired s := by
      unfold Fits at h
      exact h
    have hscan := scanString_text hs rest
    show scanOnce nested (quoteMark :: (s.flatMap encodeChar ++ [quoteMark]) ++ rest) = _
    rw [List.cons_append, List.append_assoc, List.singleton_append]
    unfold scanOnce
    dsimp only
    rw [if_pos quoteMark_code, hscan]
    rfl

/-- No white space, no byte order mark, and no bracket that closes an array. -/
def ValueStart (cs : List Char) : Prop :=
  ∃ c ∈ cs.head?, isJsonSpace c = false ∧ c ≠ ']' ∧ c ≠ Char.ofNat 0xFEFF

theorem isDigit_start {c : Char} (h : c.isDigit = true) :
    isJsonSpace c = false ∧ c ≠ ']' ∧ c ≠ Char.ofNat 0xFEFF := by
  have hcode : 0x30 ≤ c.toNat ∧ c.toNat ≤ 0x39 := by
    simpa [Char.isDigit, UInt32.le_iff_toNat_le] using h
  refine ⟨?_, ?_, ?_⟩
  · simp [isJsonSpace]
    omega
  · rintro rfl
    revert h
    decide
  · rintro rfl
    revert h
    decide

theorem valueStart_encode {depth : ℕ} {x : PyJson} (h : Fits depth x) (k : ℕ) : ValueStart (x.encode L k) := by
  have hsigned : ∀ {cs : List Char} (neg : Prop) [Decidable neg], (∃ c ∈ cs.head?, c.isDigit = true) →
      ValueStart ((if neg then ['-'] else []) ++ cs) := by
    intro cs neg _ hcs
    split_ifs
    · exact ⟨'-', rfl, by decide, by decide, by decide⟩
    · obtain ⟨c, hc, hdigit⟩ := hcs
      exact ⟨c, hc, isDigit_start hdigit⟩
  cases x with
  | null => exact ⟨'n', rfl, by decide, by decide, by decide⟩
  | bool b =>
    cases b with
    | true => exact ⟨'t', rfl, by decide, by decide, by decide⟩
    | false => exact ⟨'f', rfl, by decide, by decide, by decide⟩
  | int n =>
    show ValueStart (intText n)
    rw [intText_sign]
    exact hsigned (n < 0) (by simpa using (whole_toDigits n.natAbs).head [])
  | float x =>
    cases x with
    | nan => exact ⟨'N', rfl, by decide, by decide, by decide⟩
    | inf => exact ⟨'I', rfl, by decide, by decide, by decide⟩
    | negInf => exact ⟨'-', rfl, by decide, by decide, by decide⟩
    | fin q =>
      have hq : Decimal q ∧ toFloat q = .fin q := by
        unfold Fits at h
        exact h
      obtain ⟨cs, htext, hcs⟩ := floatRepr_text hq.1
      show ValueStart (floatRepr q)
      rw [htext]
      exact hsigned (q < 0) hcs.head
  | str s => exact ⟨quoteMark, rfl, by decide, by decide, by decide⟩
  | arr xs =>
    refine ⟨Char.ofNat 0x5B, ?_, by decide, by decide, by decide⟩
    show _ ∈ (bracketed L k 0x5B 0x5D _).head?
    unfold bracketed
    split_ifs <;> rfl
  | obj d =>
    refine ⟨Char.ofNat 0x7B, ?_, by decide, by decide, by decide⟩
    show _ ∈ (bracketed L k 0x7B 0x7D _).head?
    unfold bracketed
    split_ifs <;> rfl

theorem skipSpace_append {space cs : List Char} (hspace : ∀ c ∈ space, isJsonSpace c = true)
    (hcs : ∃ c ∈ cs.head?, isJsonSpace c = false) : skipSpace (space ++ cs) = cs := by
  obtain ⟨c, hc, hfalse⟩ := hcs
  obtain ⟨cs, rfl⟩ := List.head?_eq_some_iff.mp hc
  unfold skipSpace
  rw [List.dropWhile_append_of_pos hspace]
  simp [hfalse]

theorem skipSpace_cons {c : Char} (h : isJsonSpace c = false) (cs : List Char) :
    skipSpace (c :: cs) = c :: cs :=
  @skipSpace_append [] (c :: cs) (List.forall_mem_nil _) ⟨c, rfl, h⟩

theorem ValueStart.append {cs : List Char} (h : ValueStart cs) (rest : List Char) :
    ∃ c ∈ (cs ++ rest).head?, isJsonSpace c = false := by
  obtain ⟨c, hc, hspace, -⟩ := h
  obtain ⟨cs, rfl⟩ := List.head?_eq_some_iff.mp hc
  exact ⟨c, rfl, hspace⟩

/-- White space, or a character that ends a number, ends it. -/
theorem numberEnd_space {space cs : List Char} (hspace : ∀ c ∈ space, isJsonSpace c = true)
    (hcs : NumberEnd cs) : NumberEnd (space ++ cs) := by
  cases space with
  | nil => exact hcs
  | cons c space =>
    intro c' hc'
    obtain rfl := Option.some.inj hc'
    have hc := hspace c (List.mem_cons_self ..)
    have hne : ∀ d : Char, isJsonSpace d = false → c ≠ d := by
      rintro d hd rfl
      exact Bool.false_ne_true (hd.symm.trans hc)
    refine ⟨?_, hne '.' (by decide), hne 'e' (by decide), hne 'E' (by decide)⟩
    by_contra hdigit
    have hnot := (isDigit_start (by simpa using hdigit)).1
    exact Bool.false_ne_true (hnot.symm.trans hc)

theorem numberEnd_cons {c : Char} (h : c.isDigit = false ∧ c ≠ '.' ∧ c ≠ 'e' ∧ c ≠ 'E') (cs : List Char) :
    NumberEnd (c :: cs) := by
  intro c' hc'
  obtain rfl := Option.some.inj hc'
  exact h

/-- The scan of the values inside a container reads them back. -/
def Reads (L : JsonLayout) (scan : Scan) (depth : ℕ) : Prop :=
  ∀ (x : PyJson) (k : ℕ) (rest : List Char), Fits depth x → NumberEnd rest →
    scan (x.encode L k ++ rest) = .ok (x, rest)

/-- What follows an item: more of them, or the end of the array. -/
theorem numberEnd_items (L : JsonLayout) (k j : ℕ) (xs : List PyJson) (rest : List Char) :
    NumberEnd (PyJson.encodeItems L k xs ++ (L.newline j ++ ']' :: rest)) := by
  cases xs with
  | nil =>
    show NumberEnd (L.newline j ++ ']' :: rest)
    exact numberEnd_space (L.newline_space j) (numberEnd_cons (by decide) rest)
  | cons x xs => exact numberEnd_cons (by decide) _

theorem scanItems_last {scan : Scan} {x : PyJson} {cs cs' rest : List Char} (hscan : scan cs = .ok (x, cs'))
    (hskip : skipSpace cs' = ']' :: rest) (rounds : ℕ) :
    scanItems scan (rounds + 1) cs = .ok ([x], rest) := by
  simp [scanItems, hscan, hskip, bind, Except.bind, pure, Except.pure]

theorem scanItems_more {scan : Scan} {x : PyJson} {xs : List PyJson} {cs cs' more rest : List Char}
    (hscan : scan cs = .ok (x, cs')) (hskip : skipSpace cs' = ',' :: more) {rounds : ℕ}
    (hmore : scanItems scan rounds (skipSpace more) = .ok (xs, rest)) :
    scanItems scan (rounds + 1) cs = .ok (x :: xs, rest) := by
  simp [scanItems, hscan, hskip, hmore, bind, Except.bind, pure, Except.pure]

theorem scanItems_encode {scan : Scan} {depth : ℕ} (hscan : Reads L scan depth) {x : PyJson}
    {xs : List PyJson} (hx : Fits depth x) (hxs : ∀ y ∈ xs, Fits depth y) (k j : ℕ) (rest : List Char)
    {rounds : ℕ} (hrounds : xs.length < rounds) :
    scanItems scan rounds (x.encode L k ++ (PyJson.encodeItems L k xs ++ (L.newline j ++ ']' :: rest))) =
      .ok (x :: xs, rest) := by
  induction xs generalizing x rounds with
  | nil =>
    cases rounds with
    | zero => cases hrounds
    | succ rounds =>
      refine scanItems_last (hscan x k _ hx (numberEnd_items L k j [] rest)) ?_ rounds
      exact skipSpace_append (L.newline_space j) ⟨']', rfl, by decide⟩
  | cons y ys ih =>
    cases rounds with
    | zero => cases hrounds
    | succ rounds =>
      have hy : Fits depth y := hxs y (List.mem_cons_self ..)
      refine scanItems_more (hscan x k _ hx (numberEnd_items L k j (y :: ys) rest))
        (skipSpace_cons (by decide) _) ?_
      rw [List.append_eq, List.append_assoc, List.append_assoc,
        skipSpace_append (L.newline_space k) ((valueStart_encode hy k).append _)]
      exact ih hy (fun z hz => hxs z (List.mem_cons_of_mem y hz)) (Nat.lt_of_succ_lt_succ hrounds)

theorem length_encodeItems (k : ℕ) (xs : List PyJson) : xs.length ≤ (PyJson.encodeItems L k xs).length := by
  induction xs with
  | nil => rfl
  | cons x xs ih =>
    simp only [PyJson.encodeItems, List.length_cons, List.length_append]
    omega

theorem numberEnd_entries (L : JsonLayout) (k j : ℕ) (d : PyDict) (rest : List Char) :
    NumberEnd (PyJson.encodeEntries L k d ++ (L.newline j ++ Char.ofNat 0x7D :: rest)) := by
  cases d with
  | nil =>
    show NumberEnd (L.newline j ++ Char.ofNat 0x7D :: rest)
    exact numberEnd_space (L.newline_space j) (numberEnd_cons (by decide) rest)
  | cons kv d => exact numberEnd_cons (by decide) _

theorem scanMembers_last {scan : Scan} {key : PyStr} {x : PyJson} {cs cs₁ cs₂ cs₃ rest : List Char}
    (hkey : scanString (cs.length + 1) cs = .ok (key, cs₁)) (hcolon : skipSpace cs₁ = ':' :: cs₂)
    (hscan : scan (skipSpace cs₂) = .ok (x, cs₃)) (hskip : skipSpace cs₃ = Char.ofNat 0x7D :: rest)
    (rounds : ℕ) : scanMembers scan (rounds + 1) (quoteMark :: cs) = .ok ([(key, x)], rest) := by
  have hbrace : (Char.ofNat 0x7D).toNat = 0x7D := by decide
  simp [scanMembers, quoteMark_code, hkey, hcolon, hscan, hskip, bind, Except.bind, pure, Except.pure]

theorem scanMembers_more {scan : Scan} {key : PyStr} {x : PyJson} {d : List (PyStr × PyJson)}
    {cs cs₁ cs₂ cs₃ more rest : List Char}
    (hkey : scanString (cs.length + 1) cs = .ok (key, cs₁)) (hcolon : skipSpace cs₁ = ':' :: cs₂)
    (hscan : scan (skipSpace cs₂) = .ok (x, cs₃)) (hskip : skipSpace cs₃ = ',' :: more) {rounds : ℕ}
    (hmore : scanMembers scan rounds (skipSpace more) = .ok (d, rest)) :
    scanMembers scan (rounds + 1) (quoteMark :: cs) = .ok ((key, x) :: d, rest) := by
  simp [scanMembers, quoteMark_code, hkey, hcolon, hscan, hskip, hmore, bind, Except.bind, pure, Except.pure]

theorem scanMembers_encode {scan : Scan} {depth : ℕ} (hscan : Reads L scan depth) {kv : PyStr × PyJson}
    {d : List (PyStr × PyJson)} (hkv : Unpaired kv.1 ∧ Fits depth kv.2)
    (hd : ∀ kv' ∈ d, Unpaired kv'.1 ∧ Fits depth kv'.2) (k j : ℕ) (rest : List Char)
    {rounds : ℕ} (hrounds : d.length < rounds) :
    scanMembers scan rounds (stringText kv.1 ++ ':' :: (L.gap ++ (kv.2.encode L k ++
        (PyJson.encodeEntries L k d ++ (L.newline j ++ Char.ofNat 0x7D :: rest))))) =
      .ok (kv :: d, rest) := by
  have htext : ∀ (key : PyStr) (cs : List Char),
      stringText key ++ cs = quoteMark :: (key.flatMap encodeChar ++ quoteMark :: cs) := by
    intro key cs
    unfold stringText
    rw [List.cons_append, List.append_assoc, List.singleton_append]
  have hvalue : ∀ (x : PyJson) (cs : List Char), Fits depth x → NumberEnd cs →
      scan (skipSpace (L.gap ++ (x.encode L k ++ cs))) = .ok (x, cs) := by
    intro x cs hx hcs
    rw [skipSpace_append L.gap_space ((valueStart_encode hx k).append cs)]
    exact hscan x k cs hx hcs
  induction d generalizing kv rounds with
  | nil =>
    cases rounds with
    | zero => cases hrounds
    | succ rounds =>
      rw [htext]
      refine scanMembers_last (scanString_text hkv.1 _) (skipSpace_cons (by decide) _)
        (hvalue kv.2 _ hkv.2 (numberEnd_entries L k j [] rest)) ?_ rounds
      exact skipSpace_append (L.newline_space j) ⟨Char.ofNat 0x7D, rfl, by decide⟩
  | cons kv' d ih =>
    cases rounds with
    | zero => cases hrounds
    | succ rounds =>
      have hkv' := hd kv' (List.mem_cons_self ..)
      rw [htext]
      refine scanMembers_more (scanString_text hkv.1 _) (skipSpace_cons (by decide) _)
        (hvalue kv.2 _ hkv.2 (numberEnd_entries L k j (kv' :: d) rest)) (skipSpace_cons (by decide) _) ?_
      have hquote : ∃ c ∈ (stringText kv'.1 ++ ':' :: (L.gap ++ (kv'.2.encode L k ++
          (PyJson.encodeEntries L k d ++ (L.newline j ++ Char.ofNat 0x7D :: rest))))).head?,
          isJsonSpace c = false := ⟨quoteMark, rfl, by decide⟩
      have hnext := ih hkv' (fun kv'' h => hd kv'' (List.mem_cons_of_mem kv' h)) (Nat.lt_of_succ_lt_succ hrounds)
      rw [← skipSpace_append (L.newline_space k) hquote] at hnext
      simpa only [List.append_eq, List.append_assoc, List.cons_append] using hnext

theorem length_encodeEntries (k : ℕ) (d : List (PyStr × PyJson)) :
    d.length ≤ (PyJson.encodeEntries L k d).length := by
  induction d with
  | nil => rfl
  | cons kv d ih =>
    simp only [PyJson.encodeEntries, List.length_cons, List.length_append]
    omega

theorem scanOnce_items {scan : Scan} {cs cs' rest : List Char} {xs : List PyJson} (hskip : skipSpace cs = cs')
    (hstart : ∃ c ∈ cs'.head?, c ≠ ']') (hitems : scanItems scan (cs'.length + 1) cs' = .ok (xs, rest)) :
    scanOnce (some scan) ('[' :: cs) = .ok (.arr xs, rest) := by
  obtain ⟨c, hc, hne⟩ := hstart
  obtain ⟨cs', rfl⟩ := List.head?_eq_some_iff.mp hc
  rw [List.length_cons] at hitems
  simp [scanOnce, hskip, hne, hitems, Except.map]

theorem scanOnce_members {scan : Scan} {cs cs' rest : List Char} {d : List (PyStr × PyJson)}
    (hskip : skipSpace cs = cs') (hstart : ∃ c ∈ cs'.head?, c.toNat ≠ 0x7D)
    (hmembers : scanMembers scan (cs'.length + 1) cs' = .ok (d, rest)) :
    scanOnce (some scan) (Char.ofNat 0x7B :: cs) = .ok (.obj (dictOf d), rest) := by
  obtain ⟨c, hc, hne⟩ := hstart
  obtain ⟨cs', rfl⟩ := List.head?_eq_some_iff.mp hc
  rw [List.length_cons] at hmembers
  simp [scanOnce, hskip, hne, hmembers, Except.map]

theorem scanOnce_arr {scan : Scan} {depth : ℕ} (hscan : Reads L scan depth) {xs : List PyJson}
    (hxs : ∀ x ∈ xs, Fits depth x) (k : ℕ) (rest : List Char) :
    scanOnce (some scan) ((PyJson.arr xs).encode L k ++ rest) = .ok (.arr xs, rest) := by
  cases xs with
  | nil => rfl
  | cons x xs =>
    have hx : Fits depth x := hxs x (List.mem_cons_self ..)
    have hstart := valueStart_encode (L := L) hx (k + 1)
    have hlen := length_encodeItems (L := L) (k + 1) xs
    have htext : (PyJson.arr (x :: xs)).encode L k ++ rest = '[' :: (L.newline (k + 1) ++
        (x.encode L (k + 1) ++ (PyJson.encodeItems L (k + 1) xs ++ (L.newline k ++ ']' :: rest)))) := by
      simp [PyJson.encode, PyJson.encodeItems, bracketed]
    rw [htext]
    refine scanOnce_items (skipSpace_append (L.newline_space (k + 1)) (hstart.append _)) ?_
      (scanItems_encode hscan hx (fun y hy => hxs y (List.mem_cons_of_mem x hy)) (k + 1) k rest ?_)
    · obtain ⟨c, hc, -, hne, -⟩ := hstart
      obtain ⟨cs, hcs⟩ := List.head?_eq_some_iff.mp hc
      rw [hcs]
      exact ⟨c, rfl, hne⟩
    · simp only [List.length_append]
      omega

theorem PyDict.assign_new {d : PyDict} {key : PyStr} (h : key ∉ d.map Prod.fst) (x : PyJson) :
    d.assign key x = d ++ [(key, x)] := by
  unfold PyDict.assign
  refine if_neg fun hany => h ?_
  obtain ⟨kv, hmem, hkey⟩ := List.any_eq_true.mp hany
  rw [← of_decide_eq_true hkey]
  exact List.mem_map_of_mem hmem

/-- Pairs with different keys are the dict's entries. -/
theorem dictOf_nodup {d : List (PyStr × PyJson)} (h : (d.map Prod.fst).Nodup) : dictOf d = d := by
  have hfold : ∀ (d e : List (PyStr × PyJson)), ((e ++ d).map Prod.fst).Nodup →
      d.foldl (fun d kv => PyDict.assign d kv.1 kv.2) e = e ++ d := by
    intro d
    induction d with
    | nil => intro e _; exact (List.append_nil e).symm
    | cons kv d ih =>
      intro e he
      have hnew : kv.1 ∉ e.map Prod.fst := by
        intro hmem
        rw [List.map_append, List.nodup_append] at he
        exact he.2.2 _ hmem _ (List.mem_cons_self ..) rfl
      rw [List.foldl_cons, PyDict.assign_new hnew, ih _ (by simpa using he), List.append_assoc]
      rfl
  exact hfold d [] h

theorem scanOnce_obj {scan : Scan} {depth : ℕ} (hscan : Reads L scan depth) {d : PyDict}
    (hkeys : (d.map Prod.fst).Nodup) (hd : ∀ kv ∈ d, Unpaired kv.1 ∧ Fits depth kv.2) (k : ℕ)
    (rest : List Char) : scanOnce (some scan) ((PyJson.obj d).encode L k ++ rest) = .ok (.obj d, rest) := by
  cases d with
  | nil => rfl
  | cons kv d =>
    have hlen := length_encodeEntries (L := L) (k + 1) d
    have htext : (PyJson.obj (kv :: d)).encode L k ++ rest = Char.ofNat 0x7B :: (L.newline (k + 1) ++
        (stringText kv.1 ++ ':' :: (L.gap ++ (kv.2.encode L (k + 1) ++
          (PyJson.encodeEntries L (k + 1) d ++ (L.newline k ++ Char.ofNat 0x7D :: rest)))))) := by
      simp [PyJson.encode, PyJson.encodeEntries, bracketed]
    rw [htext]
    refine (scanOnce_members (skipSpace_append (L.newline_space (k + 1)) ⟨quoteMark, rfl, by decide⟩)
      ⟨quoteMark, rfl, by decide⟩ (scanMembers_encode hscan (hd kv (List.mem_cons_self ..))
        (fun kv' h => hd kv' (List.mem_cons_of_mem kv h)) (k + 1) k rest ?_)).trans ?_
    · simp only [List.length_append, List.length_cons]
      omega
    · rw [dictOf_nodup hkeys]

/-- What is written inside the depth the decoder allows, it reads. -/
theorem reads_scanValue (L : JsonLayout) (depth : ℕ) : Reads L (scanValue depth) depth := by
  induction depth with
  | zero =>
    intro x k rest hx hrest
    cases x with
    | arr xs =>
      unfold Fits at hx
      exact hx.elim
    | obj d =>
      unfold Fits at hx
      exact hx.elim
    | _ => exact scanOnce_leaf none hx rfl k hrest
  | succ depth ih =>
    intro x k rest hx hrest
    cases x with
    | arr xs =>
      unfold Fits at hx
      exact scanOnce_arr ih hx k rest
    | obj d =>
      unfold Fits at hx
      exact scanOnce_obj ih hx.1 hx.2 k rest
    | _ => exact scanOnce_leaf (some (scanValue depth)) hx rfl k hrest

/-- The decoder reads what `json.dump` wrote, in either layout. -/
theorem jsonDecode_encode (L : JsonLayout) {depth : ℕ} {x : PyJson} (h : Fits depth x) (k : ℕ) :
    jsonDecode depth (String.ofList (x.encode L k)) = .ok x := by
  obtain ⟨c, hc, hspace, -, hmark⟩ := @valueStart_encode L depth x h k
  have hread := reads_scanValue L depth x k [] h (fun c hc => absurd hc (Option.not_mem_none c))
  have hskip : skipSpace (x.encode L k) = x.encode L k :=
    @skipSpace_append [] (x.encode L k) (List.forall_mem_nil _) ⟨c, hc, hspace⟩
  rw [List.append_nil] at hread
  unfold jsonDecode
  rw [String.toList_ofList, hskip, hread, if_neg fun hhead => hmark (Option.some.inj (hc.symm.trans hhead))]
  rfl

/-- One text is the text of one value. -/
theorem encode_injective (L : JsonLayout) {depth : ℕ} {x y : PyJson} (hx : Fits depth x) (hy : Fits depth y)
    {k : ℕ} (h : String.ofList (x.encode L k) = String.ofList (y.encode L k)) : x = y := by
  have hread := jsonDecode_encode L hx k
  rw [h, jsonDecode_encode L hy k] at hread
  exact (Except.ok.inj hread).symm

end OpenPoly
