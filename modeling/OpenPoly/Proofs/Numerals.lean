import Mathlib.Data.List.TakeWhile
import OpenPoly.Lib.Trim
import OpenPoly.Spec.News

/-! The pattern for a purely numeric time stamp: what it accepts, `float()` reads
as a number. -/

namespace OpenPoly

theorem asciiDigit_digit : ∀ k < 10, (Char.ofNat (0x30 + k)).isDigit := by decide

/-- White space becomes a blank, a digit an ASCII digit, and the rest stays. -/
theorem asciiDigit_cases (c : Char) : isPySpace c ∧ asciiDigit c = ' ' ∨
    isPySpace c = false ∧ ((asciiDigit c).isDigit ∨ asciiDigit c = c) := by
  unfold asciiDigit
  cases hspace : isPySpace c with
  | true => exact .inl ⟨rfl, if_pos rfl⟩
  | false =>
    refine .inr ⟨rfl, ?_⟩
    rw [if_neg Bool.false_ne_true]
    split
    · rename_i z hz
      have hlt := List.find?_some hz
      simp only [Bool.and_eq_true, decide_eq_true_eq] at hlt
      exact .inl (asciiDigit_digit (c.toNat - z) (by omega))
    · exact .inr rfl

theorem asciiDigit_eq_space (c : Char) : asciiDigit c = ' ' ↔ isPySpace c := by
  rcases asciiDigit_cases c with ⟨hspace, heq⟩ | ⟨hspace, heq⟩
  · simp [hspace, heq]
  · rw [hspace]
    refine ⟨fun h => ?_, nofun⟩
    rcases heq with heq | heq
    · rw [h] at heq
      revert heq
      decide
    · rw [h] at heq
      rw [← heq] at hspace
      revert hspace
      decide

/-- A character that is neither a digit nor a blank is its own ASCII form alone. -/
theorem asciiDigit_eq {c d : Char} (hdigit : d.isDigit = false) (hspace : d ≠ ' ') :
    asciiDigit c = d → c = d := by
  intro h
  rcases asciiDigit_cases c with ⟨-, heq⟩ | ⟨-, heq | heq⟩
  · exact (hspace (h.symm.trans heq)).elim
  · rw [h, hdigit] at heq
    cases heq
  · exact heq.symm.trans h

/-- White space goes before the digits are read or after. -/
theorem literalChars_strip (cs : List Char) :
    literalChars (String.ofList cs) = (stripChars isPySpace cs).map asciiDigit := by
  unfold literalChars
  rw [String.toList_ofList]
  refine Trim.trim_map (fun c => ?_) cs
  rw [Bool.eq_iff_iff, beq_iff_eq]
  exact asciiDigit_eq_space c

theorem dropUnderscores_of_none {cs : List Char} (h : ∀ c ∈ cs, c ≠ '_') {prev : Char}
    (hprev : prev ≠ '_') : dropUnderscores prev cs = some cs := by
  induction cs generalizing prev with
  | nil => simp [dropUnderscores, hprev]
  | cons c cs ih =>
    have hc : c ≠ '_' := h c (by simp)
    have hrest := ih (fun d hd => h d (List.mem_cons_of_mem c hd)) hc
    simp [dropUnderscores, hc, hprev, hrest]

/-- The digits before the point and after it. -/
theorem numericRe_cases {cs : List Char} (h : numericRe cs) :
    ∃ whole frac : List Char, (∀ c ∈ whole, isDecimalDigit c) ∧ (∀ c ∈ frac, isDecimalDigit c) ∧
      ¬ (whole = [] ∧ frac = []) ∧
      ((takeSign cs).2 = whole ∧ frac = [] ∨ (takeSign cs).2 = whole ++ '.' :: frac) := by
  unfold numericRe at h
  dsimp only at h
  have hsplit := List.takeWhile_append_dropWhile (p := isDecimalDigit) (l := (takeSign cs).2)
  have hwhole : ∀ c ∈ (takeSign cs).2.takeWhile isDecimalDigit, isDecimalDigit c :=
    fun c hc => List.mem_takeWhile_imp hc
  generalize (takeSign cs).2.takeWhile isDecimalDigit = whole at h hsplit hwhole
  generalize (takeSign cs).2.dropWhile isDecimalDigit = rest at h hsplit
  cases rest with
  | nil =>
    refine ⟨whole, [], hwhole, by simp, by simpa using h, .inl ⟨?_, rfl⟩⟩
    rw [← hsplit, List.append_nil]
  | cons c frac =>
    simp only [Bool.and_eq_true, decide_eq_true_eq, List.all_eq_true] at h
    obtain ⟨⟨rfl, hfrac⟩, hsome⟩ := h
    exact ⟨whole, frac, hwhole, hfrac, by simpa [or_iff_not_imp_left] using hsome, .inr hsplit.symm⟩

theorem takeSign_map (cs : List Char) :
    takeSign (cs.map asciiDigit) = ((takeSign cs).1, (takeSign cs).2.map asciiDigit) := by
  have hminus : asciiDigit '-' = '-' := by decide
  have hplus : asciiDigit '+' = '+' := by decide
  cases cs with
  | nil => rfl
  | cons c cs =>
    by_cases hm : c = '-'
    · subst hm
      simp [takeSign, hminus]
    · by_cases hp : c = '+'
      · subst hp
        simp [takeSign, hplus]
      · have hm' : asciiDigit c ≠ '-' := fun h => hm (asciiDigit_eq (by decide) (by decide) h)
        have hp' : asciiDigit c ≠ '+' := fun h => hp (asciiDigit_eq (by decide) (by decide) h)
        have hsame : ∀ (d : Char) (ds : List Char), d ≠ '-' → d ≠ '+' → takeSign (d :: ds) = (false, d :: ds) := by
          intro d ds hm hp
          unfold takeSign
          split
          · rename_i heq
            exact (hm (List.cons.inj heq).1).elim
          · rename_i heq
            exact (hp (List.cons.inj heq).1).elim
          · rfl
        rw [List.map_cons, hsame _ _ hm' hp', hsame _ _ hm hp, List.map_cons]

/-- A sign, if there is one, and the rest. -/
theorem mem_takeSign {cs : List Char} {c : Char} (h : c ∈ cs) : c = '-' ∨ c = '+' ∨ c ∈ (takeSign cs).2 := by
  unfold takeSign
  split
  · rcases List.mem_cons.mp h with rfl | h
    · exact .inl rfl
    · exact .inr (.inr h)
  · rcases List.mem_cons.mp h with rfl | h
    · exact .inr (.inl rfl)
    · exact .inr (.inr h)
  · exact .inr (.inr h)

theorem decimalValue_numerals {whole frac : List Char} (hwhole : ∀ c ∈ whole, isDecimalDigit c)
    (hfrac : ∀ c ∈ frac, isDecimalDigit c) (hsome : ¬ (whole = [] ∧ frac = [])) {body : List Char}
    (hbody : body = whole ∧ frac = [] ∨ body = whole ++ '.' :: frac) :
    ∃ q, decimalValue (body.map asciiDigit) = some q := by
  have hdigits : ∀ {cs : List Char}, (∀ c ∈ cs, isDecimalDigit c) →
      ∀ c ∈ cs.map asciiDigit, c.isDigit := by
    intro cs h c hc
    obtain ⟨d, hd, rfl⟩ := List.mem_map.mp hc
    exact h d hd
  have hw := hdigits hwhole
  have hf := hdigits hfrac
  unfold decimalValue
  rcases hbody with ⟨rfl, rfl⟩ | rfl
  · have hbody : body ≠ [] := fun h => hsome ⟨h, rfl⟩
    rw [List.takeWhile_eq_self_iff.mpr hw, List.dropWhile_eq_nil_iff.mpr hw]
    simp [hbody, exponentValue]
  · have hpoint : asciiDigit '.' = '.' := by decide
    have htake : ((whole ++ '.' :: frac).map asciiDigit).takeWhile Char.isDigit = whole.map asciiDigit := by
      rw [List.map_append, List.takeWhile_append_of_pos hw, List.map_cons, hpoint,
        List.takeWhile_cons_of_neg (by decide), List.append_nil]
    have hdrop : ((whole ++ '.' :: frac).map asciiDigit).dropWhile Char.isDigit =
        '.' :: frac.map asciiDigit := by
      rw [List.map_append, List.dropWhile_append_of_pos hw, List.map_cons, hpoint,
        List.dropWhile_cons_of_neg (by decide)]
    rw [htake, hdrop]
    simp only [List.takeWhile_eq_self_iff.mpr hf, List.dropWhile_eq_nil_iff.mpr hf, exponentValue]
    simpa using hsome

theorem lowerChar_numeral {c : Char} (h : c.isDigit ∨ c = '.') : lowerChar c = c := by
  rcases h with h | rfl
  · have hle : c.toNat ≤ 57 := by
      simp only [Char.isDigit, Bool.and_eq_true, decide_eq_true_eq, ge_iff_le, UInt32.le_iff_toNat_le] at h
      exact h.2
    have hcapital : ¬ ('A' ≤ c ∧ c ≤ 'Z') := by
      rintro ⟨hA, -⟩
      rw [Char.le_def, UInt32.le_iff_toNat_le] at hA
      have hA : 65 ≤ c.toNat := hA
      omega
    rw [lowerChar, if_neg hcapital, if_neg (by omega)]
  · decide

/-- What the pattern accepts, `float()` reads, and as a number. -/
theorem floatOfString_numericRe {cs : List Char} (h : numericRe (stripChars isPySpace cs)) :
    ∃ q, floatOfString (String.ofList cs) = .ok (toFloat q) := by
  obtain ⟨whole, frac, hwhole, hfrac, hsome, hbody⟩ := numericRe_cases h
  obtain ⟨q, hq⟩ := decimalValue_numerals hwhole hfrac hsome hbody
  have hpoint : asciiDigit '.' = '.' := by decide
  have hnumeral : ∀ c ∈ (takeSign (stripChars isPySpace cs)).2.map asciiDigit, c.isDigit ∨ c = '.' := by
    intro c hc
    obtain ⟨d, hd, rfl⟩ := List.mem_map.mp hc
    have hd : isDecimalDigit d ∨ d = '.' := by
      rcases hbody with ⟨hbody, rfl⟩ | hbody
      · exact .inl (hwhole d (hbody ▸ hd))
      · rw [hbody] at hd
        rcases List.mem_append.mp hd with hd | hd
        · exact .inl (hwhole d hd)
        · rcases List.mem_cons.mp hd with rfl | hd
          · exact .inr rfl
          · exact .inl (hfrac d hd)
    rcases hd with hd | rfl
    · exact .inl hd
    · exact .inr hpoint
  have hplain : ∀ c ∈ (stripChars isPySpace cs).map asciiDigit, c ≠ '_' := by
    intro c hc hunder
    obtain ⟨d, hd, rfl⟩ := List.mem_map.mp hc
    rcases mem_takeSign hd with rfl | rfl | hd
    · revert hunder
      decide
    · revert hunder
      decide
    · rcases hnumeral _ (List.mem_map_of_mem hd) with h | h
      · rw [hunder] at h
        exact absurd h (by decide)
      · rw [hunder] at h
        exact absurd h (by decide)
  -- the three words `float()` knows have an `n` in them
  have hword : ∀ word : String, 'n' ∈ word.toList →
      pyLower (String.ofList ((takeSign (stripChars isPySpace cs)).2.map asciiDigit)) ≠ word := by
    intro word hn heq
    rw [← heq, pyLower, String.toList_ofList, String.toList_ofList] at hn
    obtain ⟨c, hc, hlower⟩ := List.mem_map.mp hn
    rw [lowerChar_numeral (hnumeral c hc)] at hlower
    rcases hnumeral c hc with h | h
    · rw [hlower] at h
      exact absurd h (by decide)
    · rw [hlower] at h
      exact absurd h (by decide)
  unfold floatOfString
  rw [literalChars_strip, dropUnderscores_of_none hplain (by decide)]
  simp only [takeSign_map, hq]
  rw [if_neg (by simp [hword "inf" (by decide), hword "infinity" (by decide)]), if_neg (hword "nan" (by decide))]
  exact ⟨_, rfl⟩

end OpenPoly
