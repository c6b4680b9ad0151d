import OpenPoly.Proofs.EntryV1
import OpenPoly.Proofs.Pipeline

/-! What stands behind every call of the executor, and that no item is lost or bought on
twice. -/

namespace OpenPoly

variable {ι : Type} {setup : PipelineSetup ι} {p q : Pipeline ι} {a : Answers ι} {item : NewsItem}
  {ar : AnalysisResult} {ts : ℚ} {books : Option BookCheck} {intent : OrderIntent} {newsId : PyStr}

def PipelineEffect.isBuy : PipelineEffect ι → Bool
  | .executeBuy .. => true
  | _ => false

/-- The chosen side's book answered within the budget, where freshness is checked. -/
def BookInBudget (setup : PipelineSetup ι) (a : Answers ι) (ar : AnalysisResult)
    (intent : OrderIntent) : Prop :=
  ∀ market, checkedMarket setup a.catalog ar = some market →
    ∃ token ages age, market.tokenFor intent.side = some token ∧ a.ages = .ok ages ∧
      ages token = some age ∧ age ≤ setup.maxBookAge ∧ token ∈ entryTokens setup a.locked market

/-- What an order rests on: recent news, a shortlist, an analysis, an intent, a book in
budget. -/
structure BuyGrounds (setup : PipelineSetup ι) (a : Answers ι) (item : NewsItem)
    (intent : OrderIntent) (newsId : PyStr) : Prop where
  named : newsId = item.id
  recent : ∀ maxAge, a.maxAge = some maxAge → (item.age a.takenAt).atMost maxAge = true
  shortlisted : a.embedded.forwarded.isSome
  analyzed : ∃ ar, a.analyzed.forwarded = some ar ∧ BookInBudget setup a ar intent
  chosen : a.decided.forwarded = some intent

theorem ageOf_bookCheck {market : Market} {tokens : List String} {maxAge age : ℚ}
    {ages : String → Option ℚ} {token : String}
    (h : (bookCheck market tokens maxAge ages).ageOf token = some age) :
    token ∈ tokens ∧ ages token = some age ∧ age ≤ maxAge := by
  unfold BookCheck.ageOf at h
  obtain ⟨⟨t, x⟩, hfind, rfl⟩ := Option.map_eq_some_iff.mp h
  obtain rfl : t = token := by simpa using List.find?_some hfind
  obtain ⟨t', ht', hage⟩ := List.mem_filterMap.mp (List.mem_of_find?_eq_some hfind)
  obtain ⟨x', hx', heq⟩ := Option.map_eq_some_iff.mp hage
  cases heq
  obtain ⟨hx, hle⟩ := Option.filter_eq_some_iff.mp hx'
  exact ⟨ht', hx, by simpa using hle⟩

/-- An intent that stands is the section's, and its side's book is fresh. -/
theorem entryChoice_intent {answer : SectionAnswer OrderIntent}
    (h : (entryChoice books answer).intent = some intent) :
    answer.forwarded = some intent ∧
      ∀ b, books = some b → ∃ token age, b.market.tokenFor intent.side = some token ∧
        b.ageOf token = some age := by
  have hanswered : ∀ bookAge, (answeredChoice bookAge answer).intent = answer.forwarded := by
    intro bookAge
    cases answer <;> rfl
  unfold entryChoice at h
  dsimp only at h
  split at h
  · next chosen b hintent =>
    split at h
    · next age hage =>
      obtain rfl : chosen = intent := Option.some.inj (hintent ▸ h)
      obtain ⟨token, htoken, hage⟩ := Option.bind_eq_some_iff.mp hage
      refine ⟨hanswered _ ▸ hintent, fun b' hb' => ?_⟩
      cases hb'
      exact ⟨token, age, htoken, hage⟩
    · cases h
  · next hnone =>
    refine ⟨hanswered _ ▸ h, fun b hb => ?_⟩
    exact absurd hb (hnone intent b h)

theorem buy_mem_decidedOn (h : PipelineEffect.executeBuy intent newsId ts ∈ a.decidedOn item ar ts books) :
    newsId = item.id ∧ (entryChoice books a.decided).intent = some intent := by
  unfold Answers.decidedOn at h
  dsimp only at h
  split at h
  · next chosen hchosen =>
    rcases List.mem_cons.mp h with heq | h
    · cases heq
      exact ⟨rfl, hchosen⟩
    · simp [Answers.bought] at h
  · simp at h

theorem buy_mem_checked (h : PipelineEffect.executeBuy intent newsId ts ∈ a.checked setup item ar ts books) :
    newsId = item.id ∧ (entryChoice books a.decided).intent = some intent := by
  unfold Answers.checked at h
  split_ifs at h
  · simp at h
  · rcases List.mem_cons.mp h with heq | h
    · cases heq
    · exact buy_mem_decidedOn h

theorem checked_ts {ts' : ℚ} (h : PipelineEffect.executeBuy intent newsId ts ∈ a.checked setup item ar ts' books) :
    ts = ts' := by
  unfold Answers.checked at h
  split_ifs at h
  · simp at h
  · rcases List.mem_cons.mp h with heq | h
    · cases heq
    · unfold Answers.decidedOn at h
      dsimp only at h
      split at h
      · rcases List.mem_cons.mp h with heq | h
        · cases heq
          rfl
        · simp [Answers.bought] at h
      · simp at h

theorem buy_mem_runEntry (h : PipelineEffect.executeBuy intent newsId ts ∈ a.runEntry setup item ar) :
    newsId = item.id ∧ a.decided.forwarded = some intent ∧ BookInBudget setup a ar intent := by
  unfold Answers.runEntry at h
  split at h
  · next market hmarket =>
    rcases List.mem_cons.mp h with heq | h
    · cases heq
    · unfold Answers.refreshed at h
      split at h
      · cases h
      · next ages hages =>
        obtain rfl := checked_ts h
        obtain ⟨hnews, hintent⟩ := buy_mem_checked h
        obtain ⟨hforward, hbooks⟩ := entryChoice_intent hintent
        refine ⟨hnews, hforward, fun market' hmarket' => ?_⟩
        obtain rfl : market = market' := Option.some.inj (hmarket ▸ hmarket')
        obtain ⟨token, age, htoken, hage⟩ := hbooks _ rfl
        obtain ⟨hmem, hage, hle⟩ := ageOf_bookCheck hage
        exact ⟨token, ages, age, htoken, hages, hage, hle, hmem⟩
  · next hmarket =>
    obtain rfl := checked_ts h
    obtain ⟨hnews, hintent⟩ := buy_mem_checked h
    refine ⟨hnews, (entryChoice_intent hintent).1, fun market hmarket' => ?_⟩
    rw [hmarket] at hmarket'
    cases hmarket'

/-- The analyzer's row and its bookkeeping buy nothing. -/
theorem analyzerEffects_no_buy {catalog : Catalog} {answer : SectionAnswer AnalysisResult} {ms : ℕ}
    {effects : List (PipelineEffect ι)} (h : analyzerEffects setup catalog item ts answer ms = .ok effects) :
    ∀ e ∈ effects, e.isBuy = false := by
  have hshadow : ∀ pick, ∀ e ∈ (shadowEffects setup.bookSource catalog item ts pick : List (PipelineEffect ι)),
      e.isBuy = false := by
    intro pick e he
    unfold shadowEffects at he
    split at he
    · next marketId _ confidence _ _ _ =>
      by_cases hblank : marketId = "" ∨ confidence = ""
      · rw [if_pos hblank] at he
        cases he
      · rw [if_neg hblank, List.mem_singleton] at he
        subst he
        rfl
    · cases he
  unfold analyzerEffects at h
  cases hrow : analyzerRow item ts answer ms with
  | error exc =>
    rw [hrow] at h
    cases h
  | ok row =>
    cases hpick : loggedPick answer with
    | error exc =>
      rw [hrow, hpick] at h
      cases h
    | ok pick =>
      rw [hrow, hpick] at h
      cases h
      intro e he
      rcases List.mem_cons.mp he with rfl | he
      · rfl
      rcases List.mem_append.mp he with he | he
      · obtain ⟨usage, -, rfl⟩ := by simpa using he
        rfl
      · split at he
        · split_ifs at he
          · exact hshadow pick e he
          · cases he
        · cases he

theorem buy_grounds (h : PipelineEffect.executeBuy intent newsId ts ∈ a.process setup item) :
    BuyGrounds setup a item intent newsId := by
  unfold Answers.process at h
  split at h
  · simp at h
  · next hstale =>
    rcases List.mem_cons.mp h with heq | h
    · cases heq
    unfold Answers.afterEmbedding at h
    split at h
    · cases h
    rcases List.mem_cons.mp h with heq | h
    · cases heq
    split at h
    · next shortlist hshortlist =>
      rcases List.mem_cons.mp h with heq | h
      · cases heq
      unfold Answers.afterAnalyzer at h
      split at h
      · cases h
      · next effects heffects =>
        rcases List.mem_append.mp h with h | h
        · cases analyzerEffects_no_buy heffects _ h
        · split at h
          · next ar har =>
            obtain ⟨hnews, hchosen, hbook⟩ := buy_mem_runEntry h
            refine ⟨hnews, ?_, by rw [hshortlist]; rfl, ⟨ar, har, hbook⟩, hchosen⟩
            intro maxAge hmax
            by_contra hold
            rw [hmax, staleNewsRow, Option.bind_some, if_neg hold] at hstale
            cases hstale
          · cases h
    · cases h

theorem countP_decidedOn : (a.decidedOn item ar ts books).countP PipelineEffect.isBuy ≤ 1 := by
  unfold Answers.decidedOn
  dsimp only
  split
  · rw [List.countP_cons_of_pos rfl, Answers.bought, List.countP_cons_of_neg (by simp [PipelineEffect.isBuy])]
    simp
  · simp [PipelineEffect.isBuy]

theorem countP_checked : (a.checked setup item ar ts books).countP PipelineEffect.isBuy ≤ 1 := by
  unfold Answers.checked
  split_ifs
  · simp [PipelineEffect.isBuy]
  · rw [List.countP_cons_of_neg (by simp [PipelineEffect.isBuy])]
    exact countP_decidedOn

theorem countP_runEntry : (a.runEntry setup item ar).countP PipelineEffect.isBuy ≤ 1 := by
  unfold Answers.runEntry
  split
  · dsimp only
    rw [List.countP_cons_of_neg (by simp [PipelineEffect.isBuy])]
    unfold Answers.refreshed
    split
    · simp
    · exact countP_checked
  · exact countP_checked

theorem countP_process : (a.process setup item).countP PipelineEffect.isBuy ≤ 1 := by
  unfold Answers.process
  split
  · simp [PipelineEffect.isBuy]
  · rw [List.countP_cons_of_neg (by simp [PipelineEffect.isBuy])]
    unfold Answers.afterEmbedding
    split
    · simp
    · rw [List.countP_cons_of_neg (by simp [PipelineEffect.isBuy])]
      split
      · rw [List.countP_cons_of_neg (by simp [PipelineEffect.isBuy])]
        unfold Answers.afterAnalyzer
        split
        · simp
        · next effects heffects =>
          have hnone : effects.countP PipelineEffect.isBuy = 0 :=
            List.countP_eq_zero.mpr fun e he => by simp [analyzerEffects_no_buy heffects e he]
          rw [List.countP_append, hnone, Nat.zero_add]
          split
          · exact countP_runEntry
          · simp
      · simp

variable {sections : PipelineSection → ι} {newsMaxAge : Option ℚ} {maxlen : ℕ}
  {es : List (PipelineEvent ι)} {n : ℕ}

theorem mem_effectsOf {e : PipelineEffect ι} : e ∈ p.effectsOf n ↔ (some n, e) ∈ p.trace := by
  unfold Pipeline.effectsOf
  rw [List.mem_filterMap]
  constructor
  · rintro ⟨⟨tag, e'⟩, hmem, heq⟩
    split_ifs at heq with htag
    cases heq
    rw [← htag]
    exact hmem
  · intro h
    exact ⟨_, h, if_pos rfl⟩

/-- Every order is for an item that was accepted and still recent when taken, on a section's
intent for a side whose book was in budget; and it is the item's only one. -/
theorem pipeline_buys (h : PipelineRuns setup sections newsMaxAge maxlen es p) {tag : Option ℕ}
    (hbuy : (tag, .executeBuy intent newsId ts) ∈ p.trace) :
    ∃ n a item, tag = some n ∧ p.answers[n]? = some a ∧ p.accepted[n]? = some item ∧
      BuyGrounds setup a item intent newsId ∧ (p.effectsOf n).countP PipelineEffect.isBuy = 1 := by
  cases tag with
  | none =>
    obtain ⟨_, _, _, heq⟩ := h.untagged _ hbuy
    cases heq
  | some n =>
    have hn : n < p.answers.length := h.serial.within n (List.mem_filterMap.mpr ⟨_, hbuy, rfl⟩)
    have ha : p.answers[n]? = some (p.answers[n]) := List.getElem?_eq_getElem hn
    have hitem := List.getElem?_eq_getElem (Nat.lt_of_lt_of_le hn h.serial.taken)
    have hbegun := h.serial.begun ha hitem
    have hmem := mem_effectsOf.mpr hbuy
    refine ⟨n, _, _, rfl, ha, hitem, buy_grounds (hbegun.subset hmem), Nat.le_antisymm ?_ ?_⟩
    · exact (hbegun.sublist.countP_le).trans countP_process
    · exact List.countP_pos_iff.mpr ⟨_, hmem, rfl⟩

/-- Nothing breaks an item off: no shutdown, and no exception outside a section's `run`. -/
def PipelineEvent.orderly : PipelineEvent ι → Prop
  | .stop => False
  | .embedded answer _ _ => (catalogSizeOf answer.signals).isOk = true
  | .analyzed answer _ _ _ _ => (loggedPick answer).isOk = true ∧
      ∀ usage, answer.usage = some usage → (costOrNone (Dict.get usage "cost_usd")).isOk = true
  | .refreshed ages _ => ages.isOk = true
  | _ => True

theorem embeddingRow_ok {answer : SectionAnswer Shortlist} {ms : ℕ} {exc : PyErr}
    (h : (catalogSizeOf answer.signals).isOk = true) : embeddingRow item ts answer ms ≠ .error exc := by
  unfold embeddingRow
  cases hsize : catalogSizeOf answer.signals with
  | error exc' =>
    rw [hsize] at h
    cases h
  | ok size => exact nofun

theorem analyzerEffects_ok {catalog : Catalog} {answer : SectionAnswer AnalysisResult} {ms : ℕ}
    {exc : PyErr} (hpick : (loggedPick answer).isOk = true)
    (hcost : ∀ usage, answer.usage = some usage → (costOrNone (Dict.get usage "cost_usd")).isOk = true) :
    analyzerEffects setup catalog item ts answer ms ≠ .error exc := by
  unfold analyzerEffects analyzerRow
  cases hp : loggedPick answer with
  | error exc' =>
    rw [hp] at hpick
    cases hpick
  | ok pick =>
    cases hu : answer.usage with
    | none => exact nofun
    | some usage =>
      cases hc : costOrNone (Dict.get usage "cost_usd") with
      | error exc' =>
        have := hcost usage hu
        rw [hc] at this
        cases this
      | ok cost =>
        simp only [AnalyzerCall.withUsage, hc]
        exact nofun

theorem advance_cut {f : Flight} {effects : List (PipelineEffect ι)} {next : Option Stage} :
    (p.advance f effects next).cut = p.cut := (advance_eq p f effects next).2.2.2.2.1

theorem consult_cut {f : Flight} {before : List (PipelineEffect ι)} {ms : ℕ} :
    (p.consult setup f before ar ts books ms).cut = p.cut := by
  unfold Pipeline.consult
  dsimp only
  split_ifs
  · exact advance_cut
  · exact advance_cut

theorem answer_cut {f : Flight} {stage : Stage} {e : PipelineEvent ι} (he : e.orderly)
    (hstep : p.answer setup f stage e = some q) : q.cut = p.cut := by
  unfold Pipeline.answer at hstep
  split at hstep <;> cases hstep
  · unfold Pipeline.embedded
    dsimp only
    split
    · next herror => exact absurd herror (embeddingRow_ok he)
    · split
      · exact advance_cut
      · exact advance_cut
  · unfold Pipeline.analyzed
    dsimp only
    split
    · next herror => exact absurd herror (analyzerEffects_ok he.1 he.2)
    · split
      · exact advance_cut
      · split
        · exact advance_cut
        · exact consult_cut
  · unfold Pipeline.refreshed
    dsimp only
    split
    · cases he
    · exact consult_cut
  · unfold Pipeline.decided
    dsimp only
    split
    · exact advance_cut
    · exact advance_cut
  · exact advance_cut

theorem step_cut {e : PipelineEvent ι} (he : e.orderly) (hstep : p.step setup e = some q) :
    q.cut = p.cut := by
  have hanswer : (p.flight.bind fun f => p.answer setup f f.stage e) = some q → q.cut = p.cut := by
    intro hq
    obtain ⟨f, -, hq⟩ := Option.bind_eq_some_iff.mp hq
    exact answer_cut he hq
  cases e with
  | enqueue item now =>
    cases hstep
    unfold Pipeline.enqueue
    split_ifs
    · rw [emit_eq]
    · rfl
  | take now embeddingTs =>
    simp only [Pipeline.step] at hstep
    split at hstep
    · cases hstep
      unfold Pipeline.take
      dsimp only
      split
      · exact advance_cut
      · exact advance_cut
    · cases hstep
  | replaceSection s inst =>
    cases hstep
    rfl
  | setNewsMaxAge seconds =>
    cases hstep
    rfl
  | start =>
    cases hstep
    rfl
  | stop => exact he.elim
  | embedded => exact hanswer hstep
  | analyzed => exact hanswer hstep
  | refreshed => exact hanswer hstep
  | decided => exact hanswer hstep
  | bought => exact hanswer hstep

/-- While nothing breaks an item off, every item accepted has all the effects of its
`_process`, or is in flight, or still waits its turn. -/
theorem pipeline_lossless (h : PipelineRuns setup sections newsMaxAge maxlen es p)
    (horderly : ∀ e ∈ es, e.orderly) (n : ℕ) (hitem : p.accepted[n]? = some item) :
    (∃ a, p.answers[n]? = some a ∧ p.effectsOf n = a.process setup item) ∨
      (∃ f, p.flight = some f ∧ f.index = n) ∨
      (p.answers.length ≤ n ∧ p.queue[n - p.answers.length]? = some item) := by
  have hserial := h.serial
  have hcut : p.cut = [] := by
    have hguarded := Transition.Run.guard (G := fun _ e => e.orderly) h fun e he _ => horderly e he
    have hkept : ∀ s e t, s.cut = [] → e.orderly ∧ Pipeline.step setup s e = some t → t.cut = [] := by
      intro s e t hs hstep
      exact (step_cut hstep.1 hstep.2).trans hs
    have hinv := Transition.Run.invariant hkept hguarded
    exact hinv rfl
  rcases Nat.lt_or_ge n p.answers.length with hn | hn
  · by_cases hfly : ∃ f, p.flight = some f ∧ f.index = n
    · exact .inr (.inl hfly)
    · have ha : p.answers[n]? = some p.answers[n] := List.getElem?_eq_getElem hn
      have hsettled := hserial.settled n _ item ha hitem fun f hf heq => hfly ⟨f, hf, heq⟩
      exact .inl ⟨_, ha, hsettled.2 (by simp [hcut])⟩
  · refine .inr (.inr ⟨hn, ?_⟩)
    rw [← hserial.waiting, List.getElem?_drop, Nat.add_sub_cancel' hn]
    exact hitem

theorem advance_sections {f : Flight} {effects : List (PipelineEffect ι)} {next : Option Stage} :
    (p.advance f effects next).sections = p.sections := by
  rw [Pipeline.advance, emit_eq]

theorem consult_sections {f : Flight} {before : List (PipelineEffect ι)} {ms : ℕ} :
    (p.consult setup f before ar ts books ms).sections = p.sections := by
  unfold Pipeline.consult
  dsimp only
  split_ifs
  · exact advance_sections
  · exact advance_sections

theorem answer_sections {f : Flight} {stage : Stage} {e : PipelineEvent ι}
    (hstep : p.answer setup f stage e = some q) : q.sections = p.sections := by
  unfold Pipeline.answer at hstep
  split at hstep <;> cases hstep
  · unfold Pipeline.embedded
    dsimp only
    split
    · rfl
    · split
      · exact advance_sections
      · exact advance_sections
  · unfold Pipeline.analyzed
    dsimp only
    split
    · rfl
    · split
      · exact advance_sections
      · split
        · exact advance_sections
        · exact consult_sections
  · unfold Pipeline.refreshed
    dsimp only
    split
    · rfl
    · exact consult_sections
  · unfold Pipeline.decided
    dsimp only
    split
    · exact advance_sections
    · exact advance_sections
  · exact advance_sections

/-- Only a swap of its kind changes the instance installed. -/
theorem step_sections {e : PipelineEvent ι} {s : PipelineSection}
    (he : ∀ inst, e ≠ .replaceSection s inst) (hstep : p.step setup e = some q) :
    q.sections s = p.sections s := by
  have hanswer : (p.flight.bind fun f => p.answer setup f f.stage e) = some q →
      q.sections s = p.sections s := by
    intro hq
    obtain ⟨f, -, hq⟩ := Option.bind_eq_some_iff.mp hq
    rw [answer_sections hq]
  cases e with
  | enqueue item now =>
    cases hstep
    unfold Pipeline.enqueue
    split_ifs
    · rw [emit_eq]
    · rfl
  | take now embeddingTs =>
    simp only [Pipeline.step] at hstep
    split at hstep
    · cases hstep
      unfold Pipeline.take
      dsimp only
      split
      · rw [advance_sections]
      · rw [advance_sections]
    · cases hstep
  | replaceSection s' inst =>
    cases hstep
    have hne : s ≠ s' := by
      rintro rfl
      exact he inst rfl
    exact Function.update_of_ne hne _ _
  | setNewsMaxAge seconds =>
    cases hstep
    rfl
  | start =>
    cases hstep
    rfl
  | stop =>
    simp only [Pipeline.step] at hstep
    split at hstep <;> cases hstep
    · rfl
    · rfl
  | embedded => exact hanswer hstep
  | analyzed => exact hanswer hstep
  | refreshed => exact hanswer hstep
  | decided => exact hanswer hstep
  | bought => exact hanswer hstep

/-- The section an effect calls, and the instance it calls it on. -/
def PipelineEffect.call? : PipelineEffect ι → Option (PipelineSection × ι)
  | .run s inst => some (s, inst)
  | .decide inst _ _ => some (.entry, inst)
  | _ => none

theorem call_of_on {e : PipelineEffect ι} {sections : PipelineSection → ι} {s : PipelineSection} {inst : ι}
    (hon : e.on sections) (hcall : e.call? = some (s, inst)) : inst = sections s := by
  cases e with
  | run s' inst' =>
    cases hcall
    exact hon
  | decide inst' ar fresh =>
    cases hcall
    exact hon
  | _ => cases hcall

/-- The instance is installed, and every call of the section since `p` was on it. -/
def SwappedSince (p : Pipeline ι) (s : PipelineSection) (inst : ι) (q : Pipeline ι) : Prop :=
  q.sections s = inst ∧ ∃ later, q.trace = p.trace ++ later ∧
    ∀ entry ∈ later, ∀ inst', entry.2.call? = some (s, inst') → inst' = inst

/-- From a swap until the next of its kind, whatever else happens and whatever item was in
flight, every call of the section is on the instance swapped in. -/
theorem pipeline_swap {s : PipelineSection} {inst : ι} {es : List (PipelineEvent ι)} {t : Pipeline ι}
    (hswap : p.step setup (.replaceSection s inst) = some t)
    (hrun : Transition.Run (fun p e q => p.step setup e = some q) t es q)
    (hno : ∀ e ∈ es, ∀ inst', e ≠ .replaceSection s inst') :
    ∃ later, q.trace = p.trace ++ later ∧
      ∀ entry ∈ later, ∀ inst', entry.2.call? = some (s, inst') → inst' = inst := by
  have hguarded := Transition.Run.guard
    (G := fun _ e => ∀ inst', e ≠ PipelineEvent.replaceSection s inst') hrun fun e he _ => hno e he
  have hkept : ∀ u e v, SwappedSince p s inst u →
      (∀ inst', e ≠ PipelineEvent.replaceSection s inst') ∧ Pipeline.step setup u e = some v →
      SwappedSince p s inst v := by
    rintro u e v ⟨hinst, later, htrace, hlater⟩ ⟨he, hstep⟩
    obtain ⟨tag, effects, hemits⟩ := step_emits hstep
    refine ⟨(step_sections he hstep).trans hinst, later ++ effects.map (tag, ·), ?_, ?_⟩
    · rw [hemits.trace, htrace, List.append_assoc]
    · intro entry hentry inst' hcall
      rcases List.mem_append.mp hentry with hentry | hentry
      · exact hlater entry hentry inst' hcall
      · obtain ⟨e', he', rfl⟩ := List.mem_map.mp hentry
        exact (call_of_on (hemits.installed e' he') hcall).trans hinst
  have hstart : SwappedSince p s inst t := by
    cases hswap
    exact ⟨Function.update_self _ _ _, [], (List.append_nil _).symm, by simp⟩
  exact (Transition.Run.invariant hkept hguarded hstart).2

theorem ageOf_of_mem {b : BookCheck} {token : String} (h : token ∈ b.fresh.map Prod.fst) :
    ∃ age, b.ageOf token = some age ∧ (token, age) ∈ b.fresh := by
  obtain ⟨entry, hentry, rfl⟩ := List.mem_map.mp h
  unfold BookCheck.ageOf
  cases hfind : b.fresh.find? fun e => e.1 = entry.1 with
  | none => simpa using List.find?_eq_none.mp hfind entry hentry
  | some found =>
    have hname : found.1 = entry.1 := by simpa using List.find?_some hfind
    exact ⟨found.2, rfl, hname ▸ List.mem_of_find?_eq_some hfind⟩

/-- Entry v1, told which books are fresh, never loses its decision to the check that follows:
the intent stands, on the age of the chosen side's own book. -/
theorem v1_decision_stands {config : EdgeThresholdConfigV1} {ctx : EntryContext} {b : BookCheck}
    {signals : Dict} (hmarket : ctx.catalog.markets ar.marketId = some b.market)
    (hrun : runV1 config ctx (some (b.fresh.map Prod.fst)) ar = .ok intent) :
    (entryChoice (some b) (.returned { payload := some intent, signals := signals })).intent = some intent ∧
      ∃ token age, b.market.tokenFor intent.side = some token ∧ (token, age) ∈ b.fresh ∧
        (entryChoice (some b) (.returned { payload := some intent, signals := signals })).bookAge = some age := by
  obtain ⟨market, quote, hm, hbest, -⟩ := (runV1_wellChosen hrun).choice
  obtain rfl : b.market = market := Option.some.inj (hmarket ▸ hm)
  obtain ⟨age, hage, hmem⟩ := ageOf_of_mem hbest.priced.fresh
  have hbind : (b.market.tokenFor intent.side).bind b.ageOf = some age := by
    rw [hbest.priced.token]
    exact hage
  have hchoice : entryChoice (some b) (.returned { payload := some intent, signals := signals }) =
      ⟨.ok, none, none, some intent, some age⟩ := by
    unfold entryChoice
    simp only [answeredChoice, if_true]
    rw [hbind]
    rfl
  rw [hchoice]
  exact ⟨rfl, quote.tokenId, age, hbest.priced.token, hmem, rfl⟩

/-- Both books of the market quoted on both sides, one a second old and one two. -/
def quotedBooks : BookCheck := ⟨quotedMarket, [("t1", 1), ("t2", 2)], some 2⟩

theorem v1_decision_stands_sample :
    (runV1 defaultThresholds quotedContext (some ["t1", "t2"]) evenAnalysis).isOk = true ∧
      ∀ intent, runV1 defaultThresholds quotedContext (some ["t1", "t2"]) evenAnalysis = .ok intent →
        (entryChoice (some quotedBooks) (.returned { payload := some intent })).intent = some intent :=
  ⟨by decide +kernel, fun _ h => (v1_decision_stands (b := quotedBooks) rfl h).1⟩

/-- One item, bought on the YES side of a market with a fresh book. -/
def boughtItem : NewsItem where
  id := []
  content := []
  urgency := []
  sentiment := .null
  publishedAt := .fin 0
  receivedAt := 0

def boughtMarket : Market where
  marketId := "m"
  conditionId := "c"
  yesTokenId := "y"
  noTokenId := none

def boughtAnalysis : AnalysisResult where
  marketId := "m"
  pModel := 1 / 2
  confidence := .high

def boughtSetup : PipelineSetup Bool where
  sideLock := id
  acceptsFreshBooks _ := true
  bookSource := true

def boughtEvents : List (PipelineEvent Bool) :=
  [.start, .enqueue boughtItem 0, .take 1 1,
    .embedded (.returned { payload := some ⟨[("m", 1)], by simp⟩ }) 0 2,
    .enqueue boughtItem 2, .replaceSection .entry true,
    .analyzed (.returned { payload := some boughtAnalysis }) 0
      ⟨fun _ => some boughtMarket, fun _ => none⟩ 3 0,
    .refreshed (.ok fun _ => some 2) 0,
    .decided (.returned { payload := some { marketId := "m", side := .yes, price := 1 / 4, qty := 8 } }) 0,
    .bought (.ok (.ok (1 / 4) 8 1)) 5]

theorem bought_run : ∃ p, PipelineRuns boughtSetup (fun _ => false) (some 60) 200 boughtEvents p ∧
    p.flight.isNone ∧ p.answers.length = 1 ∧ p.accepted.length = 2 ∧
    p.trace.map (fun e => e.2.isBuy) = [false, false, false, false, false, false, true, false] := by
  have hsome : (boughtEvents.foldlM (Pipeline.step boughtSetup)
      (.init (fun _ => false) (some 60) 200)).isSome = true := by decide +kernel
  obtain ⟨p, hp⟩ := Option.isSome_iff_exists.mp hsome
  have hread : (boughtEvents.foldlM (Pipeline.step boughtSetup)
      (.init (fun _ => false) (some 60) 200)).map (fun p =>
        (p.flight.isNone, p.answers.length, p.accepted.length, p.trace.map fun e => e.2.isBuy)) =
      some (true, 1, 2, [false, false, false, false, false, false, true, false]) := by decide +kernel
  rw [hp] at hread
  simp only [Option.map_some, Option.some.injEq, Prod.mk.injEq] at hread
  exact ⟨p, Transition.run_foldlM _ hp, hread⟩

theorem pipeline_serial_sample : ∃ p, PipelineRuns boughtSetup (fun _ => false) (some 60) 200 boughtEvents p ∧
    p.accepted.length = 2 ∧ p.accepted.drop p.answers.length = p.queue ∧
    ∀ n a item, p.answers[n]? = some a → p.accepted[n]? = some item → n ∉ p.cut →
      p.effectsOf n = a.process boughtSetup item := by
  obtain ⟨p, hrun, hidle, -, haccepted, -⟩ := bought_run
  obtain ⟨hqueue, -, -, hitems, -⟩ := pipeline_serial hrun
  refine ⟨p, hrun, haccepted, hqueue, fun n a item ha hitem hcut => ?_⟩
  refine (hitems n a item ha hitem).2 hcut fun f hf => ?_
  rw [hf] at hidle
  cases hidle

theorem pipeline_buys_sample : ∃ p, PipelineRuns boughtSetup (fun _ => false) (some 60) 200 boughtEvents p ∧
    ∃ (n : ℕ) (a : Answers Bool) (item : NewsItem) (intent : OrderIntent) (newsId : PyStr),
      p.answers[n]? = some a ∧ p.accepted[n]? = some item ∧
      BuyGrounds boughtSetup a item intent newsId := by
  obtain ⟨p, hrun, -, -, -, htrace⟩ := bought_run
  have hmem : true ∈ p.trace.map fun e => e.2.isBuy := by
    rw [htrace]
    decide
  obtain ⟨⟨tag, e⟩, he, hbuy⟩ := List.mem_map.mp hmem
  cases e with
  | executeBuy intent newsId ts =>
    obtain ⟨n, a, item, -, ha, hitem, hgrounds, -⟩ := pipeline_buys hrun he
    exact ⟨p, hrun, n, a, item, intent, newsId, ha, hitem, hgrounds⟩
  | _ => cases hbuy

theorem boughtEvents_orderly : ∀ e ∈ boughtEvents, e.orderly := by
  intro e he
  simp only [boughtEvents, List.mem_cons, List.not_mem_nil, or_false] at he
  rcases he with rfl | rfl | rfl | rfl | rfl | rfl | rfl | rfl | rfl | rfl
  case inr.inr.inr.inl => rfl
  case inr.inr.inr.inr.inr.inr.inl => exact ⟨rfl, nofun⟩
  case inr.inr.inr.inr.inr.inr.inr.inl => rfl
  all_goals trivial

theorem pipeline_lossless_sample : ∃ p, PipelineRuns boughtSetup (fun _ => false) (some 60) 200 boughtEvents p ∧
    (∃ item, p.accepted[0]? = some item ∧
      ∃ a, p.answers[0]? = some a ∧ p.effectsOf 0 = a.process boughtSetup item) := by
  obtain ⟨p, hrun, hidle, hanswers, haccepted, -⟩ := bought_run
  have hitem : p.accepted[0]? = some (p.accepted.get ⟨0, by omega⟩) := List.getElem?_eq_getElem _
  refine ⟨p, hrun, _, hitem, ?_⟩
  rcases pipeline_lossless hrun boughtEvents_orderly 0 hitem with hdone | ⟨f, hf, -⟩ | ⟨hle, -⟩
  · exact hdone
  · rw [hf] at hidle
    cases hidle
  · omega

theorem pipeline_swap_sample : ∃ (p q : Pipeline Bool) (later : List (Option ℕ × PipelineEffect Bool)),
    p.flight.isSome ∧ q.trace = p.trace ++ later ∧
      ∀ entry ∈ later, ∀ inst, entry.2.call? = some (.entry, inst) → inst = true := by
  have hsome : (((boughtEvents.take 5).foldlM (Pipeline.step boughtSetup)
      (.init (fun _ => false) (some 60) 200)).bind fun p =>
        if p.flight.isSome then
          (p.step boughtSetup (.replaceSection .entry true)).bind fun t =>
            ((boughtEvents.drop 6).foldlM (Pipeline.step boughtSetup) t).map fun q => (p, t, q)
        else none).isSome = true := by decide +kernel
  obtain ⟨x, hx⟩ := Option.isSome_iff_exists.mp hsome
  obtain ⟨p, -, hp⟩ := Option.bind_eq_some_iff.mp hx
  split_ifs at hp with hflight
  obtain ⟨t, ht, hq⟩ := Option.bind_eq_some_iff.mp hp
  obtain ⟨q, hq, -⟩ := Option.map_eq_some_iff.mp hq
  have hno : ∀ e ∈ boughtEvents.drop 6, ∀ inst, e ≠ .replaceSection .entry inst := by
    intro e he inst
    simp only [boughtEvents, List.drop_succ_cons, List.drop_zero, List.mem_cons, List.not_mem_nil,
      or_false] at he
    rcases he with rfl | rfl | rfl | rfl <;> exact nofun
  obtain ⟨later, htrace, hlater⟩ := pipeline_swap ht (Transition.run_foldlM _ hq) hno
  exact ⟨p, q, later, hflight, htrace, hlater⟩

end OpenPoly
