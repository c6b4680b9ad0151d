import OpenPoly.Lib.Run
import OpenPoly.Lib.Indexed
import OpenPoly.Spec.Pipeline

/-! The worker interleaved with arrivals, swaps and shutdown does for each item what
`_process` does for it alone: the items are worked on in the order they were accepted,
one at a time, and the effects of an item are those of `_process` on its answers. -/

namespace OpenPoly

variable {ι : Type} {setup : PipelineSetup ι} {p q : Pipeline ι} {f : Flight} {tag : Option ℕ}
  {effects : List (PipelineEffect ι)} {n : ℕ}

def PipelineEffect.embeddingRow? : PipelineEffect ι → Option EmbeddingCall
  | .embeddingRow row => some row
  | _ => none

def PipelineEffect.analyzerRow? : PipelineEffect ι → Option AnalyzerCall
  | .analyzerRow row => some row
  | _ => none

def PipelineEffect.entryRow? : PipelineEffect ι → Option EntryRow
  | .entryRow row => some row
  | _ => none

/-- Effects are added to the trace, and their rows to the logs; nothing else changes. -/
theorem emit_eq (p : Pipeline ι) (tag : Option ℕ) (effects : List (PipelineEffect ι)) :
    p.emit tag effects =
      { p with
        trace := p.trace ++ effects.map (tag, ·)
        embeddingLog := (effects.filterMap PipelineEffect.embeddingRow?).foldl .append p.embeddingLog
        analyzerLog := (effects.filterMap PipelineEffect.analyzerRow?).foldl .append p.analyzerLog
        entryLog := (effects.filterMap PipelineEffect.entryRow?).foldl .append p.entryLog } := by
  induction effects generalizing p with
  | nil => simp [Pipeline.emit]
  | cons e effects ih =>
    have hcons : p.emit tag (e :: effects) = (p.emitOne tag e).emit tag effects := rfl
    rw [hcons, ih]
    cases e <;> simp [Pipeline.emitOne, List.filterMap_cons, PipelineEffect.embeddingRow?, PipelineEffect.analyzerRow?,
      PipelineEffect.entryRow?]

def Pipeline.effectsOf (p : Pipeline ι) (n : ℕ) : List (PipelineEffect ι) :=
  p.trace.filterMap fun e => if e.1 = some n then some e.2 else none

theorem filterMap_tagged_self (n : ℕ) (effects : List (PipelineEffect ι)) :
    (effects.map (some n, ·)).filterMap (fun e => if e.1 = some n then some e.2 else none) = effects := by
  induction effects with
  | nil => rfl
  | cons e effects ih => simp [ih]

theorem filterMap_tagged_other (h : tag ≠ some n) (effects : List (PipelineEffect ι)) :
    (effects.map (tag, ·)).filterMap (fun e => if e.1 = some n then some e.2 else none) = [] := by
  induction effects with
  | nil => rfl
  | cons e effects ih => simp [ih, h]

theorem effectsOf_append (h : q.trace = p.trace ++ effects.map (some n, ·)) :
    q.effectsOf n = p.effectsOf n ++ effects := by
  rw [Pipeline.effectsOf, h, List.filterMap_append, filterMap_tagged_self]
  rfl

theorem effectsOf_other (h : q.trace = p.trace ++ effects.map (tag, ·)) (hn : tag ≠ some n) :
    q.effectsOf n = p.effectsOf n := by
  rw [Pipeline.effectsOf, h, List.filterMap_append, filterMap_tagged_other hn, List.append_nil]
  rfl

/-- The rest of `_process` from a stage on. -/
def Answers.remaining (setup : PipelineSetup ι) (a : Answers ι) (item : NewsItem) :
    Stage → List (PipelineEffect ι)
  | .embedding ts => a.afterEmbedding setup item ts
  | .analyzer ts => a.afterAnalyzer setup item ts
  | .refresh ar ts market tokens => a.refreshed setup item ar ts market tokens
  | .decision ar ts books => a.decidedOn item ar ts books
  | .buy ar ts choice => a.bought item ar ts choice

/-- What `a` has heard by a stage, with `rest` for what is still to be answered. -/
def Answers.known (a rest : Answers ι) : Stage → Answers ι
  | .embedding _ =>
    { rest with
      takenAt := a.takenAt, maxAge := a.maxAge, embedder := a.embedder, embeddingTs := a.embeddingTs }
  | .analyzer _ =>
    { rest with
      takenAt := a.takenAt, maxAge := a.maxAge, embedder := a.embedder, embeddingTs := a.embeddingTs
      embedded := a.embedded, embeddingMs := a.embeddingMs, analyzer := a.analyzer
      analyzerTs := a.analyzerTs }
  | .refresh .. =>
    { a with
      ages := rest.ages, entry := rest.entry, decided := rest.decided, result := rest.result
      entryMs := rest.entryMs }
  | .decision .. => { a with decided := rest.decided, result := rest.result, entryMs := rest.entryMs }
  | .buy .. => { a with result := rest.result, entryMs := rest.entryMs }

/-- The item in flight is the last taken, and `_process` has come as far as its stage. -/
structure Flying (setup : PipelineSetup ι) (p : Pipeline ι) (f : Flight) : Prop where
  last : f.index + 1 = p.answers.length
  accepted : p.accepted[f.index]? = some f.item
  reached : ∀ a, p.answers[f.index]? = some a → ∀ rest,
    (a.known rest f.stage).process setup f.item =
      p.effectsOf f.index ++ rest.remaining setup f.item f.stage

/-- The worker's order, and what it owes each item. -/
structure Serial (setup : PipelineSetup ι) (p : Pipeline ι) : Prop where
  taken : p.answers.length ≤ p.accepted.length
  waiting : p.accepted.drop p.answers.length = p.queue
  room : 0 < setup.queueMaxsize → (p.queue.length : ℤ) ≤ setup.queueMaxsize
  ordered : (p.trace.filterMap Prod.fst).Pairwise (· ≤ ·)
  within : ∀ n ∈ p.trace.filterMap Prod.fst, n < p.answers.length
  cut : ∀ n ∈ p.cut, n < p.answers.length
  flying : ∀ f, p.flight = some f → Flying setup p f
  settled : ∀ (n : ℕ) (a : Answers ι) (item : NewsItem), p.answers[n]? = some a →
    p.accepted[n]? = some item → (∀ f, p.flight = some f → f.index ≠ n) →
    p.effectsOf n <+: a.process setup item ∧ (n ∉ p.cut → p.effectsOf n = a.process setup item)

/-- An event that is about the item in flight alone leaves the others as they were. -/
theorem Serial.of_flight {g : Answers ι → Answers ι} (h : Serial setup p) (hf : p.flight = some f)
    (htrace : q.trace = p.trace ++ effects.map (some f.index, ·))
    (hanswers : q.answers = p.answers.modify f.index g) (haccepted : q.accepted = p.accepted)
    (hqueue : q.queue = p.queue) (hcut : q.cut = p.cut ∨ q.cut = p.cut ++ [f.index])
    (hindex : ∀ f', q.flight = some f' → f'.index = f.index)
    (hflying : ∀ f', q.flight = some f' → Flying setup q f')
    (hself : q.flight = none → ∀ a, p.answers[f.index]? = some a →
      q.effectsOf f.index <+: (g a).process setup f.item ∧
        (f.index ∉ q.cut → q.effectsOf f.index = (g a).process setup f.item)) :
    Serial setup q := by
  have hfly := h.flying f hf
  have hlength : q.answers.length = p.answers.length := by rw [hanswers, List.length_modify]
  have hlast : f.index < p.answers.length := by
    have := hfly.last
    omega
  have htags : q.trace.filterMap Prod.fst =
      p.trace.filterMap Prod.fst ++ effects.map fun _ => f.index := by
    rw [htrace, List.filterMap_append, List.filterMap_map]
    congr 1
    exact congrFun List.filterMap_eq_map' effects
  refine ⟨?_, ?_, ?_, ?_, ?_, ?_, hflying, ?_⟩
  · rw [haccepted, hlength]
    exact h.taken
  · rw [haccepted, hlength, hqueue]
    exact h.waiting
  · rw [hqueue]
    exact h.room
  · rw [htags, List.pairwise_append]
    refine ⟨h.ordered, List.pairwise_map.mpr (List.pairwise_of_forall fun _ _ => le_refl _), ?_⟩
    intro n hn m hm
    obtain ⟨_, -, rfl⟩ := List.mem_map.mp hm
    have := h.within n hn
    have := hfly.last
    omega
  · intro n hn
    rw [hlength]
    rw [htags, List.mem_append] at hn
    rcases hn with hn | hn
    · exact h.within n hn
    · obtain ⟨_, -, rfl⟩ := List.mem_map.mp hn
      exact hlast
  · intro n hn
    rw [hlength]
    rcases hcut with hcut | hcut
    · exact h.cut n (hcut ▸ hn)
    · rw [hcut, List.mem_append, List.mem_singleton] at hn
      rcases hn with hn | rfl
      · exact h.cut n hn
      · exact hlast
  · intro n a item ha hitem hidle
    rw [haccepted] at hitem
    rw [hanswers] at ha
    obtain ⟨old, hold, ⟨rfl, rfl⟩ | ⟨hne, rfl⟩⟩ := Indexed.of_modify ha
    · -- the item itself, which is no longer in flight
      have hnone : q.flight = none := by
        cases hq : q.flight with
        | none => rfl
        | some f' => exact absurd (hindex f' hq) (hidle f' hq)
      obtain rfl : f.item = item := Option.some.inj (hfly.accepted ▸ hitem)
      exact hself hnone old hold
    · have hother : q.effectsOf n = p.effectsOf n := effectsOf_other htrace (by simpa using hne)
      have hbefore := h.settled n a item hold hitem fun f' hf' => by
        obtain rfl : f = f' := Option.some.inj (hf ▸ hf')
        exact hne
      rw [hother]
      refine ⟨hbefore.1, fun hn => hbefore.2 fun hp => hn ?_⟩
      rcases hcut with hcut | hcut
      · exact hcut ▸ hp
      · rw [hcut]
        exact List.mem_append_left _ hp

theorem advance_eq (p : Pipeline ι) (f : Flight) (effects : List (PipelineEffect ι)) (next : Option Stage) :
    (p.advance f effects next).trace = p.trace ++ effects.map (some f.index, ·) ∧
      (p.advance f effects next).answers = p.answers ∧
      (p.advance f effects next).accepted = p.accepted ∧ (p.advance f effects next).queue = p.queue ∧
      (p.advance f effects next).cut = p.cut ∧
      (p.advance f effects next).flight = next.map fun stage => { f with stage := stage } := by
  rw [Pipeline.advance, emit_eq]
  exact ⟨rfl, rfl, rfl, rfl, rfl, rfl⟩

/-- The item in flight goes on to its next stage. -/
theorem Serial.goOn {g : Answers ι → Answers ι} {stage : Stage} (h : Serial setup p)
    (hf : p.flight = some f)
    (hnext : ∀ a rest, ∃ rest' : Answers ι, (g a).known rest stage = a.known rest' f.stage ∧
      rest'.remaining setup f.item f.stage = effects ++ rest.remaining setup f.item stage) :
    Serial setup ((p.hear f g).advance f effects (some stage)) := by
  obtain ⟨htrace, hanswers, haccepted, hqueue, hcut, hflight⟩ :=
    advance_eq (p.hear f g) f effects (some stage)
  have hfly := h.flying f hf
  refine h.of_flight hf htrace hanswers haccepted hqueue (.inl hcut) ?_ ?_ ?_
  · intro f' hf'
    rw [hflight] at hf'
    cases hf'
    rfl
  · intro f' hf'
    rw [hflight] at hf'
    cases hf'
    refine ⟨?_, ?_, ?_⟩
    · rw [hanswers]
      simpa [Pipeline.hear] using hfly.last
    · rw [haccepted]
      exact hfly.accepted
    · intro a ha rest
      rw [hanswers] at ha
      obtain ⟨old, hold, ⟨-, rfl⟩ | ⟨hne, -⟩⟩ := Indexed.of_modify ha
      · obtain ⟨rest', hknown, hrest⟩ := hnext old rest
        rw [effectsOf_append (p := p) htrace, hknown, hfly.reached old hold rest', hrest,
          List.append_assoc]
      · exact absurd rfl hne
  · intro hnone
    rw [hflight] at hnone
    cases hnone

/-- The item in flight gets its last effects. -/
theorem Serial.finish {g : Answers ι → Answers ι} (h : Serial setup p) (hf : p.flight = some f)
    (hend : ∀ a, ∃ rest : Answers ι, g a = a.known rest f.stage ∧
      rest.remaining setup f.item f.stage = effects) :
    Serial setup ((p.hear f g).advance f effects none) := by
  obtain ⟨htrace, hanswers, haccepted, hqueue, hcut, hflight⟩ :=
    advance_eq (p.hear f g) f effects none
  refine h.of_flight hf htrace hanswers haccepted hqueue (.inl hcut) ?_ ?_ ?_
  · intro f' hf'
    rw [hflight] at hf'
    cases hf'
  · intro f' hf'
    rw [hflight] at hf'
    cases hf'
  · intro _ a ha
    obtain ⟨rest, hknown, hrest⟩ := hend a
    have hall : (g a).process setup f.item = p.effectsOf f.index ++ effects := by
      rw [hknown, (h.flying f hf).reached a ha rest, hrest]
    rw [effectsOf_append (p := p) htrace, hall]
    exact ⟨List.prefix_refl _, fun _ => rfl⟩

/-- The work on the item in flight is broken off. -/
theorem Serial.breakOff {g : Answers ι → Answers ι} (h : Serial setup p) (hf : p.flight = some f)
    (hend : ∀ a, ∃ rest : Answers ι, g a = a.known rest f.stage) :
    Serial setup ((p.hear f g).cutOff f) := by
  have htrace : ((p.hear f g).cutOff f).trace = p.trace ++ ([] : List (PipelineEffect ι)).map (some f.index, ·) :=
    (List.append_nil _).symm
  refine h.of_flight hf htrace rfl rfl rfl (.inr rfl) ?_ ?_ ?_
  · intro f' hf'
    cases hf'
  · intro f' hf'
    cases hf'
  · intro _ a ha
    obtain ⟨rest, hknown⟩ := hend a
    refine ⟨?_, fun hn => absurd (List.mem_append_right _ (List.mem_singleton_self _)) hn⟩
    rw [hknown, (h.flying f hf).reached a ha rest]
    exact List.prefix_append _ _

/-- Nothing has been done for an item that is not yet taken. -/
theorem Serial.effectsOf_untaken (h : Serial setup p) (hn : p.answers.length ≤ n) :
    p.effectsOf n = [] := by
  rw [Pipeline.effectsOf, List.filterMap_eq_nil_iff]
  rintro ⟨tag, e⟩ he
  rw [if_neg]
  rintro rfl
  have := h.within n (List.mem_filterMap.mpr ⟨_, he, rfl⟩)
  omega

theorem Serial.head_accepted {item : NewsItem} {rest : List NewsItem} (h : Serial setup p)
    (hqueue : p.queue = item :: rest) :
    p.accepted[p.answers.length]? = some item ∧ p.accepted.drop (p.answers.length + 1) = rest := by
  have hdrop := h.waiting.trans hqueue
  constructor
  · rw [← List.head?_drop, hdrop]
    rfl
  · rw [← List.tail_drop, hdrop]
    rfl

/-- The next item is taken off the queue. -/
theorem Serial.opened {item : NewsItem} {rest : List NewsItem} {a : Answers ι} (h : Serial setup p)
    (hidle : p.flight = none) (hhead : p.queue = item :: rest)
    (htrace : q.trace = p.trace ++ effects.map (some p.answers.length, ·))
    (hanswers : q.answers = p.answers ++ [a]) (haccepted : q.accepted = p.accepted)
    (hqueue : q.queue = rest) (hcut : q.cut = p.cut)
    (hflying : ∀ f, q.flight = some f → f.index = p.answers.length ∧ f.item = item ∧
      ∀ r, (a.known r f.stage).process setup item = effects ++ r.remaining setup item f.stage)
    (hself : q.flight = none → a.process setup item = effects) : Serial setup q := by
  obtain ⟨hitem, hrest⟩ := h.head_accepted hhead
  have hlength : q.answers.length = p.answers.length + 1 := by
    rw [hanswers, List.length_append, List.length_singleton]
  have htags : q.trace.filterMap Prod.fst =
      p.trace.filterMap Prod.fst ++ effects.map fun _ => p.answers.length := by
    rw [htrace, List.filterMap_append, List.filterMap_map]
    congr 1
    exact congrFun List.filterMap_eq_map' effects
  have hnew : q.effectsOf p.answers.length = effects := by
    rw [effectsOf_append htrace, h.effectsOf_untaken le_rfl, List.nil_append]
  refine ⟨?_, ?_, ?_, ?_, ?_, ?_, ?_, ?_⟩
  · rw [haccepted, hlength]
    exact (List.getElem?_eq_some_iff.mp hitem).1
  · rw [haccepted, hlength, hqueue, hrest]
  · intro hmax
    have := h.room hmax
    rw [hhead, List.length_cons] at this
    rw [hqueue]
    omega
  · rw [htags, List.pairwise_append]
    refine ⟨h.ordered, List.pairwise_map.mpr (List.pairwise_of_forall fun _ _ => le_refl _), ?_⟩
    intro n hn m hm
    obtain ⟨_, -, rfl⟩ := List.mem_map.mp hm
    exact (h.within n hn).le
  · intro n hn
    rw [htags, List.mem_append] at hn
    rw [hlength]
    rcases hn with hn | hn
    · have := h.within n hn
      omega
    · obtain ⟨_, -, rfl⟩ := List.mem_map.mp hn
      omega
  · intro n hn
    have := h.cut n (hcut ▸ hn)
    omega
  · intro f hf
    obtain ⟨hindex, rfl, hreached⟩ := hflying f hf
    refine ⟨by omega, by rw [haccepted, hindex, hitem], fun a' ha' r => ?_⟩
    rw [hanswers, hindex, List.getElem?_concat_length] at ha'
    obtain rfl := Option.some.inj ha'
    rw [hindex, hnew]
    exact hreached r
  · intro n b item' hb hitem' hother
    rw [hanswers] at hb
    rw [haccepted] at hitem'
    rcases Indexed.of_snoc hb with hold | ⟨rfl, rfl⟩
    · have hlt := (List.getElem?_eq_some_iff.mp hold).1
      have hne : some p.answers.length ≠ some n := by
        intro heq
        have := Option.some.inj heq
        omega
      rw [effectsOf_other htrace hne, hcut]
      exact h.settled n b item' hold hitem' fun f hf => by rw [hidle] at hf; cases hf
    · obtain rfl : item = item' := Option.some.inj (hitem ▸ hitem')
      have hnone : q.flight = none := by
        cases hq : q.flight with
        | none => rfl
        | some f => exact absurd (hflying f hq).1 (hother f hq)
      rw [hnew, hself hnone]
      exact ⟨List.prefix_refl _, fun _ => rfl⟩

theorem serial_take {item : NewsItem} {rest : List NewsItem} {now embeddingTs : ℚ}
    (h : Serial setup p) (hidle : p.flight = none) (hqueue : p.queue = item :: rest) :
    Serial setup (p.take item rest now embeddingTs) := by
  unfold Pipeline.take
  dsimp only
  cases hstale : staleNewsRow item p.newsMaxAge now with
  | some row =>
    obtain ⟨htrace, hanswers, haccepted, hqueue', hcut, hflight⟩ := advance_eq
      { p with
        queue := rest
        answers := p.answers ++ [Answers.opened now embeddingTs p.newsMaxAge p.sections] }
      ⟨p.answers.length, item, .embedding embeddingTs⟩ [.analyzerRow row] none
    refine h.opened hidle hqueue htrace hanswers haccepted hqueue' hcut ?_ ?_
    · intro f hf
      rw [hflight] at hf
      cases hf
    · intro _
      simp only [Answers.process, Answers.opened, hstale]
  | none =>
    obtain ⟨htrace, hanswers, haccepted, hqueue', hcut, hflight⟩ := advance_eq
      { p with
        queue := rest
        answers := p.answers ++ [Answers.opened now embeddingTs p.newsMaxAge p.sections] }
      ⟨p.answers.length, item, .embedding embeddingTs⟩
      [.run .embedding (p.sections .embedding)] (some (.embedding embeddingTs))
    refine h.opened hidle hqueue htrace hanswers haccepted hqueue' hcut ?_ ?_
    · intro f hf
      rw [hflight] at hf
      cases hf
      refine ⟨rfl, rfl, fun r => ?_⟩
      simp only [Answers.process, Answers.known, Answers.opened, hstale]
      rfl
    · intro hnone
      rw [hflight] at hnone
      cases hnone

theorem serial_embedded {ts analyzerTs : ℚ} {answer : SectionAnswer Shortlist} {ms : ℕ}
    (h : Serial setup p) (hf : p.flight = some f) (hstage : f.stage = .embedding ts) :
    Serial setup (p.embedded f ts answer ms analyzerTs) := by
  unfold Pipeline.embedded
  dsimp only
  cases hrow : embeddingRow f.item ts answer ms with
  | error exc => exact h.breakOff hf fun a => ⟨{ a with
      embedded := answer, embeddingMs := ms, analyzer := p.sections .analyzer
      analyzerTs := analyzerTs }, by rw [hstage]; rfl⟩
  | ok row =>
    cases hforward : answer.forwarded with
    | none =>
      refine h.finish hf fun a => ⟨{ a with
        embedded := answer, embeddingMs := ms, analyzer := p.sections .analyzer
        analyzerTs := analyzerTs }, by rw [hstage]; rfl, ?_⟩
      rw [hstage]
      simp only [Answers.remaining, Answers.afterEmbedding, hrow, hforward]
    | some candidates =>
      refine h.goOn hf fun a r => ⟨{ r with
        embedded := answer, embeddingMs := ms, analyzer := p.sections .analyzer
        analyzerTs := analyzerTs }, by rw [hstage]; rfl, ?_⟩
      rw [hstage]
      simp only [Answers.remaining, Answers.afterEmbedding, hrow, hforward]
      rfl

theorem hear_hear (p : Pipeline ι) (f : Flight) (g g' : Answers ι → Answers ι) :
    (p.hear f g).hear f g' = p.hear f (g' ∘ g) := by
  simp [Pipeline.hear, List.modify_modify_eq]

/-- The entry section is consulted, or the books forestall it. -/
theorem serial_consult {g : Answers ι → Answers ι} {before : List (PipelineEffect ι)} {ar : AnalysisResult}
    {ts : ℚ} {books : Option BookCheck} {ms : ℕ} (h : Serial setup p) (hf : p.flight = some f)
    (hbefore : ∀ a r : Answers ι, ∃ r' : Answers ι,
      ({ g a with
          entry := p.sections .entry, decided := r.decided, result := r.result
          entryMs := r.entryMs } : Answers ι) = a.known r' f.stage ∧
        r'.remaining setup f.item f.stage = before ++ r'.checked setup f.item ar ts books ∧
        r'.entry = p.sections .entry ∧ r'.decided = r.decided ∧ r'.result = r.result ∧
        r'.entryMs = r.entryMs) :
    Serial setup ((p.hear f g).consult setup f before ar ts books ms) := by
  unfold Pipeline.consult
  dsimp only
  rw [hear_hear]
  by_cases hfresh : noFreshBook books = true
  · rw [if_pos hfresh]
    refine h.finish hf fun a => ?_
    obtain ⟨r', hknown, hremaining, -, -, -, hms⟩ := hbefore a { g a with entryMs := ms }
    refine ⟨r', hknown, ?_⟩
    rw [hremaining, Answers.checked, if_pos hfresh, hms]
  · rw [if_neg hfresh]
    refine h.goOn hf fun a r => ?_
    obtain ⟨r', hknown, hremaining, hentry, hdecided, hresult, hms⟩ := hbefore a r
    refine ⟨r', hknown, ?_⟩
    rw [hremaining, Answers.checked, if_neg hfresh, hentry, List.append_assoc]
    simp only [Answers.remaining, Answers.decidedOn, Answers.bought, hdecided, hresult, hms]
    rfl

theorem serial_analyzed {ts entryTs : ℚ} {answer : SectionAnswer AnalysisResult} {ms entryMs : ℕ}
    {catalog : Catalog} (h : Serial setup p) (hf : p.flight = some f) (hstage : f.stage = .analyzer ts) :
    Serial setup (p.analyzed setup f ts answer ms catalog entryTs entryMs) := by
  unfold Pipeline.analyzed
  dsimp only
  cases heffects : analyzerEffects setup catalog f.item ts answer ms with
  | error exc => exact h.breakOff hf fun a => ⟨{ a with
      analyzed := answer, analyzerMs := ms, catalog := catalog, entryTs := entryTs
      locked := p.sections .entry }, by rw [hstage]; rfl⟩
  | ok effects =>
    cases hforward : answer.forwarded with
    | none =>
      refine h.finish hf fun a => ⟨{ a with
        analyzed := answer, analyzerMs := ms, catalog := catalog, entryTs := entryTs
        locked := p.sections .entry }, by rw [hstage]; rfl, ?_⟩
      rw [hstage]
      simp only [Answers.remaining, Answers.afterAnalyzer, heffects, hforward]
      exact List.append_nil _
    | some ar =>
      dsimp only
      cases hmarket : checkedMarket setup catalog ar with
      | some market =>
        refine h.goOn hf fun a r => ⟨{ r with
          analyzed := answer, analyzerMs := ms, catalog := catalog, entryTs := entryTs
          locked := p.sections .entry }, by rw [hstage]; rfl, ?_⟩
        rw [hstage]
        simp only [Answers.remaining, Answers.afterAnalyzer, heffects, hforward, Answers.runEntry, hmarket,
          List.append_assoc]
        rfl
      | none =>
        refine serial_consult h hf fun a r => ⟨{ a with
          analyzed := answer, analyzerMs := ms, catalog := catalog, entryTs := entryTs
          locked := p.sections .entry, entry := p.sections .entry, decided := r.decided
          result := r.result, entryMs := r.entryMs }, by rw [hstage]; rfl, ?_, rfl, rfl, rfl, rfl⟩
        rw [hstage]
        simp only [Answers.remaining, Answers.afterAnalyzer, heffects, hforward, Answers.runEntry, hmarket]

theorem serial_refreshed {ar : AnalysisResult} {ts : ℚ} {market : Market} {tokens : List String}
    {answer : Except PyErr (String → Option ℚ)} {ms : ℕ} (h : Serial setup p) (hf : p.flight = some f)
    (hstage : f.stage = .refresh ar ts market tokens) :
    Serial setup (p.refreshed setup f ar ts market tokens answer ms) := by
  unfold Pipeline.refreshed
  dsimp only
  cases answer with
  | error exc => exact h.breakOff hf fun a => ⟨{ a with ages := .error exc }, by rw [hstage]; rfl⟩
  | ok ages =>
    refine serial_consult h hf fun a r => ⟨{ a with
      ages := .ok ages, entry := p.sections .entry, decided := r.decided, result := r.result
      entryMs := r.entryMs }, by rw [hstage]; rfl, ?_, rfl, rfl, rfl, rfl⟩
    rw [hstage]
    rfl

theorem serial_decided {ar : AnalysisResult} {ts : ℚ} {books : Option BookCheck}
    {answer : SectionAnswer OrderIntent} {ms : ℕ} (h : Serial setup p) (hf : p.flight = some f)
    (hstage : f.stage = .decision ar ts books) :
    Serial setup (p.decided f ar ts books answer ms) := by
  unfold Pipeline.decided
  dsimp only
  cases hintent : (entryChoice books answer).intent with
  | some intent =>
    refine h.goOn hf fun a r => ⟨{ r with decided := answer }, by rw [hstage]; rfl, ?_⟩
    rw [hstage]
    simp only [Answers.remaining, Answers.decidedOn, hintent]
    rfl
  | none =>
    refine h.finish hf fun a => ⟨{ a with decided := answer, entryMs := ms }, by rw [hstage]; rfl, ?_⟩
    rw [hstage]
    simp only [Answers.remaining, Answers.decidedOn, hintent]

theorem serial_bought {ar : AnalysisResult} {ts : ℚ} {choice : EntryChoice}
    {result : Except PyErr ExecResult} {ms : ℕ} (h : Serial setup p) (hf : p.flight = some f)
    (hstage : f.stage = .buy ar ts choice) : Serial setup (p.bought f ar ts choice result ms) := by
  refine h.finish hf fun a => ⟨{ a with result := result, entryMs := ms }, by rw [hstage]; rfl, ?_⟩
  rw [hstage]
  rfl

theorem serial_answer {e : PipelineEvent ι} {stage : Stage} (h : Serial setup p) (hf : p.flight = some f)
    (hstage : f.stage = stage) (hstep : p.answer setup f stage e = some q) : Serial setup q := by
  unfold Pipeline.answer at hstep
  split at hstep <;> cases hstep
  · exact serial_embedded h hf hstage
  · exact serial_analyzed h hf hstage
  · exact serial_refreshed h hf hstage
  · exact serial_decided h hf hstage
  · exact serial_bought h hf hstage

/-- What touches neither the queue nor the items, and adds no effect for one. -/
theorem Serial.untouched {effects : List (PipelineEffect ι)} (h : Serial setup p)
    (htrace : q.trace = p.trace ++ effects.map (none, ·)) (hanswers : q.answers = p.answers)
    (haccepted : q.accepted = p.accepted) (hqueue : q.queue = p.queue) (hcut : q.cut = p.cut)
    (hflight : q.flight = p.flight) : Serial setup q := by
  have htags : q.trace.filterMap Prod.fst = p.trace.filterMap Prod.fst := by
    rw [htrace, List.filterMap_append, List.filterMap_map]
    have hnone : effects.filterMap (Prod.fst ∘ fun x => ((none : Option ℕ), x)) = [] :=
      List.filterMap_eq_nil_iff.mpr fun _ _ => rfl
    rw [hnone, List.append_nil]
  have heffects : ∀ n, q.effectsOf n = p.effectsOf n := fun n => effectsOf_other htrace nofun
  refine ⟨?_, ?_, ?_, ?_, ?_, ?_, ?_, ?_⟩
  · rw [haccepted, hanswers]
    exact h.taken
  · rw [haccepted, hanswers, hqueue]
    exact h.waiting
  · rw [hqueue]
    exact h.room
  · rw [htags]
    exact h.ordered
  · rw [htags, hanswers]
    exact h.within
  · rw [hcut, hanswers]
    exact h.cut
  · intro f hf
    have hfly := h.flying f (hflight ▸ hf)
    refine ⟨by rw [hanswers]; exact hfly.last, by rw [haccepted]; exact hfly.accepted, ?_⟩
    rw [hanswers, heffects]
    exact hfly.reached
  · intro n a item ha hitem hidle
    rw [heffects, hcut]
    exact h.settled n a item (hanswers ▸ ha) (haccepted ▸ hitem) fun f hf => hidle f (hflight ▸ hf)

theorem Serial.silent (h : Serial setup p) (htrace : q.trace = p.trace) (hanswers : q.answers = p.answers)
    (haccepted : q.accepted = p.accepted) (hqueue : q.queue = p.queue) (hcut : q.cut = p.cut)
    (hflight : q.flight = p.flight) : Serial setup q := by
  have hnone : q.trace = p.trace ++ ([] : List (PipelineEffect ι)).map (none, ·) := by
    rw [htrace]
    exact (List.append_nil _).symm
  exact h.untouched hnone hanswers haccepted hqueue hcut hflight

theorem serial_enqueue {item : NewsItem} {now : ℚ} (h : Serial setup p) :
    Serial setup (p.enqueue setup item now) := by
  unfold Pipeline.enqueue
  by_cases hfull : p.full setup = true
  · rw [if_pos hfull, emit_eq]
    exact h.untouched rfl rfl rfl rfl rfl rfl
  · rw [if_neg hfull]
    have hroom : 0 < setup.queueMaxsize → (p.queue.length : ℤ) < setup.queueMaxsize := by
      intro hmax
      simpa [Pipeline.full, hmax] using hfull
    have hkeep : ∀ {n : ℕ} {old : NewsItem}, n < p.answers.length →
        (p.accepted ++ [item])[n]? = some old → p.accepted[n]? = some old := by
      intro n old hn hold
      rwa [List.getElem?_append_left (Nat.lt_of_lt_of_le hn h.taken)] at hold
    refine ⟨?_, ?_, ?_, h.ordered, h.within, h.cut, ?_, ?_⟩
    · exact h.taken.trans (List.length_append ▸ Nat.le_add_right _ _)
    · show (p.accepted ++ [item]).drop p.answers.length = p.queue ++ [item]
      rw [List.drop_append_of_le_length h.taken, h.waiting]
    · intro hmax
      have := hroom hmax
      rw [List.length_append, List.length_singleton]
      omega
    · intro f hf
      have hfly := h.flying f hf
      refine ⟨hfly.last, ?_, hfly.reached⟩
      exact (List.getElem?_append_left (List.getElem?_eq_some_iff.mp hfly.accepted).1).trans hfly.accepted
    · intro n a old ha hold hidle
      exact h.settled n a old ha (hkeep (List.getElem?_eq_some_iff.mp ha).1 hold) hidle

theorem serial_step {e : PipelineEvent ι} (h : Serial setup p) (hstep : p.step setup e = some q) :
    Serial setup q := by
  have hanswer : ∀ e, (p.flight.bind fun f => p.answer setup f f.stage e) = some q → Serial setup q := by
    intro e he
    obtain ⟨f, hf, hq⟩ := Option.bind_eq_some_iff.mp he
    exact serial_answer h hf rfl hq
  cases e with
  | enqueue item now =>
    cases hstep
    exact serial_enqueue h
  | take now embeddingTs =>
    simp only [Pipeline.step] at hstep
    split at hstep
    · cases hstep
      exact serial_take h ‹_› ‹_›
    · cases hstep
  | replaceSection s inst =>
    cases hstep
    exact h.silent rfl rfl rfl rfl rfl rfl
  | setNewsMaxAge seconds =>
    cases hstep
    exact h.silent rfl rfl rfl rfl rfl rfl
  | start =>
    cases hstep
    exact h.silent rfl rfl rfl rfl rfl rfl
  | stop =>
    have hstopped : Serial setup { p with running := false } := h.silent rfl rfl rfl rfl rfl rfl
    simp only [Pipeline.step] at hstep
    split at hstep
    · cases hstep
      have hcut := hstopped.breakOff (g := id) ‹_› fun a => ⟨a, by cases Flight.stage _ <;> rfl⟩
      simpa [Pipeline.hear] using hcut
    · cases hstep
      exact hstopped
  | embedded => exact hanswer _ hstep
  | analyzed => exact hanswer _ hstep
  | refreshed => exact hanswer _ hstep
  | decided => exact hanswer _ hstep
  | bought => exact hanswer _ hstep

theorem serial_init (sections : PipelineSection → ι) (newsMaxAge : Option ℚ) (maxlen : ℕ) :
    Serial setup (Pipeline.init sections newsMaxAge maxlen) := by
  refine ⟨le_rfl, rfl, ?_, List.Pairwise.nil, ?_, ?_, ?_, ?_⟩
  · intro hmax
    simpa [Pipeline.init] using hmax.le
  · intro n hn
    simp [Pipeline.init] at hn
  · intro n hn
    simp [Pipeline.init] at hn
  · intro f hf
    simp [Pipeline.init] at hf
  · intro n a item ha
    simp [Pipeline.init] at ha

/-- The instance of the effect's section call is the one installed. -/
def PipelineEffect.on (sections : PipelineSection → ι) : PipelineEffect ι → Prop
  | .run s inst => inst = sections s
  | .decide inst _ _ => inst = sections .entry
  | _ => True

/-- A step's effects: on the trace under one tag, their rows in the logs, their section
calls on the instances installed, and untagged only where they are overflow rows. -/
structure Emits (p q : Pipeline ι) (tag : Option ℕ) (effects : List (PipelineEffect ι)) : Prop where
  trace : q.trace = p.trace ++ effects.map (tag, ·)
  embeddingLog : q.embeddingLog = (effects.filterMap PipelineEffect.embeddingRow?).foldl .append p.embeddingLog
  analyzerLog : q.analyzerLog = (effects.filterMap PipelineEffect.analyzerRow?).foldl .append p.analyzerLog
  entryLog : q.entryLog = (effects.filterMap PipelineEffect.entryRow?).foldl .append p.entryLog
  installed : ∀ e ∈ effects, e.on p.sections
  overflow : tag = none → ∀ e ∈ effects, ∃ item now depth, e = .embeddingRow (overflowRow item now depth)

theorem emits_nothing (htrace : q.trace = p.trace) (hembedding : q.embeddingLog = p.embeddingLog)
    (hanalyzer : q.analyzerLog = p.analyzerLog) (hentry : q.entryLog = p.entryLog) :
    Emits p q (some n) [] :=
  ⟨by simpa using htrace, hembedding, hanalyzer, hentry, by simp, by simp⟩

/-- An item's effects, after what they were decided on has been noted. -/
theorem emits_advance {p₀ : Pipeline ι} {next : Option Stage} (htrace : p.trace = p₀.trace)
    (hembedding : p.embeddingLog = p₀.embeddingLog) (hanalyzer : p.analyzerLog = p₀.analyzerLog)
    (hentry : p.entryLog = p₀.entryLog) (hon : ∀ e ∈ effects, e.on p₀.sections) :
    Emits p₀ (p.advance f effects next) (some f.index) effects := by
  rw [Pipeline.advance, emit_eq]
  exact ⟨by rw [← htrace], by rw [← hembedding], by rw [← hanalyzer], by rw [← hentry], hon, by simp⟩

theorem emits_consult {p₀ : Pipeline ι} {before : List (PipelineEffect ι)} {ar : AnalysisResult} {ts : ℚ}
    {books : Option BookCheck} {ms : ℕ} (htrace : p.trace = p₀.trace)
    (hembedding : p.embeddingLog = p₀.embeddingLog) (hanalyzer : p.analyzerLog = p₀.analyzerLog)
    (hentry : p.entryLog = p₀.entryLog) (hsections : p.sections = p₀.sections)
    (hon : ∀ e ∈ before, e.on p₀.sections) :
    ∃ effects, Emits p₀ (p.consult setup f before ar ts books ms) (some f.index) effects := by
  unfold Pipeline.consult
  dsimp only
  split_ifs
  · refine ⟨_, emits_advance htrace hembedding hanalyzer hentry ?_⟩
    intro e he
    rcases List.mem_append.mp he with he | he
    · exact hon e he
    · rw [List.mem_singleton] at he
      subst he
      trivial
  · refine ⟨_, emits_advance htrace hembedding hanalyzer hentry ?_⟩
    intro e he
    rcases List.mem_append.mp he with he | he
    · exact hon e he
    · rw [List.mem_singleton] at he
      subst he
      exact congrFun hsections _

/-- The analyzer's row and its bookkeeping call no section. -/
theorem analyzerEffects_on {catalog : Catalog} {item : NewsItem} {ts : ℚ}
    {answer : SectionAnswer AnalysisResult} {ms : ℕ} (sections : PipelineSection → ι)
    (h : analyzerEffects setup catalog item ts answer ms = .ok effects) : ∀ e ∈ effects, e.on sections := by
  have hshadow : ∀ pick, ∀ e ∈ (shadowEffects setup.bookSource catalog item ts pick : List (PipelineEffect ι)),
      e.on sections := by
    intro pick e he
    unfold shadowEffects at he
    split at he
    · next marketId _ confidence _ _ _ =>
      by_cases hblank : marketId = "" ∨ confidence = ""
      · rw [if_pos hblank] at he
        cases he
      · rw [if_neg hblank, List.mem_singleton] at he
        subst he
        trivial
    · cases he
  unfold analyzerEffects at h
  cases hrow : analyzerRow item ts answer ms with
  | error exc =>
    rw [hrow] at h
    cases h
  | ok row =>
    cases hpick : loggedPick answer with
    | error exc =>
      rw [hrow, hpick] at h
      cases h
    | ok pick =>
      rw [hrow, hpick] at h
      cases h
      intro e he
      rcases List.mem_cons.mp he with rfl | he
      · trivial
      rcases List.mem_append.mp he with he | he
      · obtain ⟨usage, -, rfl⟩ := by simpa using he
        trivial
      · split at he
        · split_ifs at he
          · exact hshadow pick e he
          · cases he
        · cases he

theorem embedded_emits {ts analyzerTs : ℚ} {answer : SectionAnswer Shortlist} {ms : ℕ} :
    ∃ effects, Emits p (p.embedded f ts answer ms analyzerTs) (some f.index) effects := by
  unfold Pipeline.embedded
  dsimp only
  split
  · exact ⟨[], emits_nothing rfl rfl rfl rfl⟩
  · split
    · exact ⟨_, emits_advance rfl rfl rfl rfl (by simp [PipelineEffect.on])⟩
    · exact ⟨_, emits_advance rfl rfl rfl rfl (by simp [PipelineEffect.on])⟩

theorem analyzed_emits {ts entryTs : ℚ} {answer : SectionAnswer AnalysisResult} {ms entryMs : ℕ}
    {catalog : Catalog} :
    ∃ effects, Emits p (p.analyzed setup f ts answer ms catalog entryTs entryMs) (some f.index) effects := by
  unfold Pipeline.analyzed
  dsimp only
  split
  · exact ⟨[], emits_nothing rfl rfl rfl rfl⟩
  · next heffects =>
    have hon := analyzerEffects_on p.sections heffects
    split
    · exact ⟨_, emits_advance rfl rfl rfl rfl hon⟩
    · split
      · refine ⟨_, emits_advance rfl rfl rfl rfl ?_⟩
        intro e he
        rcases List.mem_append.mp he with he | he
        · exact hon e he
        · rw [List.mem_singleton] at he
          subst he
          trivial
      · exact emits_consult rfl rfl rfl rfl rfl hon

theorem refreshed_emits {ar : AnalysisResult} {ts : ℚ} {market : Market} {tokens : List String}
    {answer : Except PyErr (String → Option ℚ)} {ms : ℕ} :
    ∃ effects, Emits p (p.refreshed setup f ar ts market tokens answer ms) (some f.index) effects := by
  unfold Pipeline.refreshed
  dsimp only
  split
  · exact ⟨[], emits_nothing rfl rfl rfl rfl⟩
  · exact emits_consult rfl rfl rfl rfl rfl (by simp)

theorem decided_emits {ar : AnalysisResult} {ts : ℚ} {books : Option BookCheck}
    {answer : SectionAnswer OrderIntent} {ms : ℕ} :
    ∃ effects, Emits p (p.decided f ar ts books answer ms) (some f.index) effects := by
  unfold Pipeline.decided
  dsimp only
  split
  · exact ⟨_, emits_advance rfl rfl rfl rfl (by simp [PipelineEffect.on])⟩
  · exact ⟨_, emits_advance rfl rfl rfl rfl (by simp [PipelineEffect.on])⟩

theorem take_emits {item : NewsItem} {rest : List NewsItem} {now embeddingTs : ℚ} :
    ∃ effects, Emits p (p.take item rest now embeddingTs) (some p.answers.length) effects := by
  unfold Pipeline.take
  dsimp only
  split
  · exact ⟨_, emits_advance (f := ⟨p.answers.length, item, .embedding embeddingTs⟩) rfl rfl rfl rfl
      (by simp [PipelineEffect.on])⟩
  · exact ⟨_, emits_advance (f := ⟨p.answers.length, item, .embedding embeddingTs⟩) rfl rfl rfl rfl
      (by simp [PipelineEffect.on])⟩

theorem enqueue_emits {item : NewsItem} {now : ℚ} :
    ∃ tag effects, Emits p (p.enqueue setup item now) tag effects := by
  unfold Pipeline.enqueue
  split_ifs
  · rw [emit_eq]
    refine ⟨none, _, rfl, rfl, rfl, rfl, by simp [PipelineEffect.on], fun _ e he => ?_⟩
    rw [List.mem_singleton] at he
    exact ⟨item, now, p.queue.length, he⟩
  · exact ⟨some 0, [], emits_nothing rfl rfl rfl rfl⟩

theorem answer_emits {e : PipelineEvent ι} {stage : Stage} (hstep : p.answer setup f stage e = some q) :
    ∃ effects, Emits p q (some f.index) effects := by
  unfold Pipeline.answer at hstep
  split at hstep <;> cases hstep
  · exact embedded_emits
  · exact analyzed_emits
  · exact refreshed_emits
  · exact decided_emits
  · exact ⟨_, emits_advance rfl rfl rfl rfl (by simp [PipelineEffect.on])⟩

theorem step_emits {e : PipelineEvent ι} (hstep : p.step setup e = some q) :
    ∃ tag effects, Emits p q tag effects := by
  have hanswer : ∀ e, (p.flight.bind fun f => p.answer setup f f.stage e) = some q →
      ∃ tag effects, Emits p q tag effects := by
    intro e he
    obtain ⟨f, -, hq⟩ := Option.bind_eq_some_iff.mp he
    exact ⟨_, answer_emits hq⟩
  cases e with
  | enqueue item now =>
    cases hstep
    exact enqueue_emits
  | take now embeddingTs =>
    simp only [Pipeline.step] at hstep
    split at hstep
    · cases hstep
      exact ⟨_, take_emits⟩
    · cases hstep
  | replaceSection s inst =>
    cases hstep
    exact ⟨some 0, [], emits_nothing rfl rfl rfl rfl⟩
  | setNewsMaxAge seconds =>
    cases hstep
    exact ⟨some 0, [], emits_nothing rfl rfl rfl rfl⟩
  | start =>
    cases hstep
    exact ⟨some 0, [], emits_nothing rfl rfl rfl rfl⟩
  | stop =>
    simp only [Pipeline.step] at hstep
    split at hstep <;> cases hstep
    · exact ⟨some 0, [], emits_nothing rfl rfl rfl rfl⟩
    · exact ⟨some 0, [], emits_nothing rfl rfl rfl rfl⟩
  | embedded => exact hanswer _ hstep
  | analyzed => exact hanswer _ hstep
  | refreshed => exact hanswer _ hstep
  | decided => exact hanswer _ hstep
  | bought => exact hanswer _ hstep

def PipelineRuns (setup : PipelineSetup ι) (sections : PipelineSection → ι) (newsMaxAge : Option ℚ)
    (maxlen : ℕ) (es : List (PipelineEvent ι)) (p : Pipeline ι) : Prop :=
  Transition.Run (fun p e q => p.step setup e = some q) (.init sections newsMaxAge maxlen) es p

variable {sections : PipelineSection → ι} {newsMaxAge : Option ℚ} {maxlen : ℕ}
  {es : List (PipelineEvent ι)}

structure Logged (maxlen : ℕ) (p : Pipeline ι) : Prop where
  embedding : p.embeddingLog = .of maxlen (p.trace.filterMap fun e => e.2.embeddingRow?)
  analyzer : p.analyzerLog = .of maxlen (p.trace.filterMap fun e => e.2.analyzerRow?)
  entry : p.entryLog = .of maxlen (p.trace.filterMap fun e => e.2.entryRow?)

theorem Emits.logged (h : Emits p q tag effects) (hp : Logged maxlen p) : Logged maxlen q := by
  have hlog : ∀ {E : Type} [LogEntry E] (row : PipelineEffect ι → Option E) {log log' : SectionLog E},
      log' = (effects.filterMap row).foldl .append log →
      log = .of maxlen (p.trace.filterMap fun e => row e.2) →
      log' = .of maxlen (q.trace.filterMap fun e => row e.2) := by
    intro E _ row log log' hlog' hlog
    rw [hlog', hlog, h.trace, List.filterMap_append, List.filterMap_map]
    rw [SectionLog.of_append]
    rfl
  exact ⟨hlog _ h.embeddingLog hp.embedding, hlog _ h.analyzerLog hp.analyzer, hlog _ h.entryLog hp.entry⟩

theorem PipelineRuns.logged (h : PipelineRuns setup sections newsMaxAge maxlen es p) : Logged maxlen p := by
  refine Transition.Run.invariant (fun p e q hp hstep => ?_) h ⟨rfl, rfl, rfl⟩
  obtain ⟨_, _, hemits⟩ := step_emits hstep
  exact hemits.logged hp

/-- An effect without an item is a row for one the queue had no room for. -/
def Untagged (p : Pipeline ι) : Prop :=
  ∀ e, (none, e) ∈ p.trace → ∃ item now depth, e = .embeddingRow (overflowRow item now depth)

theorem Emits.untagged (h : Emits p q tag effects) (hp : Untagged p) : Untagged q := by
  intro e he
  rw [h.trace, List.mem_append] at he
  rcases he with he | he
  · exact hp e he
  · obtain ⟨e', he', heq⟩ := List.mem_map.mp he
    cases heq
    exact h.overflow rfl _ he'

theorem PipelineRuns.untagged (h : PipelineRuns setup sections newsMaxAge maxlen es p) : Untagged p := by
  refine Transition.Run.invariant (fun p e q hp hstep => ?_) h (by simp [Untagged, Pipeline.init])
  obtain ⟨_, _, hemits⟩ := step_emits hstep
  exact hemits.untagged hp

theorem PipelineRuns.serial (h : PipelineRuns setup sections newsMaxAge maxlen es p) : Serial setup p :=
  Transition.Run.invariant (fun _ _ _ hs he => serial_step hs he) h (serial_init _ _ _)

theorem known_self (a : Answers ι) (stage : Stage) : a.known a stage = a := by
  cases stage <;> rfl

/-- What has been done for an item taken is a beginning of its `_process`. -/
theorem Serial.begun {a : Answers ι} {item : NewsItem} (h : Serial setup p) (ha : p.answers[n]? = some a)
    (hitem : p.accepted[n]? = some item) : p.effectsOf n <+: a.process setup item := by
  by_cases hfly : ∃ f, p.flight = some f ∧ f.index = n
  · obtain ⟨f, hf, rfl⟩ := hfly
    have hflying := h.flying f hf
    obtain rfl : f.item = item := Option.some.inj (hflying.accepted ▸ hitem)
    have hreached := hflying.reached a ha a
    rw [known_self] at hreached
    exact ⟨_, hreached.symm⟩
  · exact (h.settled n a item ha hitem fun f hf hn => hfly ⟨f, hf, hn⟩).1

/-- The items are worked on in the order they were accepted, one at a time, and each gets
the effects `_process` has on its own answers: all of them once it is done with, the
first of them while it is in flight or where it was cut off. -/
theorem pipeline_serial (h : PipelineRuns setup sections newsMaxAge maxlen es p) :
    p.accepted.drop p.answers.length = p.queue ∧
      (0 < setup.queueMaxsize → (p.queue.length : ℤ) ≤ setup.queueMaxsize) ∧
      (p.trace.filterMap Prod.fst).Pairwise (· ≤ ·) ∧
      (∀ n a item, p.answers[n]? = some a → p.accepted[n]? = some item →
        p.effectsOf n <+: a.process setup item ∧
          (n ∉ p.cut → (∀ f, p.flight = some f → f.index ≠ n) →
            p.effectsOf n = a.process setup item)) ∧
      (∀ n, p.answers.length ≤ n → p.effectsOf n = []) ∧ Logged maxlen p := by
  have hserial := h.serial
  refine ⟨hserial.waiting, hserial.room, hserial.ordered, ?_, fun n => hserial.effectsOf_untaken, h.logged⟩
  intro n a item ha hitem
  exact ⟨hserial.begun ha hitem, fun hcut hidle => (hserial.settled n a item ha hitem hidle).2 hcut⟩

end OpenPoly
