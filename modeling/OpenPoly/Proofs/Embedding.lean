import OpenPoly.Lib.Dictionary
import OpenPoly.Lib.Run
import OpenPoly.Spec.Embedding

/-! The warm cache: what a cycle keeps, what it encodes, and what the match returns. -/

namespace OpenPoly

open Transition Dictionary

variable {V H S : Type} [DecidableEq H] {x : Embedder V H S} {m : EmbeddingManager V H}

def Embedder.vector (x : Embedder V H S) (text : String) : V := x.normalize (x.embed text)

def EmbeddingManager.reuse (x : Embedder V H S) (m : EmbeddingManager V H) (market : TitledMarket) : Option V :=
  if m.textHashes.lookup market.marketId = some (x.hash (market.text m.maxQuestionChars)) then
    m.vectors.lookup market.marketId
  else none

def EmbeddingManager.missOf (x : Embedder V H S) (m : EmbeddingManager V H) (market : TitledMarket) :
    String × String × H :=
  (market.marketId, market.text m.maxQuestionChars, x.hash (market.text m.maxQuestionChars))

theorem warm_visit (pass : WarmPass V H) (market : TitledMarket) :
    m.visit x pass market =
      match m.reuse x market with
      | some cached =>
        { pass with
          nextVectors := pass.nextVectors.insert market.marketId cached
          nextHashes := pass.nextHashes.insert market.marketId (x.hash (market.text m.maxQuestionChars)) }
      | none => { pass with misses := pass.misses ++ [m.missOf x market] } := by
  unfold EmbeddingManager.visit EmbeddingManager.reuse EmbeddingManager.missOf
  cases m.vectors.lookup market.marketId with
  | none => simp
  | some cached =>
    dsimp only
    split_ifs <;> rfl

def EmbeddingManager.kept (x : Embedder V H S) (m : EmbeddingManager V H) (markets : List TitledMarket) :
    List TitledMarket :=
  markets.filter fun market => (m.reuse x market).isSome

def EmbeddingManager.missed (x : Embedder V H S) (m : EmbeddingManager V H) (markets : List TitledMarket) :
    List TitledMarket :=
  markets.filter fun market => (m.reuse x market).isNone

def EmbeddingManager.keptVectors (x : Embedder V H S) (m : EmbeddingManager V H) (markets : List TitledMarket) :
    List (String × V) :=
  markets.filterMap fun market => (m.reuse x market).map (market.marketId, ·)

def EmbeddingManager.hashOf (x : Embedder V H S) (m : EmbeddingManager V H) (market : TitledMarket) : String × H :=
  (market.marketId, x.hash (market.text m.maxQuestionChars))

theorem keptVectors_keys (markets : List TitledMarket) :
    (m.keptVectors x markets).map Prod.fst = (m.kept x markets).map TitledMarket.marketId := by
  induction markets with
  | nil => rfl
  | cons market markets ih =>
    unfold EmbeddingManager.keptVectors EmbeddingManager.kept at ih ⊢
    cases hreuse : m.reuse x market with
    | none => simpa [hreuse] using ih
    | some v => simpa [hreuse] using ih

/-- What the pass over the catalog leaves. -/
theorem pass_spec {markets : List TitledMarket} (hids : (markets.map TitledMarket.marketId).Nodup) :
    Holds (markets.foldl (m.visit x) .empty).nextVectors (m.keptVectors x markets) ∧
      Holds (markets.foldl (m.visit x) .empty).nextHashes ((m.kept x markets).map (m.hashOf x)) ∧
      (markets.foldl (m.visit x) .empty).misses = (m.missed x markets).map (m.missOf x) := by
  induction markets using List.reverseRecOn with
  | nil => exact ⟨holds_empty, holds_empty, rfl⟩
  | append_singleton markets market ih =>
    rw [List.map_append, List.nodup_append] at hids
    obtain ⟨hids, -, hdisjoint⟩ := hids
    have hnew : market.marketId ∉ markets.map TitledMarket.marketId :=
      fun hmem => hdisjoint _ hmem _ (List.mem_singleton_self _) rfl
    obtain ⟨hvectors, hhashes, hmisses⟩ := ih hids
    rw [List.foldl_append, List.foldl_cons, List.foldl_nil, warm_visit]
    have hkeptNew : market.marketId ∉ (m.kept x markets).map TitledMarket.marketId :=
      fun hmem => hnew ((List.filter_sublist.map _).subset hmem)
    unfold EmbeddingManager.keptVectors EmbeddingManager.kept EmbeddingManager.missed at *
    cases hreuse : m.reuse x market with
    | none =>
      simp only [List.filterMap_append, List.filter_append, List.map_append, hmisses]
      simpa [hreuse] using ⟨hvectors, hhashes⟩
    | some v =>
      have hkeys := keptVectors_keys (x := x) (m := m) markets
      unfold EmbeddingManager.keptVectors EmbeddingManager.kept at hkeys
      have hinsert := hvectors.insert (hkeys ▸ hkeptNew) v
      have hhash : market.marketId ∉ ((markets.filter fun market => (m.reuse x market).isSome).map
          (m.hashOf x)).map Prod.fst := by
        rw [List.map_map]
        exact hkeptNew
      have hinsertHash := hhashes.insert hhash (x.hash (market.text m.maxQuestionChars))
      simp only [List.filterMap_append, List.filter_append, List.map_append, hmisses]
      refine ⟨?_, ?_, ?_⟩
      · simpa [hreuse] using hinsert
      · simpa [hreuse, EmbeddingManager.hashOf] using hinsertHash
      · simp [hreuse]

/-- The catalog is what is kept and what is missed. -/
theorem kept_missed_perm (markets : List TitledMarket) :
    (m.kept x markets ++ m.missed x markets).Perm markets := by
  have hnone : (fun market => (m.reuse x market).isNone) = fun market => !(m.reuse x market).isSome := by
    funext market
    cases m.reuse x market <;> rfl
  unfold EmbeddingManager.kept EmbeddingManager.missed
  rw [hnone]
  exact List.filter_append_perm _ markets

theorem fill_spec {markets : List TitledMarket} (hids : (markets.map TitledMarket.marketId).Nodup) :
    Holds ((markets.foldl (m.visit x) .empty).fill x).nextVectors
        (m.keptVectors x markets ++ (m.missed x markets).map
          fun market => (market.marketId, x.vector (market.text m.maxQuestionChars))) ∧
      Holds ((markets.foldl (m.visit x) .empty).fill x).nextHashes
        ((m.kept x markets).map (m.hashOf x) ++ (m.missed x markets).map (m.hashOf x)) := by
  obtain ⟨hvectors, hhashes, hmisses⟩ := pass_spec (x := x) (m := m) hids
  have hfill : ∀ pass : WarmPass V H, pass.misses = (m.missed x markets).map (m.missOf x) →
      (pass.fill x).nextVectors = (m.missed x markets).foldl
        (fun d market => d.insert market.marketId (x.vector (market.text m.maxQuestionChars))) pass.nextVectors ∧
      (pass.fill x).nextHashes = (m.missed x markets).foldl
        (fun d market => d.insert market.marketId (x.hash (market.text m.maxQuestionChars))) pass.nextHashes := by
    intro pass hpass
    unfold WarmPass.fill
    rw [hpass]
    generalize m.missed x markets = missed
    clear hpass
    induction missed generalizing pass with
    | nil => exact ⟨rfl, rfl⟩
    | cons market missed ih => exact ih _
  obtain ⟨hfillVectors, hfillHashes⟩ := hfill _ hmisses
  have hkeys : ((m.kept x markets).map TitledMarket.marketId ++
      (m.missed x markets).map TitledMarket.marketId).Nodup := by
    rw [← List.map_append]
    exact ((kept_missed_perm markets).map _).nodup_iff.mpr hids
  rw [hfillVectors, hfillHashes]
  refine ⟨hvectors.foldl_insert _ _ ?_, hhashes.foldl_insert _ _ ?_⟩
  · rw [keptVectors_keys]
    exact hkeys
  · rw [List.map_map]
    exact hkeys

/-- A cycle that went through, by the entries it leaves. -/
theorem refresh_ok {snapshot : MarketSnapshot} {faults : WarmFaults} {m' : EmbeddingManager V H} {n : ℕ}
    (h : m.refresh x snapshot faults = (m', .ok n)) :
    m'.maxQuestionChars = m.maxQuestionChars ∧
      Holds m'.vectors (m.keptVectors x snapshot.markets ++ (m.missed x snapshot.markets).map
        fun market => (market.marketId, x.vector (market.text m.maxQuestionChars))) ∧
      Holds m'.textHashes ((m.kept x snapshot.markets).map (m.hashOf x) ++
        (m.missed x snapshot.markets).map (m.hashOf x)) := by
  unfold EmbeddingManager.refresh at h
  dsimp only at h
  by_cases hmisses : (snapshot.markets.foldl (m.visit x) .empty).misses = []
  · rw [if_pos hmisses] at h
    obtain ⟨rfl, -⟩ := Prod.mk.inj h
    obtain ⟨hvectors, hhashes, hmissed⟩ := pass_spec (x := x) (m := m) snapshot.ids
    have hnil : m.missed x snapshot.markets = [] := List.map_eq_nil_iff.mp (hmissed.symm.trans hmisses)
    rw [hnil, List.map_nil, List.append_nil, List.map_nil, List.append_nil]
    exact ⟨rfl, hvectors, hhashes⟩
  · rw [if_neg hmisses] at h
    cases hencode : faults.encode with
    | some exc => simp [hencode] at h
    | none =>
      rw [hencode] at h
      dsimp only at h
      split at h
      · cases h
      · obtain ⟨rfl, -⟩ := Prod.mk.inj h
        exact ⟨rfl, fill_spec snapshot.ids⟩

/-- A cycle that failed changes nothing. -/
theorem refresh_error {snapshot : MarketSnapshot} {faults : WarmFaults} {exc : PyErr}
    (h : (m.refresh x snapshot faults).2 = .error exc) : (m.refresh x snapshot faults).1 = m := by
  unfold EmbeddingManager.refresh at h ⊢
  dsimp only at h ⊢
  by_cases hmisses : (snapshot.markets.foldl (m.visit x) .empty).misses = []
  · rw [if_pos hmisses] at h
    cases h
  · rw [if_neg hmisses] at h ⊢
    cases hencode : faults.encode with
    | some exc => rfl
    | none =>
      rw [hencode] at h
      dsimp only at h ⊢
      split at h
      · rfl
      · cases h

/-- A vector is that of the text its hash stands for. -/
def Sound (x : Embedder V H S) (texts : Set String) (m : EmbeddingManager V H) : Prop :=
  ∀ k v h, m.vectors.lookup k = some v → m.textHashes.lookup k = some h →
    ∃ t ∈ texts, h = x.hash t ∧ v = x.vector t

variable {texts : Set String}

theorem reuse_vector (hsound : Sound x texts m) (hhash : Set.InjOn x.hash texts) {market : TitledMarket}
    (htext : market.text m.maxQuestionChars ∈ texts) {v : V} (h : m.reuse x market = some v) :
    v = x.vector (market.text m.maxQuestionChars) := by
  unfold EmbeddingManager.reuse at h
  split_ifs at h with hsame
  obtain ⟨t, ht, heq, hv⟩ := hsound _ _ _ h hsame
  rw [hv, hhash ht htext heq.symm]

/-- A cycle that went through leaves the vector of each market's text. -/
theorem refresh_lookup (hsound : Sound x texts m) (hhash : Set.InjOn x.hash texts) {snapshot : MarketSnapshot}
    {faults : WarmFaults} {m' : EmbeddingManager V H} {n : ℕ}
    (htexts : ∀ market ∈ snapshot.markets, market.text m.maxQuestionChars ∈ texts)
    (h : m.refresh x snapshot faults = (m', .ok n)) (k : String) (v : V) :
    m'.vectors.lookup k = some v ↔
      ∃ market ∈ snapshot.markets, market.marketId = k ∧ v = x.vector (market.text m.maxQuestionChars) := by
  obtain ⟨-, hvectors, -⟩ := refresh_ok h
  rw [hvectors k v, List.mem_append]
  constructor
  · rintro (hkept | hmissed)
    · obtain ⟨market, hmem, hv⟩ := List.mem_filterMap.mp hkept
      obtain ⟨v', hreuse, heq⟩ := Option.map_eq_some_iff.mp hv
      obtain ⟨rfl, rfl⟩ := Prod.mk.inj heq
      exact ⟨market, hmem, rfl, reuse_vector hsound hhash (htexts market hmem) hreuse⟩
    · obtain ⟨market, hmem, heq⟩ := List.mem_map.mp hmissed
      obtain ⟨rfl, rfl⟩ := Prod.mk.inj heq
      exact ⟨market, List.mem_of_mem_filter hmem, rfl, rfl⟩
  · rintro ⟨market, hmem, rfl, rfl⟩
    cases hreuse : m.reuse x market with
    | some v =>
      refine .inl (List.mem_filterMap.mpr ⟨market, hmem, ?_⟩)
      rw [hreuse, ← reuse_vector hsound hhash (htexts market hmem) hreuse]
      rfl
    | none =>
      refine .inr (List.mem_map.mpr ⟨market, List.mem_filter.mpr ⟨hmem, ?_⟩, rfl⟩)
      rw [hreuse]
      rfl

theorem refresh_hash {snapshot : MarketSnapshot} {faults : WarmFaults} {m' : EmbeddingManager V H} {n : ℕ}
    (h : m.refresh x snapshot faults = (m', .ok n)) {k : String} {digest : H}
    (hdigest : m'.textHashes.lookup k = some digest) :
    ∃ market ∈ snapshot.markets, market.marketId = k ∧ digest = x.hash (market.text m.maxQuestionChars) := by
  obtain ⟨-, -, hhashes⟩ := refresh_ok h
  rw [hhashes k digest, ← List.map_append] at hdigest
  obtain ⟨market, hmem, heq⟩ := List.mem_map.mp hdigest
  obtain ⟨rfl, rfl⟩ := Prod.mk.inj heq
  exact ⟨market, (kept_missed_perm snapshot.markets).subset hmem, rfl, rfl⟩

theorem refresh_sound (hsound : Sound x texts m) (hhash : Set.InjOn x.hash texts) {snapshot : MarketSnapshot}
    {faults : WarmFaults} {m' : EmbeddingManager V H} {n : ℕ}
    (htexts : ∀ market ∈ snapshot.markets, market.text m.maxQuestionChars ∈ texts)
    (h : m.refresh x snapshot faults = (m', .ok n)) : Sound x texts m' := by
  intro k v digest hv hdigest
  obtain ⟨market, hmem, hid, rfl⟩ := (refresh_lookup hsound hhash htexts h k v).mp hv
  obtain ⟨market', hmem', hid', rfl⟩ := refresh_hash h hdigest
  obtain rfl := List.inj_on_of_nodup_map snapshot.ids hmem hmem' (hid.trans hid'.symm)
  exact ⟨_, htexts market hmem, rfl, rfl⟩

omit [DecidableEq H] in
theorem start_sound {rows : List (EmbeddingRow V H)} {maxQuestionChars : ℕ} {persists : Bool}
    (hrows : ∀ row ∈ rows, ∃ t ∈ texts, row.textHash = x.hash t ∧ x.normalize row.vector = x.vector t) :
    Sound x texts (.start x maxQuestionChars persists rows) := by
  unfold Sound EmbeddingManager.start
  induction rows using List.reverseRecOn with
  | nil =>
    intro k v h hv
    simp at hv
  | append_singleton rows row ih =>
    intro k v h hv hh
    dsimp only at ih hv hh
    rw [List.foldl_append, List.foldl_cons, List.foldl_nil] at hv hh
    by_cases hk : k = row.marketId
    · subst hk
      rw [AList.lookup_insert] at hv hh
      obtain rfl := Option.some.inj hv
      obtain rfl := Option.some.inj hh
      exact hrows row (List.mem_append_right _ (List.mem_singleton_self row))
    · rw [AList.lookup_insert_ne hk] at hv hh
      exact ih (fun r hr => hrows r (List.mem_append_left _ hr)) k v h hv hh

variable [LinearOrder S]

/-- A market with its score: it is warm, and reaches the threshold. -/
def Scores (x : Embedder V H S) (m : EmbeddingManager V H) (newsText : String) (threshold : S)
    (c : TitledMarket × S) : Prop :=
  ∃ v, m.vectors.lookup c.1.marketId = some v ∧ x.dot (x.vector newsText) v = some c.2 ∧ threshold ≤ c.2

structure Ranked (x : Embedder V H S) (m : EmbeddingManager V H) (newsText : String) (markets : List TitledMarket)
    (topK : ℕ) (threshold : S) (out : List (TitledMarket × S)) : Prop where
  length_le : out.length ≤ topK
  scores : ∀ c ∈ out, c.1 ∈ markets ∧ Scores x m newsText threshold c
  sorted : out.Pairwise fun a b => b.2 ≤ a.2
  best : ∀ c, c.1 ∈ markets → Scores x m newsText threshold c → c ∉ out → topK ≤ out.length ∧ ∀ c' ∈ out, c.2 ≤ c'.2

omit [DecidableEq H] in
theorem scored_iff {newsText : String} {threshold : S} {market : TitledMarket} {c : TitledMarket × S} :
    m.scored x (x.vector newsText) threshold market = some c ↔ c.1 = market ∧ Scores x m newsText threshold c := by
  unfold EmbeddingManager.scored Scores
  obtain ⟨market', score⟩ := c
  simp only [Option.map_eq_some_iff, Option.filter_eq_some_iff, Option.bind_eq_some_iff, decide_eq_true_eq,
    Prod.mk.injEq]
  constructor
  · rintro ⟨score', ⟨⟨v, hv, hdot⟩, hle⟩, rfl, rfl⟩
    exact ⟨rfl, v, hv, hdot, hle⟩
  · rintro ⟨rfl, v, hv, hdot, hle⟩
    exact ⟨score, ⟨⟨v, hv, hdot⟩, hle⟩, rfl, rfl⟩

omit [DecidableEq H] in
theorem mem_scored {newsText : String} {threshold : S} {markets : List TitledMarket} {c : TitledMarket × S} :
    c ∈ markets.filterMap (m.scored x (x.vector newsText) threshold) ↔
      c.1 ∈ markets ∧ Scores x m newsText threshold c := by
  rw [List.mem_filterMap]
  constructor
  · rintro ⟨market, hmem, hc⟩
    obtain ⟨rfl, hscores⟩ := scored_iff.mp hc
    exact ⟨hmem, hscores⟩
  · rintro ⟨hmem, hscores⟩
    exact ⟨c.1, hmem, scored_iff.mpr ⟨rfl, hscores⟩⟩

instance : Std.Total (byScore (S := S)) := ⟨fun a b => le_total b.2 a.2⟩

instance : IsTrans (TitledMarket × S) byScore := ⟨fun _ _ _ h h' => le_trans h' h⟩

omit [DecidableEq H] in
theorem matchNews_ranked {newsText : String} {markets : List TitledMarket} {topK : ℕ} {threshold : S}
    {fault : Option PyErr} {out : List (TitledMarket × S)}
    (h : m.matchNews x newsText markets topK threshold fault = .ok out) :
    Ranked x m newsText markets topK threshold out := by
  unfold EmbeddingManager.matchNews at h
  by_cases hempty : markets = [] ∨ m.vectors.keys = []
  · rw [if_pos hempty] at h
    cases h
    refine ⟨Nat.zero_le _, by simp, .nil, fun c hmem hscores => ?_⟩
    rcases hempty with rfl | hkeys
    · cases hmem
    · obtain ⟨v, hv, -⟩ := hscores
      have hin : c.1.marketId ∈ m.vectors.keys := AList.lookup_isSome.mp (hv ▸ rfl)
      rw [hkeys] at hin
      cases hin
  rw [if_neg hempty] at h
  cases hfault : fault with
  | some exc => simp [hfault] at h
  | none =>
    rw [hfault] at h
    dsimp only at h
    set ranked := (markets.filterMap (m.scored x (x.vector newsText) threshold)).insertionSort byScore with hranked
    obtain rfl : ranked.take topK = out := Except.ok.inj h
    have hsorted : ranked.Pairwise byScore := List.pairwise_insertionSort byScore _
    have hmem : ∀ c, c ∈ ranked ↔ c.1 ∈ markets ∧ Scores x m newsText threshold c :=
      fun c => ((List.perm_insertionSort byScore _).mem_iff).trans mem_scored
    refine ⟨List.length_take_le _ _, fun c hc => (hmem c).mp (List.mem_of_mem_take hc),
      hsorted.sublist (List.take_sublist _ _), fun c hin hscores hout => ?_⟩
    have hc : c ∈ ranked.drop topK := by
      have hall := (hmem c).mpr ⟨hin, hscores⟩
      rw [← List.take_append_drop topK ranked, List.mem_append] at hall
      exact hall.resolve_left hout
    have hsplit := hsorted
    rw [← List.take_append_drop topK ranked, List.pairwise_append] at hsplit
    refine ⟨?_, fun c' hc' => hsplit.2.2 c' hc' c hc⟩
    have hlt : topK < ranked.length := by
      by_contra hge
      rw [List.drop_eq_nil_of_le (not_lt.mp hge)] at hc
      cases hc
    rw [List.length_take]
    omega

/-- The cache against the catalog the last cycle that went through saw. -/
structure WarmRun.Warm (x : Embedder V H S) (w : WarmRun V H) : Prop where
  keys : ∀ snapshot ∈ w.warmed, ∀ id,
    id ∈ w.manager.vectors ↔ id ∈ snapshot.markets.map TitledMarket.marketId
  vectors : ∀ snapshot ∈ w.warmed, ∀ market ∈ snapshot.markets,
    w.manager.vectors.lookup market.marketId = some (x.vector (market.text w.manager.maxQuestionChars))

structure WarmInv (x : Embedder V H S) (texts : Set String) (maxQuestionChars : ℕ) (w : WarmRun V H) : Prop where
  chars : w.manager.maxQuestionChars = maxQuestionChars
  sound : Sound x texts w.manager
  warm : w.Warm x

omit [LinearOrder S] in
theorem warm_step {maxQuestionChars : ℕ} {w : WarmRun V H} {e : WarmEvent} (h : WarmInv x texts maxQuestionChars w)
    (hhash : Set.InjOn x.hash texts)
    (htexts : ∀ market ∈ e.snapshot.markets, market.text maxQuestionChars ∈ texts) :
    WarmInv x texts maxQuestionChars (w.step x e) := by
  obtain ⟨hchars, hsound, hwarm⟩ := h
  subst hchars
  unfold WarmRun.step
  rcases hrefresh : w.manager.refresh x e.snapshot e.faults with ⟨m', result⟩
  cases result with
  | error exc =>
    have hsame := refresh_error (congrArg Prod.snd hrefresh)
    rw [hrefresh] at hsame
    dsimp only at hsame ⊢
    rw [hsame]
    exact ⟨rfl, hsound, hwarm.keys, hwarm.vectors⟩
  | ok n =>
    have hlookup := refresh_lookup hsound hhash htexts hrefresh
    have hchars := (refresh_ok hrefresh).1
    refine ⟨hchars, refresh_sound hsound hhash htexts hrefresh, fun snapshot heq id => ?_,
      fun snapshot heq market hmem => ?_⟩
    · obtain rfl := Option.some.inj heq
      show id ∈ m'.vectors ↔ _
      rw [← AList.lookup_isSome, Option.isSome_iff_exists, List.mem_map]
      constructor
      · rintro ⟨v, hv⟩
        obtain ⟨market, hmem, hid, -⟩ := (hlookup id v).mp hv
        exact ⟨market, hmem, hid⟩
      · rintro ⟨market, hmem, rfl⟩
        exact ⟨_, (hlookup _ _).mpr ⟨market, hmem, rfl, rfl⟩⟩
    · obtain rfl := Option.some.inj heq
      show m'.vectors.lookup market.marketId = some (x.vector (market.text m'.maxQuestionChars))
      rw [hchars]
      exact (hlookup _ _).mpr ⟨market, hmem, rfl, rfl⟩

/-- Over every run of warm cycles the cache is that of the last one that went through, a
cycle that fails changes nothing, and the match returns the best of the warm markets. -/
theorem warm_cycles {rows : List (EmbeddingRow V H)} {maxQuestionChars : ℕ} {persists : Bool} {es : List WarmEvent}
    {w : WarmRun V H} (hhash : Set.InjOn x.hash texts)
    (hrows : ∀ row ∈ rows, ∃ t ∈ texts, row.textHash = x.hash t ∧ x.normalize row.vector = x.vector t)
    (htexts : ∀ e ∈ es, ∀ market ∈ e.snapshot.markets, market.text maxQuestionChars ∈ texts)
    (run : Run (fun w e w' => w' = w.step x e) ⟨.start x maxQuestionChars persists rows, none⟩ es w) :
    w.Warm x ∧
      (∀ snapshot faults exc, (w.manager.refresh x snapshot faults).2 = .error exc →
        (w.manager.refresh x snapshot faults).1 = w.manager) ∧
      ∀ newsText markets topK threshold fault out,
        w.manager.matchNews x newsText markets topK threshold fault = .ok out →
        Ranked x w.manager newsText markets topK threshold out := by
  have hinv : WarmInv x texts maxQuestionChars w := by
    have hguarded : Run (guarded (fun _ (e : WarmEvent) => ∀ market ∈ e.snapshot.markets,
        market.text maxQuestionChars ∈ texts) fun w e w' => w' = WarmRun.step x w e) _ es w :=
      run.guard fun e he _ => htexts e he
    refine hguarded.invariant (fun w e w' hw hstep => ?_) ⟨rfl, start_sound hrows, ?_, ?_⟩
    · obtain ⟨hallowed, rfl⟩ := hstep
      exact warm_step hw hhash hallowed
    · exact fun _ h => by cases h
    · exact fun _ h => by cases h
  exact ⟨hinv.warm, fun snapshot faults exc => refresh_error, fun _ _ _ _ _ _ => matchNews_ranked⟩

def textEmbedder : Embedder String String ℕ where
  embed := id
  normalize := id
  hash := id
  dot news text := some (if news = text then 2 else 1)

def firstCatalog : MarketSnapshot := ⟨[⟨"m1", "rates up"⟩], by decide⟩

def secondCatalog : MarketSnapshot := ⟨[⟨"m2", "rates up"⟩, ⟨"m1", "rates down"⟩], by decide⟩

/-- The cycle that meets the new title fails at the encoder, the next one goes through. -/
def titleChange : List WarmEvent :=
  [⟨firstCatalog, {}⟩, ⟨secondCatalog, { encode := some (.other "RuntimeError") }⟩, ⟨secondCatalog, {}⟩]

theorem warm_cycles_sample :
    ∃ w, Run (fun w e w' => w' = WarmRun.step textEmbedder w e) ⟨.start textEmbedder 200 true [], none⟩ titleChange w ∧
      w.warmed.map MarketSnapshot.markets = some secondCatalog.markets ∧ w.Warm textEmbedder ∧
      Ranked textEmbedder w.manager "rates up" secondCatalog.markets 1 1 [(⟨"m2", "rates up"⟩, 2)] := by
  have hrun := run_foldl (WarmRun.step textEmbedder)
    ⟨.start textEmbedder 200 true [], none⟩ titleChange
  have hwarm := warm_cycles (fun _ _ _ _ h => h) (fun _ h => by cases h) (fun _ _ _ _ => Set.mem_univ _) hrun
  refine ⟨_, hrun, by decide +kernel, hwarm.1, hwarm.2.2 _ _ _ _ none _ ?_⟩
  decide +kernel

end OpenPoly
