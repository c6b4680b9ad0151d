import Mathlib.Data.List.AList
import Mathlib.Data.List.Sort
import OpenPoly.Spec.Python

/-! `EmbeddingManager`: the warm cycle that keeps one vector per market of the catalog, and
the match of a news text against them. -/

namespace OpenPoly

/-- What the manager is handed: the encoder, one vector per text, and numpy's arithmetic on
vectors, where no score is a NaN. `hash` is `_text_hash`. -/
structure Embedder (V H S : Type) where
  embed : String → V
  normalize : V → V
  hash : String → H
  dot : V → V → Option S

/-- A market, as the embedding reads it. -/
structure TitledMarket where
  marketId : String
  question : String
  deriving DecidableEq

/-- `store.snapshot()`: the values of a dictionary by market id. -/
structure MarketSnapshot where
  markets : List TitledMarket
  ids : (markets.map TitledMarket.marketId).Nodup

structure EmbeddingManager (V H : Type) where
  vectors : AList fun _ : String => V
  textHashes : AList fun _ : String => H
  maxQuestionChars : ℕ
  /-- There is a store to persist to. -/
  persists : Bool

/-- What the encoder and the store's write raise in a cycle. -/
structure WarmFaults where
  encode : Option PyErr := none
  upsert : Option PyErr := none

/-- The dictionaries a cycle builds, and the markets it has to encode. -/
structure WarmPass (V H : Type) where
  nextVectors : AList fun _ : String => V
  nextHashes : AList fun _ : String => H
  misses : List (String × String × H)

variable {V H S : Type} [DecidableEq H]

def WarmPass.empty : WarmPass V H := ⟨∅, ∅, []⟩

/-- `market.question[: self._max_question_chars]`. -/
def TitledMarket.text (maxQuestionChars : ℕ) (market : TitledMarket) : String :=
  String.ofList (market.question.toList.take maxQuestionChars)

/-- One market of the catalog: its vector is kept where its text is the one embedded. -/
def EmbeddingManager.visit (x : Embedder V H S) (m : EmbeddingManager V H) (pass : WarmPass V H)
    (market : TitledMarket) : WarmPass V H :=
  let text := market.text m.maxQuestionChars
  let textHash := x.hash text
  match m.vectors.lookup market.marketId with
  | some cached =>
    if m.textHashes.lookup market.marketId = some textHash then
      { pass with
        nextVectors := pass.nextVectors.insert market.marketId cached
        nextHashes := pass.nextHashes.insert market.marketId textHash }
    else { pass with misses := pass.misses ++ [(market.marketId, text, textHash)] }
  | none => { pass with misses := pass.misses ++ [(market.marketId, text, textHash)] }

def WarmPass.fill (x : Embedder V H S) (pass : WarmPass V H) : WarmPass V H :=
  let encoded := pass.misses.map fun miss => x.embed miss.2.1
  (pass.misses.zip encoded).foldl
    (fun next entry =>
      { next with
        nextVectors := next.nextVectors.insert entry.1.1 (x.normalize entry.2)
        nextHashes := next.nextHashes.insert entry.1.1 entry.1.2.2 }) pass

def EmbeddingManager.swap (m : EmbeddingManager V H) (pass : WarmPass V H) : EmbeddingManager V H :=
  { m with vectors := pass.nextVectors, textHashes := pass.nextHashes }

def EmbeddingManager.refresh (x : Embedder V H S) (m : EmbeddingManager V H) (snapshot : MarketSnapshot)
    (faults : WarmFaults) : EmbeddingManager V H × Except PyErr ℕ :=
  let pass := snapshot.markets.foldl (m.visit x) .empty
  if pass.misses = [] then (m.swap pass, .ok 0)
  else
    match faults.encode with
    | some exc => (m, .error exc)
    | none =>
      match if m.persists then faults.upsert else none with
      | some exc => (m, .error exc)
      | none => (m.swap (pass.fill x), .ok pass.misses.length)

/-- The score of a market, where it is warm and reaches the threshold. -/
def EmbeddingManager.scored [LE S] [DecidableLE S] (x : Embedder V H S) (m : EmbeddingManager V H) (news : V)
    (threshold : S) (market : TitledMarket) : Option (TitledMarket × S) :=
  (((m.vectors.lookup market.marketId).bind (x.dot news)).filter fun score => threshold ≤ score).map (market, ·)

def byScore [LE S] (a b : TitledMarket × S) : Prop := b.2 ≤ a.2

instance [LE S] [DecidableLE S] : DecidableRel (byScore (S := S)) :=
  fun a b => inferInstanceAs (Decidable (b.2 ≤ a.2))

/-- `match`. -/
def EmbeddingManager.matchNews [LE S] [DecidableLE S] (x : Embedder V H S) (m : EmbeddingManager V H)
    (newsText : String) (markets : List TitledMarket) (topK : ℕ) (threshold : S) (fault : Option PyErr) :
    Except PyErr (List (TitledMarket × S)) :=
  if markets = [] ∨ m.vectors.keys = [] then .ok []
  else
    match fault with
    | some exc => .error exc
    | none =>
      let news := x.normalize (x.embed newsText)
      .ok (((markets.filterMap (m.scored x news threshold)).insertionSort byScore).take topK)

structure EmbeddingRow (V H : Type) where
  marketId : String
  textHash : H
  vector : V

/-- A manager just started, with what `_load_cache` read. -/
def EmbeddingManager.start (x : Embedder V H S) (maxQuestionChars : ℕ) (persists : Bool)
    (rows : List (EmbeddingRow V H)) : EmbeddingManager V H where
  vectors := rows.foldl (fun d row => d.insert row.marketId (x.normalize row.vector)) ∅
  textHashes := rows.foldl (fun d row => d.insert row.marketId row.textHash) ∅
  maxQuestionChars := maxQuestionChars
  persists := persists

structure WarmEvent where
  snapshot : MarketSnapshot
  faults : WarmFaults

/-- The manager, and the catalog the last cycle that went through saw: a record for the
reader. -/
structure WarmRun (V H : Type) where
  manager : EmbeddingManager V H
  warmed : Option MarketSnapshot

/-- `_warm_loop`: an exception ends a cycle, not the loop. -/
def WarmRun.step (x : Embedder V H S) (w : WarmRun V H) (e : WarmEvent) : WarmRun V H :=
  match w.manager.refresh x e.snapshot e.faults with
  | (m, .ok _) => ⟨m, some e.snapshot⟩
  | (m, .error _) => ⟨m, w.warmed⟩

end OpenPoly
