import OpenPoly.Spec.Sizing

/-! The order book cache and what writes it: the store's newest-wins rules and
gone marks, and the source manager's sample batch, on-demand refreshes and the
hooks its books are delivered to. -/

namespace OpenPoly

/-- A fetched book and the clock at its receipt. No decision reads
`receivedAt`; the stamps the code orders books by are kept beside it. -/
structure FetchedBook where
  book : OrderBook
  receivedAt : ℚ
  deriving DecidableEq

structure CachedBook where
  fetched : FetchedBook
  fetchedAt : ℚ
  deriving DecidableEq

/-- The cached books and the gone marks of a `MarketStore`. -/
structure BookStore where
  orderBooks : String → Option CachedBook
  gone : String → Option ℚ

def BookStore.empty : BookStore := ⟨fun _ => none, fun _ => none⟩

def keptBookMaxAgeSeconds : ℚ := 90

def BookStore.predatesGoneMark (s : BookStore) (tokenId : String) (receivedAt : ℚ) : Bool :=
  (s.gone tokenId).any fun goneAt => receivedAt ≤ goneAt

def BookStore.write (s : BookStore) (b : FetchedBook) (fetchedAt : ℚ) : BookStore where
  orderBooks := Function.update s.orderBooks b.book.tokenId (some ⟨b, fetchedAt⟩)
  gone := Function.update s.gone b.book.tokenId none

def BookStore.markBookGone (s : BookStore) (tokenId : String) (goneAt : ℚ) : BookStore where
  orderBooks := Function.update s.orderBooks tokenId none
  gone := Function.update s.gone tokenId (some goneAt)

def BookStore.putOrderBook (s : BookStore) (b : FetchedBook) (fetchedAt : ℚ) : Bool × BookStore :=
  if (s.orderBooks b.book.tokenId).any fun prev => fetchedAt < prev.fetchedAt then (false, s)
  else if s.predatesGoneMark b.book.tokenId fetchedAt then (false, s)
  else (true, s.write b fetchedAt)

/-- The cached books a batch that carries `carried` starts from. -/
def BookStore.retained (s : BookStore) (carried : List String) (batchAt : ℚ) (keep : List String)
    (tokenId : String) : Option CachedBook :=
  (s.orderBooks tokenId).filter fun prev =>
    tokenId ∉ carried ∧ (batchAt < prev.fetchedAt ∨
      (tokenId ∈ keep ∧ batchAt - prev.fetchedAt ≤ keptBookMaxAgeSeconds))

/-- One batch book: `s` is the store before the batch, `acc` the set being built
and the books stored so far. -/
def BookStore.storeOne (s : BookStore) (batchAt : ℚ) (stamps : String → Option ℚ)
    (acc : BookStore × List FetchedBook) (b : FetchedBook) : BookStore × List FetchedBook :=
  let receivedAt := (stamps b.book.tokenId).getD batchAt
  if acc.1.predatesGoneMark b.book.tokenId receivedAt then acc
  else
    match (s.orderBooks b.book.tokenId).filter fun prev => receivedAt < prev.fetchedAt with
    | some prev =>
      ({ acc.1 with orderBooks := Function.update acc.1.orderBooks b.book.tokenId (some prev) }, acc.2)
    | none => (acc.1.write b receivedAt, acc.2 ++ [b])

/-- `set_order_books`: the store after the batch, and the books it stored. -/
def BookStore.setOrderBooks (s : BookStore) (books : List FetchedBook) (batchAt : ℚ)
    (stamps : String → Option ℚ) (keep : List String) : BookStore × List FetchedBook :=
  let carried := books.map fun b => b.book.tokenId
  books.foldl (s.storeOne batchAt stamps) (⟨s.retained carried batchAt keep, s.gone⟩, [])

/-- What a `/book` request came to. -/
inductive BookAnswer where
  | book (ts : ℚ) (bids asks : List Level)
  /-- A 404. -/
  | notFound
  | failed
  deriving DecidableEq

/-- One fetch of a batch; no outcome while it runs. -/
structure BookTask where
  tokenId : String
  outcome : Option (Option FetchedBook)
  deriving DecidableEq

structure Batch where
  cycleStart : ℚ
  tasks : List BookTask
  receivedAt : String → Option ℚ

/-- What has become of books so far: stored, or answered with a 404. -/
inductive BookRecord where
  | stored (b : FetchedBook)
  | notFound (tokenId : String) (goneAt : ℚ)
  deriving DecidableEq

/-- The hooks installed and the shortest time between two persisted snapshots of
a token from refreshes. -/
structure BookHooks where
  persists : Bool
  observes : Bool
  persistInterval : ℚ

/-- The manager's state as far as books go. `history` is a record for the reader
of it, which the code does not keep; `clock` is the last reading of `book_clock`. -/
structure BookFeed where
  store : BookStore
  batch : Option Batch
  heldTokens : List String
  lastPersisted : String → Option ℚ
  persisted : List FetchedBook
  observed : List FetchedBook
  history : List BookRecord
  clock : ℚ

def BookFeed.start (clock : ℚ) : BookFeed where
  store := BookStore.empty
  batch := none
  heldTokens := []
  lastPersisted := fun _ => none
  persisted := []
  observed := []
  history := []
  clock := clock

/-- One book handed to the persist hook, unless its token's last one is too
recent. -/
def persistOne (hooks : BookHooks) (throttlePersist : Bool) (now : ℚ) (s : BookFeed)
    (b : FetchedBook) : BookFeed :=
  if throttlePersist ∧ (s.lastPersisted b.book.tokenId).any fun last => now - last < hooks.persistInterval then s
  else
    { s with
      lastPersisted := Function.update s.lastPersisted b.book.tokenId (some now)
      persisted := s.persisted ++ [b] }

def BookFeed.deliverBooks (hooks : BookHooks) (throttlePersist : Bool) (now : ℚ) (s : BookFeed)
    (books : List FetchedBook) : BookFeed :=
  let s := if hooks.persists then books.foldl (persistOne hooks throttlePersist now) s else s
  if hooks.observes then { s with observed := s.observed ++ books } else s

def BookFeed.stored (s : BookFeed) (store : BookStore) (books : List FetchedBook) : BookFeed :=
  { s with store := store, history := s.history ++ books.map .stored }

/-- `_fetch_book_safely`, its answer read at `receivedAt`: a 404 evicts and marks. -/
def BookFeed.fetchBookSafely (s : BookFeed) (tokenId : String) (answer : BookAnswer)
    (goneAt receivedAt : ℚ) : Option FetchedBook × BookFeed :=
  match answer with
  | .book ts bids asks => (some ⟨⟨tokenId, ts, bids, asks⟩, receivedAt⟩, s)
  | .notFound =>
    (none, { s with
      store := s.store.markBookGone tokenId goneAt
      history := s.history ++ [.notFound tokenId goneAt] })
  | .failed => (none, s)

def BookFeed.pruneLastPersisted (hooks : BookHooks) (now : ℚ) (s : BookFeed) : BookFeed :=
  { s with lastPersisted := fun token =>
      (s.lastPersisted token).filter fun last => now - last < hooks.persistInterval }

def batchTokens (markets : List Market) : List String :=
  markets.flatMap fun m => m.yesTokenId :: m.noTokenId.toList

inductive BookEvent where
  /-- A sample cycle reads the catalog and starts its fetches. -/
  | sampleStart (markets : List Market) (prunedAt cycleStart : ℚ)
  /-- The `i`-th fetch of the batch is answered. -/
  | sampleAnswer (i : ℕ) (answer : BookAnswer) (goneAt receivedAt : ℚ)
  /-- Every fetch is answered: the batch is stored and delivered. -/
  | sampleEnd (deliveredAt : ℚ)
  /-- The sampling task is cancelled mid-batch. -/
  | sampleCancelled
  /-- `refresh_order_book` is answered. -/
  | refreshAnswer (tokenId : String) (answer : BookAnswer) (goneAt receivedAt deliveredAt : ℚ)
  /-- The held-book loop reads the open positions. -/
  | holdings (tokens : List String)
  deriving DecidableEq

/-- The books a finished batch fetched, in the order of its tasks; none while a
fetch is open. -/
def Batch.books (b : Batch) : Option (List FetchedBook) :=
  (b.tasks.mapM BookTask.outcome).map (List.filterMap id)

/-- What one event makes of the manager; `none` where it cannot occur. The
clock's readings never go back. -/
def BookFeed.step (hooks : BookHooks) (s : BookFeed) : BookEvent → Option BookFeed
  | .sampleStart markets prunedAt cycleStart =>
    if s.batch.isSome ∨ prunedAt < s.clock ∨ cycleStart < prunedAt then none
    else
      let s := { s.pruneLastPersisted hooks prunedAt with clock := cycleStart }
      if markets = [] then
        let (store, accepted) := s.store.setOrderBooks [] cycleStart (fun _ => none) s.heldTokens
        some (s.stored store accepted)
      else
        some { s with
          batch := some ⟨cycleStart, (batchTokens markets).map (⟨·, none⟩), fun _ => none⟩ }
  | .sampleAnswer i answer goneAt receivedAt =>
    if goneAt < s.clock ∨ receivedAt < goneAt then none
    else do
      let batch ← s.batch
      let task ← batch.tasks[i]?
      if task.outcome.isSome then none
      else
        let (book, s) := s.fetchBookSafely task.tokenId answer goneAt receivedAt
        some { s with
          clock := receivedAt
          batch := some { batch with
            tasks := batch.tasks.set i ⟨task.tokenId, some book⟩
            receivedAt := Function.update batch.receivedAt task.tokenId (some receivedAt) } }
  | .sampleEnd deliveredAt =>
    if deliveredAt < s.clock then none
    else do
      let batch ← s.batch
      let books ← batch.books
      let (store, accepted) :=
        s.store.setOrderBooks books batch.cycleStart batch.receivedAt s.heldTokens
      let s := { s.stored store accepted with clock := deliveredAt, batch := none }
      some (s.deliverBooks hooks false deliveredAt accepted)
  | .sampleCancelled => some { s with batch := none }
  | .refreshAnswer tokenId answer goneAt receivedAt deliveredAt =>
    if goneAt < s.clock ∨ receivedAt < goneAt ∨ deliveredAt < receivedAt then none
    else
      match s.fetchBookSafely tokenId answer goneAt receivedAt with
      | (none, s) => some { s with clock := deliveredAt }
      | (some book, s) =>
        match s.store.putOrderBook book receivedAt with
        | (false, _) => some { s with clock := deliveredAt }
        | (true, store) =>
          let s := { s.stored store [book] with clock := deliveredAt }
          some (s.deliverBooks hooks true deliveredAt [book])
  | .holdings tokens => some { s with heldTokens := tokens }

end OpenPoly
