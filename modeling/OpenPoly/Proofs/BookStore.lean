import OpenPoly.Lib.NewestWins
import OpenPoly.Spec.BookFeed

/-! The book store against one register per token: what each write, 404 and batch
leaves of a token, and that the store answers for everything it ever took. -/

namespace OpenPoly

open NewestWins

def BookStore.register (s : BookStore) (tokenId : String) : Register ℚ :=
  ⟨(s.orderBooks tokenId).map CachedBook.fetchedAt, s.gone tokenId⟩

def BookRecord.stamp : BookRecord → ℚ
  | .stored b => b.receivedAt
  | .notFound _ goneAt => goneAt

def BookRecord.entryOf (tokenId : String) : BookRecord → Option (Entry ℚ)
  | .stored b => if b.book.tokenId = tokenId then some (.stored b.receivedAt) else none
  | .notFound token goneAt => if token = tokenId then some (.buried goneAt) else none

def historyOf (tokenId : String) (history : List BookRecord) : List (Entry ℚ) :=
  history.filterMap (BookRecord.entryOf tokenId)

theorem historyOf_stored (tokenId : String) (history : List BookRecord) (books : List FetchedBook) :
    historyOf tokenId (history ++ books.map .stored) = historyOf tokenId history ++
      (books.filter fun b => b.book.tokenId = tokenId).map fun b => .stored b.receivedAt := by
  rw [historyOf, List.filterMap_append, historyOf]
  congr 1
  induction books with
  | nil => rfl
  | cons b books ih =>
    by_cases hb : b.book.tokenId = tokenId <;> simp [BookRecord.entryOf, hb, ih]

/-- The store answers for every record, token by token, and orders its books by
their receipt. -/
structure StoreInv (s : BookStore) (floor : ℚ) (history : List BookRecord) : Prop where
  registers : ∀ token, Inv (s.register token) floor (historyOf token history)
  coherent : ∀ token, ∀ c ∈ s.orderBooks token, c.fetchedAt = c.fetched.receivedAt

variable {s : BookStore} {floor : ℚ} {history : List BookRecord}

theorem storeInv_empty (floor : ℚ) : StoreInv .empty floor [] where
  registers _ := inv_empty floor
  coherent _ _ hc := by cases hc

theorem StoreInv.raise (h : StoreInv s floor history) {floor' : ℚ} (hle : floor ≤ floor') :
    StoreInv s floor' history where
  registers token := (h.registers token).raise hle
  coherent := h.coherent

theorem predatesGoneMark_iff (s : BookStore) (token : String) (receivedAt : ℚ) :
    s.predatesGoneMark token receivedAt = true ↔ ∃ g ∈ s.gone token, receivedAt ≤ g := by
  unfold BookStore.predatesGoneMark
  cases s.gone token <;> simp

theorem newer_iff (s : BookStore) (token : String) (receivedAt : ℚ) :
    ((s.orderBooks token).any fun prev => receivedAt < prev.fetchedAt) = true ↔
      ∃ prev ∈ s.orderBooks token, receivedAt < prev.fetchedAt := by
  cases s.orderBooks token <;> simp

/-- What a 404 leaves. -/
theorem storeInv_markBookGone (h : StoreInv s floor history) (token : String) {goneAt : ℚ}
    (hle : ∀ r ∈ history, r.stamp ≤ goneAt) :
    StoreInv (s.markBookGone token goneAt) floor (history ++ [.notFound token goneAt]) where
  registers t := by
    by_cases ht : token = t
    · subst ht
      have hreg : (s.markBookGone token goneAt).register token = ⟨none, some goneAt⟩ := by
        simp [BookStore.register, BookStore.markBookGone]
      have hhist : historyOf token (history ++ [.notFound token goneAt]) =
          historyOf token history ++ [.buried goneAt] := by
        simp [historyOf, BookRecord.entryOf]
      rw [hreg, hhist]
      refine (h.registers token).bury fun e he => ?_
      obtain ⟨r, hr, hre⟩ := List.mem_filterMap.mp he
      have hrle := hle r hr
      cases r with
      | stored b =>
        simp only [BookRecord.entryOf, Option.ite_none_right_eq_some, Option.some.injEq] at hre
        rw [← hre.2]
        exact hrle
      | notFound t g =>
        simp only [BookRecord.entryOf, Option.ite_none_right_eq_some, Option.some.injEq] at hre
        rw [← hre.2]
        exact hrle
    · have hreg : (s.markBookGone token goneAt).register t = s.register t := by
        simp [BookStore.register, BookStore.markBookGone, Function.update_of_ne (Ne.symm ht)]
      have hhist : historyOf t (history ++ [.notFound token goneAt]) = historyOf t history := by
        simp [historyOf, BookRecord.entryOf, ht]
      rw [hreg, hhist]
      exact h.registers t
  coherent t c hc := by
    by_cases ht : t = token
    · subst ht
      simp [BookStore.markBookGone] at hc
    · refine h.coherent t c ?_
      simpa [BookStore.markBookGone, Function.update_of_ne ht] using hc

/-- A book neither older than the cached one nor covered by the gone mark. -/
theorem storeInv_write (h : StoreInv s floor history) {b : FetchedBook} (hfloor : floor ≤ b.receivedAt)
    (hnewer : ∀ prev ∈ s.orderBooks b.book.tokenId, prev.fetchedAt ≤ b.receivedAt)
    (hgone : ∀ g ∈ s.gone b.book.tokenId, g < b.receivedAt) :
    StoreInv (s.write b b.receivedAt) floor (history ++ [.stored b]) where
  registers t := by
    rw [show [BookRecord.stored b] = [b].map .stored from rfl, historyOf_stored]
    by_cases ht : b.book.tokenId = t
    · subst ht
      have hreg : (s.write b b.receivedAt).register b.book.tokenId = ⟨some b.receivedAt, none⟩ := by
        simp [BookStore.register, BookStore.write]
      rw [hreg]
      have hheld : ∀ c ∈ (s.register b.book.tokenId).held, c ≤ b.receivedAt := by
        intro c hc
        obtain ⟨prev, hprev, rfl⟩ := Option.map_eq_some_iff.mp hc
        exact hnewer prev hprev
      simpa using (h.registers b.book.tokenId).store hfloor hheld hgone
    · have hreg : (s.write b b.receivedAt).register t = s.register t := by
        simp [BookStore.register, BookStore.write, Function.update_of_ne (Ne.symm ht)]
      rw [hreg]
      simpa [ht] using h.registers t
  coherent t c hc := by
    by_cases ht : t = b.book.tokenId
    · subst ht
      obtain rfl : (⟨b, b.receivedAt⟩ : CachedBook) = c := by
        simpa [BookStore.write] using hc
      rfl
    · refine h.coherent t c ?_
      simpa [BookStore.write, Function.update_of_ne ht] using hc

/-- What a batch in progress has made of one token. -/
def viewOf (tokenId : String) (acc : BookStore × List FetchedBook) :
    Option CachedBook × Option ℚ × List FetchedBook :=
  (acc.1.orderBooks tokenId, acc.1.gone tokenId, acc.2.filter fun b => b.book.tokenId = tokenId)

variable {batchAt : ℚ} {stamps : String → Option ℚ} {acc acc' : BookStore × List FetchedBook}

theorem viewOf_storeOne_of_ne {b : FetchedBook} {token : String} (h : b.book.tokenId ≠ token) :
    viewOf token (s.storeOne batchAt stamps acc b) = viewOf token acc := by
  unfold BookStore.storeOne viewOf
  dsimp only
  split
  · rfl
  · split
    · simp [Function.update_of_ne h.symm]
    · simp [BookStore.write, Function.update_of_ne h.symm, h]

theorem viewOf_foldl_of_notMem {books : List FetchedBook} {token : String}
    (h : ∀ b ∈ books, b.book.tokenId ≠ token) :
    viewOf token (books.foldl (s.storeOne batchAt stamps) acc) = viewOf token acc := by
  induction books generalizing acc with
  | nil => rfl
  | cons b books ih =>
    obtain ⟨hb, hbooks⟩ := List.forall_mem_cons.mp h
    rw [List.foldl_cons, ih hbooks, viewOf_storeOne_of_ne hb]

/-- What one book makes of its own token depends on that token alone. -/
theorem viewOf_storeOne_self (b : FetchedBook)
    (h : viewOf b.book.tokenId acc = viewOf b.book.tokenId acc') :
    viewOf b.book.tokenId (s.storeOne batchAt stamps acc b) =
      viewOf b.book.tokenId (s.storeOne batchAt stamps acc' b) := by
  obtain ⟨hbooks, hgone, hlist⟩ : acc.1.orderBooks b.book.tokenId = acc'.1.orderBooks b.book.tokenId ∧
      acc.1.gone b.book.tokenId = acc'.1.gone b.book.tokenId ∧
      (acc.2.filter fun c => c.book.tokenId = b.book.tokenId) =
        acc'.2.filter fun c => c.book.tokenId = b.book.tokenId := by
    simpa [viewOf] using h
  have hpred : acc.1.predatesGoneMark b.book.tokenId = acc'.1.predatesGoneMark b.book.tokenId := by
    funext at'
    simp [BookStore.predatesGoneMark, hgone]
  unfold BookStore.storeOne viewOf
  dsimp only
  rw [hpred]
  split
  · rw [hbooks, hgone, hlist]
  · split <;> simp [BookStore.write, hgone, hlist]

/-- With every token listed once, the one book of a token decides it. -/
theorem viewOf_foldl_mem {books : List FetchedBook}
    (hnodup : (books.map fun b => b.book.tokenId).Nodup) {b : FetchedBook} (hb : b ∈ books) :
    viewOf b.book.tokenId (books.foldl (s.storeOne batchAt stamps) acc) =
      viewOf b.book.tokenId (s.storeOne batchAt stamps acc b) := by
  obtain ⟨pre, post, rfl⟩ := List.append_of_mem hb
  simp only [List.map_append, List.map_cons, List.nodup_append, List.nodup_cons, List.mem_map,
    List.mem_cons] at hnodup
  obtain ⟨-, ⟨hpost, -⟩, hpre⟩ := hnodup
  rw [List.foldl_append, List.foldl_cons, viewOf_foldl_of_notMem]
  · apply viewOf_storeOne_self
    apply viewOf_foldl_of_notMem
    exact fun c hc heq => hpre _ ⟨c, hc, rfl⟩ _ (.inl rfl) heq
  · exact fun c hc heq => hpost ⟨c, hc, heq⟩

variable {books : List FetchedBook} {keep : List String} {token : String}

theorem setOrderBooks_notMem (h : ∀ b ∈ books, b.book.tokenId ≠ token) :
    viewOf token (s.setOrderBooks books batchAt stamps keep) =
      (s.retained (books.map fun b => b.book.tokenId) batchAt keep token, s.gone token, []) := by
  rw [BookStore.setOrderBooks, viewOf_foldl_of_notMem h]
  rfl

/-- The three ways a batch can treat a book it carries. -/
theorem setOrderBooks_mem (hnodup : (books.map fun b => b.book.tokenId).Nodup) {b : FetchedBook}
    (hb : b ∈ books) (hstamp : stamps b.book.tokenId = some b.receivedAt) :
    let view := viewOf b.book.tokenId (s.setOrderBooks books batchAt stamps keep)
    ((∃ g ∈ s.gone b.book.tokenId, b.receivedAt ≤ g) ∧ view = (none, s.gone b.book.tokenId, [])) ∨
    ((∃ prev ∈ s.orderBooks b.book.tokenId, b.receivedAt < prev.fetchedAt) ∧
      view = (s.orderBooks b.book.tokenId, s.gone b.book.tokenId, [])) ∨
    ((∀ g ∈ s.gone b.book.tokenId, g < b.receivedAt) ∧
      (∀ prev ∈ s.orderBooks b.book.tokenId, prev.fetchedAt ≤ b.receivedAt) ∧
      view = (some ⟨b, b.receivedAt⟩, none, [b])) := by
  have hcarried : b.book.tokenId ∈ books.map fun b => b.book.tokenId :=
    List.mem_map_of_mem (f := fun b : FetchedBook => b.book.tokenId) hb
  have hnone : s.retained (books.map fun b => b.book.tokenId) batchAt keep b.book.tokenId = none := by
    simp [BookStore.retained, hcarried]
  dsimp only
  rw [BookStore.setOrderBooks, viewOf_foldl_mem hnodup hb, BookStore.storeOne, hstamp]
  dsimp only [Option.getD_some]
  split
  · rename_i hpred
    refine .inl ⟨(predatesGoneMark_iff s _ _).mp hpred, ?_⟩
    simp [viewOf, hnone]
  · rename_i hpred
    have hgone : ∀ g ∈ s.gone b.book.tokenId, g < b.receivedAt := by
      intro g hg
      by_contra hle
      exact hpred ((predatesGoneMark_iff s _ _).mpr ⟨g, hg, not_lt.mp hle⟩)
    split
    · rename_i prev hprev
      obtain ⟨hcached, hlt⟩ := Option.filter_eq_some_iff.mp hprev
      refine .inr (.inl ⟨⟨prev, hcached, by simpa using hlt⟩, ?_⟩)
      simp [viewOf, hcached]
    · rename_i hprev
      refine .inr (.inr ⟨hgone, fun prev hc => ?_, ?_⟩)
      · have := Option.filter_eq_none_iff.mp hprev prev hc
        simpa using this
      · simp [viewOf, BookStore.write]

/-- What the batch path needs of its books: each token once, stamped on receipt,
no earlier than the cycle's start. -/
structure BatchBooks (books : List FetchedBook) (batchAt : ℚ) (stamps : String → Option ℚ) : Prop where
  nodup : (books.map fun b => b.book.tokenId).Nodup
  stamped : ∀ b ∈ books, stamps b.book.tokenId = some b.receivedAt
  later : ∀ b ∈ books, batchAt ≤ b.receivedAt

theorem batchBooks_nil (batchAt : ℚ) (stamps : String → Option ℚ) : BatchBooks [] batchAt stamps := by
  constructor <;> simp

/-- A token's view fixes its register and the records it gained. -/
theorem viewOf_eq {result : BookStore × List FetchedBook} {c : Option CachedBook} {g : Option ℚ}
    {accepted : List FetchedBook} (h : viewOf token result = (c, g, accepted)) :
    result.1.orderBooks token = c ∧ result.1.gone token = g ∧
      historyOf token (history ++ result.2.map .stored) =
        historyOf token history ++ accepted.map fun b => .stored b.receivedAt := by
  obtain ⟨hc, hg, ha⟩ : result.1.orderBooks token = c ∧ result.1.gone token = g ∧
      (result.2.filter fun b => b.book.tokenId = token) = accepted := by
    simpa [viewOf] using h
  exact ⟨hc, hg, by rw [historyOf_stored, ha]⟩

theorem retained_cases (s : BookStore) (carried : List String) (batchAt : ℚ) (keep : List String)
    (token : String) (hnew : token ∉ carried) :
    s.retained carried batchAt keep token = s.orderBooks token ∨
      s.retained carried batchAt keep token = none ∧
        ∀ c ∈ s.orderBooks token, c.fetchedAt ≤ batchAt ∧
          (token ∈ keep → keptBookMaxAgeSeconds < batchAt - c.fetchedAt) := by
  unfold BookStore.retained
  cases hc : s.orderBooks token with
  | none => exact .inl rfl
  | some c =>
    by_cases hkept : batchAt < c.fetchedAt ∨
        (token ∈ keep ∧ batchAt - c.fetchedAt ≤ keptBookMaxAgeSeconds)
    · left
      rw [Option.filter_some, if_pos (decide_eq_true ⟨hnew, hkept⟩)]
    · right
      refine ⟨by rw [Option.filter_some, if_neg fun hdec => hkept (of_decide_eq_true hdec).2], ?_⟩
      rintro c' hc'
      obtain rfl := Option.some.inj hc'
      rw [not_or, not_lt] at hkept
      exact ⟨hkept.1, fun hkeep => not_le.mp fun hle => hkept.2 ⟨hkeep, hle⟩⟩

/-- What a batch leaves of a token: what there was, nothing where it was old and
not to be kept, or the batch's book. -/
inductive BatchLeaves (s result : BookStore) (accepted books : List FetchedBook) (batchAt : ℚ)
    (keep : List String) (token : String) : Prop
  | unchanged (books_eq : result.orderBooks token = s.orderBooks token)
      (gone_eq : result.gone token = s.gone token)
      (silent : ∀ history, historyOf token (history ++ accepted.map .stored) = historyOf token history)
  | dropped (books_eq : result.orderBooks token = none) (gone_eq : result.gone token = s.gone token)
      (silent : ∀ history, historyOf token (history ++ accepted.map .stored) = historyOf token history)
      (old : ∀ c ∈ s.orderBooks token, c.fetchedAt ≤ batchAt ∧
        (token ∈ keep → keptBookMaxAgeSeconds < batchAt - c.fetchedAt))
  | stored (b : FetchedBook) (mem : b ∈ books)
      (newer : ∀ c ∈ s.orderBooks token, c.fetchedAt ≤ b.receivedAt)
      (alive : ∀ g ∈ s.gone token, g < b.receivedAt)
      (books_eq : result.orderBooks token = some ⟨b, b.receivedAt⟩) (gone_eq : result.gone token = none)
      (recorded : ∀ history, historyOf token (history ++ accepted.map .stored) =
        historyOf token history ++ [.stored b.receivedAt])

theorem setOrderBooks_leaves (hexcl : ∀ token, s.gone token ≠ none → s.orderBooks token = none)
    (hbooks : BatchBooks books batchAt stamps) (keep : List String) (token : String) :
    BatchLeaves s (s.setOrderBooks books batchAt stamps keep).1
      (s.setOrderBooks books batchAt stamps keep).2 books batchAt keep token := by
  by_cases hcarried : ∃ b ∈ books, b.book.tokenId = token
  · obtain ⟨b, hb, rfl⟩ := hcarried
    rcases @setOrderBooks_mem s batchAt stamps books keep hbooks.nodup b hb (hbooks.stamped b hb) with
      ⟨⟨g, hg, -⟩, hview⟩ | ⟨-, hview⟩ | ⟨hgone, hnewer, hview⟩
    · obtain ⟨hc, hg', -⟩ := @viewOf_eq [] _ _ _ _ _ hview
      have hnone := hexcl b.book.tokenId (by rw [hg]; simp)
      refine .unchanged (hc.trans hnone.symm) hg' fun history => ?_
      simpa using (@viewOf_eq history _ _ _ _ _ hview).2.2
    · obtain ⟨hc, hg', -⟩ := @viewOf_eq [] _ _ _ _ _ hview
      refine .unchanged hc hg' fun history => ?_
      simpa using (@viewOf_eq history _ _ _ _ _ hview).2.2
    · obtain ⟨hc, hg', -⟩ := @viewOf_eq [] _ _ _ _ _ hview
      exact .stored b hb hnewer hgone hc hg' fun history => (@viewOf_eq history _ _ _ _ _ hview).2.2
  · have hnone : ∀ b ∈ books, b.book.tokenId ≠ token := fun b hb heq => hcarried ⟨b, hb, heq⟩
    have hnew : token ∉ books.map fun b => b.book.tokenId := by
      intro hmem
      obtain ⟨b, hb, heq⟩ := List.mem_map.mp hmem
      exact hnone b hb heq
    have hview := @setOrderBooks_notMem s batchAt stamps books keep token hnone
    obtain ⟨hc, hg', -⟩ := @viewOf_eq [] _ _ _ _ _ hview
    have hsilent : ∀ history, historyOf token (history ++
        (s.setOrderBooks books batchAt stamps keep).2.map .stored) = historyOf token history := by
      intro history
      simpa using (@viewOf_eq history _ _ _ _ _ hview).2.2
    rcases retained_cases s _ batchAt keep token hnew with heq | ⟨heq, hold⟩
    · exact .unchanged (hc.trans heq) hg' hsilent
    · exact .dropped (hc.trans heq) hg' hsilent hold

theorem StoreInv.exclusive (h : StoreInv s floor history) (token : String)
    (hgone : s.gone token ≠ none) : s.orderBooks token = none :=
  Option.map_eq_none_iff.mp ((h.registers token).exclusive hgone)

/-- The store after a batch answers for every record, the batch's included. -/
theorem storeInv_setOrderBooks (h : StoreInv s batchAt history)
    (hbooks : BatchBooks books batchAt stamps) (keep : List String) :
    StoreInv (s.setOrderBooks books batchAt stamps keep).1 batchAt
      (history ++ (s.setOrderBooks books batchAt stamps keep).2.map .stored) := by
  refine ⟨fun token => ?_, fun token c hc => ?_⟩
  · rcases setOrderBooks_leaves h.exclusive hbooks keep token with
      ⟨hc, hg, hsilent⟩ | ⟨hc, hg, hsilent, hold⟩ | ⟨b, hb, hnewer, halive, hc, hg, hrec⟩
    · rw [BookStore.register, hc, hg, hsilent]
      exact h.registers token
    · rw [BookStore.register, hc, hg, hsilent]
      refine (h.registers token).drop fun stamp hstamp => ?_
      obtain ⟨c, hcached, rfl⟩ := Option.map_eq_some_iff.mp hstamp
      exact (hold c hcached).1
    · rw [BookStore.register, hc, hg, hrec]
      refine (h.registers token).store (hbooks.later b hb) (fun stamp hstamp => ?_) halive
      obtain ⟨c, hcached, rfl⟩ := Option.map_eq_some_iff.mp hstamp
      exact hnewer c hcached
  · rcases setOrderBooks_leaves h.exclusive hbooks keep token with
      ⟨hc', -, -⟩ | ⟨hc', -, -, -⟩ | ⟨b, hb, -, -, hc', -, -⟩
    · rw [hc'] at hc
      exact h.coherent token c hc
    · rw [hc'] at hc
      cases hc
    · rw [hc'] at hc
      obtain rfl := Option.some.inj hc
      rfl

theorem mem_storeOne {b c : FetchedBook} (hb : b ∈ (s.storeOne batchAt stamps acc c).2) :
    b ∈ acc.2 ∨ b = c := by
  unfold BookStore.storeOne at hb
  dsimp only at hb
  split at hb
  · exact .inl hb
  · split at hb
    · exact .inl hb
    · simpa using hb

theorem mem_foldl_storeOne {b : FetchedBook}
    (hb : b ∈ (books.foldl (s.storeOne batchAt stamps) acc).2) : b ∈ acc.2 ∨ b ∈ books := by
  induction books generalizing acc with
  | nil => exact .inl hb
  | cons c books ih =>
    rcases ih hb with h | h
    · rcases mem_storeOne h with h | rfl
      · exact .inl h
      · exact .inr List.mem_cons_self
    · exact .inr (List.mem_cons_of_mem _ h)

theorem setOrderBooks_accepted {b : FetchedBook}
    (hb : b ∈ (s.setOrderBooks books batchAt stamps keep).2) : b ∈ books := by
  simpa using mem_foldl_storeOne hb

end OpenPoly
