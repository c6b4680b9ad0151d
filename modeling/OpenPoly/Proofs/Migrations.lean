import OpenPoly.Lib.Effects
import OpenPoly.Lib.Run
import OpenPoly.Spec.Migrations

/-! The start of the database over crashes between its statements: the recorded version
against what is applied, and the schema a start ends at. -/

namespace OpenPoly

open Effects Transition

variable {db : SchemaDb} {t : Table} {order : CreationOrder}

inductive SchemaItem where
  | table (t : Table)
  | column (t : Table) (c : Column)
  | index (t : Table) (ix : TableIndex)

def SchemaDb.has (db : SchemaDb) : SchemaItem → Prop
  | .table t => (db.tables t).isSome = true
  | .column t c => ∃ ts, db.tables t = some ts ∧ ts.columns.any (·.name = c.name) = true
  | .index t ix => ∃ ts, db.tables t = some ts ∧ ix ∈ ts.indexes

def migrationItems : ℕ → List SchemaItem
  | 1 => fillLiveColumns.map (.column .fill)
  | 2 => positionEntryColumns.map (.column .position)
  | 3 => [.index .orderBookSnapshot orderBookTokenTimeIndex]
  | 4 => [.index .orderBookSnapshot orderBookRecordedAtIndex]
  | 5 => .table .llmUsage :: Table.llmUsage.indexes.map (.index .llmUsage)
  | 6 => .table .shadowPick :: Table.shadowPick.indexes.map (.index .shadowPick)
  | 7 => entryRationaleColumns.map (.column .position) ++ shadowFeeColumns.map (.column .shadowPick)
  | _ => []

/-- The migrations up to a version are there, the latest at most. -/
def SchemaDb.Applied (db : SchemaDb) (version : ℕ) : Prop :=
  version ≤ latestVersion ∧ ∀ k ≤ version, ∀ i ∈ migrationItems k, db.has i

def migratedColumns : Table → List Column
  | .fill => fillLiveColumns
  | .position => positionEntryColumns ++ entryRationaleColumns
  | .shadowPick => shadowFeeColumns
  | _ => []

/-- The indexes that migrations add to a table of their own. -/
def migratedIndexes : Table → List TableIndex
  | .orderBookSnapshot => [orderBookTokenTimeIndex, orderBookRecordedAtIndex]
  | _ => []

/-- A legacy database, or an empty one: a table has all that no migration adds to it. -/
structure SchemaDb.Sound (db : SchemaDb) : Prop where
  columns : ∀ t, (db.tables t).isSome = true → ∀ c ∈ t.columns, c ∉ migratedColumns t → db.has (.column t c)
  indexes : ∀ t, (db.tables t).isSome = true → ∀ ix ∈ t.indexes, ix ∉ migratedIndexes t → db.has (.index t ix)
  applied : db.Applied db.recorded

/-- The declared schema, at the latest version. -/
structure SchemaDb.Complete (db : SchemaDb) : Prop where
  version : db.version = some (some latestVersion)
  tables : ∀ t, (db.tables t).isSome = true
  columns : ∀ t, ∀ c ∈ t.columns, db.has (.column t c)
  indexes : ∀ t, ∀ ix ∈ t.indexes, db.has (.index t ix)

theorem modify_has {i : SchemaItem} (h : db.has i) {f : TableState → TableState}
    (hf : ∀ ts : TableState, ts.columns ⊆ (f ts).columns ∧ ts.indexes ⊆ (f ts).indexes) : (db.modify t f).has i := by
  have hget : ∀ t' ts, db.tables t' = some ts →
      ∃ ts', (db.modify t f).tables t' = some ts' ∧ ts.columns ⊆ ts'.columns ∧ ts.indexes ⊆ ts'.indexes := by
    intro t' ts hts
    by_cases ht : t' = t
    · subst ht
      refine ⟨f ts, ?_, hf ts⟩
      show Function.update db.tables t' _ t' = _
      rw [Function.update_self, hts, Option.map_some]
    · refine ⟨ts, ?_, fun _ h => h, fun _ h => h⟩
      show Function.update db.tables t _ t' = _
      rw [Function.update_of_ne ht, hts]
  cases i with
  | table t' =>
    obtain ⟨ts, hts⟩ := Option.isSome_iff_exists.mp h
    obtain ⟨ts', hts', -⟩ := hget t' ts hts
    exact Option.isSome_iff_exists.mpr ⟨ts', hts'⟩
  | column t' c =>
    obtain ⟨ts, hts, hc⟩ := h
    obtain ⟨ts', hts', hsub, -⟩ := hget t' ts hts
    obtain ⟨c', hc', hname⟩ := List.any_eq_true.mp hc
    exact ⟨ts', hts', List.any_eq_true.mpr ⟨c', hsub hc', hname⟩⟩
  | index t' ix =>
    obtain ⟨ts, hts, hix⟩ := h
    obtain ⟨ts', hts', -, hsub⟩ := hget t' ts hts
    exact ⟨ts', hts', hsub hix⟩

theorem exec_createTable_self (h : db.tables t = none) :
    (db.exec (.createTable t)).tables t = some ⟨t.columns, []⟩ := by
  show Function.update db.tables t _ t = _
  rw [Function.update_self, h]
  rfl

theorem exec_createTable_of_some {ts : TableState} (h : db.tables t = some ts) : db.exec (.createTable t) = db := by
  show { db with tables := Function.update db.tables t (some ((db.tables t).getD ⟨t.columns, []⟩)) } = db
  rw [h, Option.getD_some, ← h, Function.update_eq_self]

/-- A statement takes nothing away. -/
theorem exec_has {i : SchemaItem} (h : db.has i) (s : Statement) : (db.exec s).has i := by
  cases s with
  | createTable t =>
    cases ht : db.tables t with
    | some ts => rwa [exec_createTable_of_some ht]
    | none =>
      have hother : ∀ t' ts, db.tables t' = some ts → (db.exec (.createTable t)).tables t' = some ts := by
        intro t' ts hts
        have hne : t' ≠ t := by
          rintro rfl
          rw [ht] at hts
          cases hts
        show Function.update db.tables t _ t' = _
        rw [Function.update_of_ne hne, hts]
      cases i with
      | table t' =>
        obtain ⟨ts, hts⟩ := Option.isSome_iff_exists.mp h
        exact Option.isSome_iff_exists.mpr ⟨ts, hother t' ts hts⟩
      | column t' c =>
        obtain ⟨ts, hts, hc⟩ := h
        exact ⟨ts, hother t' ts hts, hc⟩
      | index t' ix =>
        obtain ⟨ts, hts, hix⟩ := h
        exact ⟨ts, hother t' ts hts, hix⟩
  | createIndex t ix =>
    refine modify_has h fun ts => ?_
    split_ifs
    · exact ⟨fun _ h => h, fun _ h => h⟩
    · exact ⟨fun _ h => h, List.subset_append_left _ _⟩
  | addColumn t c => exact modify_has h fun ts => ⟨List.subset_append_left _ _, fun _ h => h⟩
  | createVersionTable => exact h
  | writeVersion v => exact h

theorem run_has {i : SchemaItem} (h : db.has i) (statements : List Statement) : (db.run statements).has i := by
  induction statements generalizing db with
  | nil => exact h
  | cons s statements ih => exact ih (exec_has h s)

theorem run_append (l l' : List Statement) : db.run (l ++ l') = (db.run l).run l' := List.foldl_append

theorem exec_createIndex_has (h : (db.tables t).isSome = true) (ix : TableIndex) :
    (db.exec (.createIndex t ix)).has (.index t ix) := by
  obtain ⟨ts, hts⟩ := Option.isSome_iff_exists.mp h
  refine ⟨if ix ∈ ts.indexes then ts else { ts with indexes := ts.indexes ++ [ix] }, ?_, ?_⟩
  · show Function.update db.tables t _ t = _
    rw [Function.update_self, hts, Option.map_some]
  · split_ifs with hix
    · exact hix
    · exact List.mem_append_right _ (List.mem_singleton_self _)

theorem exec_addColumn_has (h : (db.tables t).isSome = true) (c : Column) :
    (db.exec (.addColumn t c)).has (.column t c) := by
  obtain ⟨ts, hts⟩ := Option.isSome_iff_exists.mp h
  refine ⟨{ ts with columns := ts.columns ++ [c] }, ?_, by simp⟩
  show Function.update db.tables t _ t = _
  rw [Function.update_self, hts, Option.map_some]

theorem applied_exec {v : ℕ} (h : db.Applied v) (s : Statement) : (db.exec s).Applied v :=
  ⟨h.1, fun k hk i hi => exec_has (h.2 k hk i hi) s⟩

/-- A statement is taken where it does what it says: a version is written when all up to
it is applied. -/
def Enabled (db : SchemaDb) : Statement → Prop
  | .createTable t => db.tables t = none
  | .createIndex t _ => (db.tables t).isSome = true
  | .addColumn t _ => (db.tables t).isSome = true
  | .createVersionTable => True
  | .writeVersion version => db.version.isSome = true ∧ db.Applied version

/-- The recorded version is one that is applied. -/
theorem exec_recorded {s : Statement} (h : Enabled db s) (hdb : db.Applied db.recorded) :
    (db.exec s).Applied (db.exec s).recorded := by
  cases s with
  | createVersionTable =>
    have hsame : (db.exec .createVersionTable).recorded = db.recorded := by
      unfold SchemaDb.recorded SchemaDb.exec
      cases db.version <;> rfl
    rw [hsame]
    exact applied_exec hdb _
  | writeVersion v =>
    have hwritten : (db.exec (.writeVersion v)).recorded = v := by
      obtain ⟨row, hrow⟩ := Option.isSome_iff_exists.mp h.1
      unfold SchemaDb.recorded SchemaDb.exec
      rw [hrow]
      rfl
    rw [hwritten]
    exact applied_exec h.2 _
  | createTable t => exact applied_exec hdb _
  | createIndex t ix => exact applied_exec hdb _
  | addColumn t c => exact applied_exec hdb _

def Statement.table? : Statement → Option Table
  | .createTable t => some t
  | .createIndex t _ => some t
  | .addColumn t _ => some t
  | .createVersionTable => none
  | .writeVersion _ => none

theorem exec_frame {s : Statement} (h : s.table? ≠ some t) : (db.exec s).tables t = db.tables t := by
  have hne : ∀ t' : Table, some t' ≠ some t → t ≠ t' := fun t' ht' heq => ht' (congrArg some heq.symm)
  cases s with
  | createTable t' => exact Function.update_of_ne (hne t' h) ..
  | createIndex t' ix => exact Function.update_of_ne (hne t' h) ..
  | addColumn t' c => exact Function.update_of_ne (hne t' h) ..
  | createVersionTable => rfl
  | writeVersion v => rfl

theorem run_frame {l : List Statement} (h : ∀ s ∈ l, s.table? ≠ some t) : (db.run l).tables t = db.tables t := by
  induction l generalizing db with
  | nil => rfl
  | cons s l ih =>
    obtain ⟨hs, hl⟩ := List.forall_mem_cons.mp h
    exact (ih hl).trans (exec_frame hs)

theorem run_version {l : List Statement} (h : ∀ s ∈ l, s.table?.isSome = true) : (db.run l).version = db.version := by
  induction l generalizing db with
  | nil => rfl
  | cons s l ih =>
    obtain ⟨hs, hl⟩ := List.forall_mem_cons.mp h
    refine (ih hl).trans ?_
    cases s with
    | createTable t => rfl
    | createIndex t ix => rfl
    | addColumn t c => rfl
    | createVersionTable => cases hs
    | writeVersion v => cases hs

/-- A table with all that is declared of it. -/
structure SchemaDb.Whole (db : SchemaDb) (t : Table) : Prop where
  table : db.has (.table t)
  columns : ∀ c ∈ t.columns, db.has (.column t c)
  indexes : ∀ ix ∈ t.indexes, db.has (.index t ix)

theorem SchemaDb.Whole.run (h : db.Whole t) (l : List Statement) : (db.run l).Whole t :=
  ⟨run_has h.table l, fun c hc => run_has (h.columns c hc) l, fun ix hix => run_has (h.indexes ix hix) l⟩

theorem createMissing_table? {s : Statement} (h : s ∈ createMissing order t db) : s.table? = some t := by
  unfold createMissing at h
  split_ifs at h
  · cases h
  · rcases List.mem_cons.mp h with rfl | h
    · rfl
    · obtain ⟨ix, -, rfl⟩ := List.mem_map.mp h
      rfl

theorem createMissing_enabled {db' : SchemaDb} (h : db'.tables t = db.tables t) :
    Each SchemaDb.exec Enabled db' (createMissing order t db) := by
  unfold createMissing
  split_ifs with hsome
  · trivial
  · have hnone : db'.tables t = none := by rw [h]; simpa using hsome
    refine ⟨hnone, each_of_inv (P := fun db => db.has (.table t)) ?_ fun s hs db hdb => ?_⟩
    · show ((db'.exec (.createTable t)).tables t).isSome = true
      rw [exec_createTable_self hnone]
      rfl
    · obtain ⟨ix, -, rfl⟩ := List.mem_map.mp hs
      exact ⟨hdb, exec_has hdb _⟩

/-- A missing table is created whole. -/
theorem createMissing_whole {db' : SchemaDb} (h : db'.tables t = db.tables t) (hnone : db.tables t = none) :
    (db'.run (createMissing order t db)).Whole t := by
  have henabled := @createMissing_enabled db t order db' h
  have hself := exec_createTable_self (h.trans hnone)
  have hlist : createMissing order t db = .createTable t :: (order.indexes t).map (.createIndex t) := by
    unfold createMissing
    rw [hnone]
    rfl
  rw [hlist] at henabled ⊢
  have hrun : db'.run (.createTable t :: (order.indexes t).map (.createIndex t)) =
      (db'.exec (.createTable t)).run ((order.indexes t).map (.createIndex t)) := rfl
  refine ⟨?_, fun c hc => ?_, fun ix hix => ?_⟩
  · rw [hrun]
    refine run_has ?_ _
    show ((db'.exec (.createTable t)).tables t).isSome = true
    rw [hself]
    rfl
  · rw [hrun]
    exact run_has (i := .column t c) ⟨_, hself, List.any_eq_true.mpr ⟨c, hc, by simp⟩⟩ _
  · have hmem : Statement.createIndex t ix ∈ (order.indexes t).map (.createIndex t) :=
      List.mem_map_of_mem ((order.declared t).mem_iff.mpr hix)
    exact henabled.brings (P := fun db => db.has (.index t ix)) (List.mem_cons_of_mem _ hmem)
      (fun s hs => exec_createIndex_has hs ix) fun s e hs => exec_has hs e

theorem createMissing_has {db' : SchemaDb} (h : db'.tables t = db.tables t) :
    (db'.run (createMissing order t db)).has (.table t) := by
  cases hnone : db.tables t with
  | none => exact (createMissing_whole h hnone).table
  | some ts =>
    refine run_has ?_ _
    show (db'.tables t).isSome = true
    rw [h, hnone]
    rfl

/-- `create_all`, over what is left of its tables. -/
theorem createTables_spec {ts : List Table} (hnodup : ts.Nodup) {db' : SchemaDb}
    (hsame : ∀ t ∈ ts, db'.tables t = db.tables t) :
    Each SchemaDb.exec Enabled db' (ts.flatMap fun t => createMissing order t db) ∧
      ∀ t ∈ ts, (db'.run (ts.flatMap fun t => createMissing order t db)).has (.table t) ∧
        (db.tables t = none → (db'.run (ts.flatMap fun t => createMissing order t db)).Whole t) := by
  induction ts generalizing db' with
  | nil => exact ⟨trivial, nofun⟩
  | cons t ts ih =>
    obtain ⟨hfirst, hrest⟩ := List.forall_mem_cons.mp hsame
    obtain ⟨hnotMem, hnodup⟩ := List.nodup_cons.mp hnodup
    have hlater : ∀ t' ∈ ts, (db'.run (createMissing order t db)).tables t' = db.tables t' := by
      intro t' ht'
      refine (run_frame fun s hs heq => ?_).trans (hrest t' ht')
      rw [createMissing_table? hs] at heq
      exact hnotMem (Option.some.inj heq ▸ ht')
    obtain ⟨henabled, hthere⟩ := ih hnodup hlater
    rw [List.flatMap_cons, run_append]
    refine ⟨each_append.mpr ⟨createMissing_enabled hfirst, henabled⟩, List.forall_mem_cons.mpr ⟨?_, hthere⟩⟩
    exact ⟨run_has (createMissing_has hfirst) _, fun hnone => (createMissing_whole hfirst hnone).run _⟩

/-- Every table with all that no migration adds to it. -/
structure SchemaDb.Based (db : SchemaDb) : Prop where
  tables : ∀ t, db.has (.table t)
  columns : ∀ t, ∀ c ∈ t.columns, c ∉ migratedColumns t → db.has (.column t c)
  indexes : ∀ t, ∀ ix ∈ t.indexes, ix ∉ migratedIndexes t → db.has (.index t ix)

theorem SchemaDb.Based.run (h : db.Based) (l : List Statement) : (db.run l).Based :=
  ⟨fun t => run_has (h.tables t) l, fun t c hc hnew => run_has (h.columns t c hc hnew) l,
    fun t ix hix hnew => run_has (h.indexes t ix hix hnew) l⟩

/-- A migration takes enabled statements about tables, and adds its items. -/
def Migrates (items : List SchemaItem) (migrate : Migration) : Prop :=
  ∀ order db, db.Based → Each SchemaDb.exec Enabled db (migrate order db) ∧
    (∀ i ∈ items, (db.run (migrate order db)).has i) ∧ ∀ s ∈ migrate order db, s.table?.isSome = true

theorem addMissingColumns_spec (t : Table) (columns : List Column) {db' : SchemaDb} (h : db.has (.table t))
    (hkeep : ∀ i, db.has i → db'.has i) :
    Each SchemaDb.exec Enabled db' (addMissingColumns t columns db) ∧
      (∀ c ∈ columns, (db'.run (addMissingColumns t columns db)).has (.column t c)) ∧
      ∀ s ∈ addMissingColumns t columns db, s.table?.isSome = true := by
  obtain ⟨ts, hts⟩ := Option.isSome_iff_exists.mp h
  have hlist : addMissingColumns t columns db =
      (columns.filter fun c => !ts.columns.any (·.name = c.name)).map (.addColumn t) := by
    unfold addMissingColumns
    rw [hts]
  have henabled : Each SchemaDb.exec Enabled db' (addMissingColumns t columns db) := by
    rw [hlist]
    refine each_of_inv (P := fun db => db.has (.table t)) (hkeep _ h) fun s hs db hdb => ?_
    obtain ⟨c, -, rfl⟩ := List.mem_map.mp hs
    exact ⟨hdb, exec_has hdb _⟩
  refine ⟨henabled, fun c hc => ?_, fun s hs => ?_⟩
  · by_cases hthere : ts.columns.any (·.name = c.name) = true
    · exact run_has (hkeep (.column t c) ⟨ts, hts, hthere⟩) _
    · have hmem : Statement.addColumn t c ∈ addMissingColumns t columns db := by
        rw [hlist]
        exact List.mem_map_of_mem (List.mem_filter.mpr ⟨hc, by simpa using hthere⟩)
      exact henabled.brings (P := fun db => db.has (.column t c)) hmem (fun s hs => exec_addColumn_has hs c)
        fun s e hs => exec_has hs e
  · rw [hlist] at hs
    obtain ⟨c, -, rfl⟩ := List.mem_map.mp hs
    rfl

theorem migrates_columns (t : Table) (columns : List Column) :
    Migrates (columns.map (.column t)) fun _ => addMissingColumns t columns := by
  intro order db hdb
  obtain ⟨henabled, hadded, htables⟩ := addMissingColumns_spec t columns (hdb.tables t) fun i hi => hi
  refine ⟨henabled, fun i hi => ?_, htables⟩
  obtain ⟨c, hc, rfl⟩ := List.mem_map.mp hi
  exact hadded c hc

theorem migrates_index (t : Table) (ix : TableIndex) :
    Migrates [.index t ix] fun _ => createMissingIndex t ix := by
  intro order db hdb
  have hsome : (db.tables t).isSome = true := hdb.tables t
  have hlist : createMissingIndex t ix db = [.createIndex t ix] := if_pos hsome
  beta_reduce
  rw [hlist]
  refine ⟨⟨hsome, trivial⟩, fun i hi => ?_, fun s hs => ?_⟩
  · rw [List.mem_singleton.mp hi]
    exact exec_createIndex_has hsome ix
  · rw [List.mem_singleton.mp hs]
    rfl

theorem migrates_table {t : Table} (hown : migratedIndexes t = []) :
    Migrates (.table t :: t.indexes.map (.index t)) fun order => createMissing order t := by
  intro order db hdb
  have hlist : createMissing order t db = [] := if_pos (hdb.tables t)
  beta_reduce
  rw [hlist]
  refine ⟨trivial, fun i hi => ?_, nofun⟩
  rcases List.mem_cons.mp hi with rfl | hi
  · exact hdb.tables t
  · obtain ⟨ix, hix, rfl⟩ := List.mem_map.mp hi
    exact hdb.indexes t ix hix (by rw [hown]; exact List.not_mem_nil)

theorem migrates_seven :
    Migrates (entryRationaleColumns.map (.column .position) ++ shadowFeeColumns.map (.column .shadowPick))
      m007EntryRationaleAndFeeColumns := by
  intro order db hdb
  obtain ⟨he, ha, ht⟩ := addMissingColumns_spec .position entryRationaleColumns (hdb.tables _) fun i hi => hi
  obtain ⟨he', ha', ht'⟩ := addMissingColumns_spec .shadowPick shadowFeeColumns (hdb.tables _)
    fun i hi => run_has hi (addMissingColumns .position entryRationaleColumns db)
  unfold m007EntryRationaleAndFeeColumns
  rw [run_append]
  refine ⟨each_append.mpr ⟨he, he'⟩, fun i hi => ?_, fun s hs => (List.mem_append.mp hs).elim (ht s) (ht' s)⟩
  rcases List.mem_append.mp hi with hi | hi
  · obtain ⟨c, hc, rfl⟩ := List.mem_map.mp hi
    exact run_has (ha c hc) _
  · obtain ⟨c, hc, rfl⟩ := List.mem_map.mp hi
    exact ha' c hc

theorem migrations_migrate : ∀ m ∈ migrations, Migrates (migrationItems m.1) m.2 := by
  intro m hm
  simp only [migrations, List.mem_cons, List.not_mem_nil, or_false] at hm
  rcases hm with rfl | rfl | rfl | rfl | rfl | rfl | rfl
  · exact migrates_columns .fill fillLiveColumns
  · exact migrates_columns .position positionEntryColumns
  · exact migrates_index .orderBookSnapshot orderBookTokenTimeIndex
  · exact migrates_index .orderBookSnapshot orderBookRecordedAtIndex
  · exact migrates_table rfl
  · exact migrates_table rfl
  · exact migrates_seven

/-- The loop of `run_migrations`, from the migration after `k` on. -/
theorem migrationStatements_spec {version k : ℕ} {rest : List (ℕ × Migration)}
    (hsuccessive : rest.map Prod.fst = List.range' (k + 1) rest.length) (hlast : k + rest.length = latestVersion)
    (hmigrate : ∀ m ∈ rest, Migrates (migrationItems m.1) m.2) (hbased : db.Based)
    (hrow : db.version.isSome = true) (hdone : ∀ j, j ≤ k ∨ j ≤ version → ∀ i ∈ migrationItems j, db.has i)
    (hold : version < latestVersion) :
    Each SchemaDb.exec Enabled db (migrationStatements order version rest db) ∧
      (∀ j ≤ latestVersion, ∀ i ∈ migrationItems j, (db.run (migrationStatements order version rest db)).has i) ∧
      (rest ≠ [] → (db.run (migrationStatements order version rest db)).version = some (some latestVersion)) := by
  induction rest generalizing db k with
  | nil =>
    simp only [List.length_nil, Nat.add_zero] at hlast
    subst hlast
    exact ⟨trivial, fun j hj => hdone j (.inl hj), fun h => absurd rfl h⟩
  | cons m rest ih =>
    obtain ⟨target, migrate⟩ := m
    simp only [List.map_cons, List.length_cons, List.range'_succ, List.cons.injEq] at hsuccessive
    obtain ⟨rfl, hsuccessive⟩ := hsuccessive
    obtain ⟨hfirst, hrest⟩ := List.forall_mem_cons.mp hmigrate
    have hnext : k + 1 + rest.length = latestVersion := by rw [← hlast, List.length_cons]; omega
    by_cases hskip : k + 1 ≤ version
    · have hlist : migrationStatements order version ((k + 1, migrate) :: rest) db =
          migrationStatements order version rest db := by
        rw [migrationStatements, if_pos hskip]
      rw [hlist]
      have hne : rest ≠ [] := by
        rintro rfl
        simp only [List.length_nil] at hnext
        omega
      obtain ⟨he, hi, hv⟩ := ih hsuccessive hnext hrest hbased hrow fun j hj => hdone j (by omega)
      exact ⟨he, hi, fun _ => hv hne⟩
    · obtain ⟨he, hadded, htables⟩ := hfirst order db hbased
      have happlied : (db.run (migrate order db)).Applied (k + 1) := by
        refine ⟨by omega, fun j hj i hi => ?_⟩
        rcases Nat.lt_or_ge j (k + 1) with hlt | hge
        · exact run_has (hdone j (.inl (by omega)) i hi) _
        · obtain rfl : j = k + 1 := by omega
          exact hadded i hi
      have hrow' : (db.run (migrate order db)).version.isSome = true := by rw [run_version htables]; exact hrow
      have hlist : migrationStatements order version ((k + 1, migrate) :: rest) db =
          migrate order db ++ ([.writeVersion (k + 1)] ++ migrationStatements order version rest
            ((db.run (migrate order db)).exec (.writeVersion (k + 1)))) := by
        rw [migrationStatements, if_neg hskip]
        dsimp only
        rw [List.append_assoc, run_append]
        rfl
      set db' := (db.run (migrate order db)).exec (.writeVersion (k + 1)) with hdb'
      have hwritten : db'.version = some (some (k + 1)) := by
        obtain ⟨row, hr⟩ := Option.isSome_iff_exists.mp hrow'
        show ((db.run (migrate order db)).version.map fun _ => some (k + 1)) = _
        rw [hr]
        rfl
      have hbased' : db'.Based := (hbased.run (migrate order db)).run [.writeVersion (k + 1)]
      obtain ⟨hrestEach, hi, hv⟩ := @ih db' (k + 1) hsuccessive hnext hrest hbased' (by rw [hwritten]; rfl)
        fun j hj i hij => (applied_exec happlied _).2 j (by omega) i hij
      have hrun : db.run (migrationStatements order version ((k + 1, migrate) :: rest) db) =
          db'.run (migrationStatements order version rest db') := by
        rw [hlist, run_append, run_append]
        rfl
      rw [hrun, hlist]
      refine ⟨each_append.mpr ⟨he, ⟨hrow', happlied⟩, hrestEach⟩, hi, fun _ => ?_⟩
      by_cases hend : rest = []
      · subst hend
        show db'.version = _
        rw [hwritten]
        simp only [List.length_nil, Nat.add_zero] at hnext
        rw [hnext]
      · exact hv hend

/-- Whole tables have what every migration adds. -/
theorem has_of_whole (h : ∀ t, db.Whole t) {k : ℕ} {i : SchemaItem} (hi : i ∈ migrationItems k) : db.has i := by
  have hcolumns : ∀ t columns, columns ⊆ Table.columns t → i ∈ columns.map (.column t) → db.has i := by
    intro t columns hsub hi
    obtain ⟨c, hc, rfl⟩ := List.mem_map.mp hi
    exact (h t).columns c (hsub hc)
  have htable : ∀ t, i ∈ SchemaItem.table t :: t.indexes.map (.index t) → db.has i := by
    intro t hi
    rcases List.mem_cons.mp hi with rfl | hi
    · exact (h t).table
    · obtain ⟨ix, hix, rfl⟩ := List.mem_map.mp hi
      exact (h t).indexes ix hix
  unfold migrationItems at hi
  split at hi
  · exact hcolumns _ _ (by decide) hi
  · exact hcolumns _ _ (by decide) hi
  · rw [List.mem_singleton.mp hi]
    exact (h .orderBookSnapshot).indexes _ (by decide)
  · rw [List.mem_singleton.mp hi]
    exact (h .orderBookSnapshot).indexes _ (by decide)
  · exact htable _ hi
  · exact htable _ hi
  · exact (List.mem_append.mp hi).elim (hcolumns _ _ (by decide)) (hcolumns _ _ (by decide))
  · cases hi

theorem mem_migrationItems_column {c : Column} (h : c ∈ migratedColumns t) :
    ∃ k ≤ latestVersion, .column t c ∈ migrationItems k := by
  cases t with
  | fill => exact ⟨1, by decide, List.mem_map_of_mem h⟩
  | position =>
    rcases List.mem_append.mp h with h | h
    · exact ⟨2, by decide, List.mem_map_of_mem h⟩
    · exact ⟨7, by decide, List.mem_append_left _ (List.mem_map_of_mem h)⟩
  | shadowPick => exact ⟨7, by decide, List.mem_append_right _ (List.mem_map_of_mem h)⟩
  | orderBookSnapshot => cases h
  | newsItem => cases h
  | marketEmbedding => cases h
  | llmUsage => cases h

theorem mem_migrationItems_index {ix : TableIndex} (h : ix ∈ migratedIndexes t) :
    ∃ k ≤ latestVersion, .index t ix ∈ migrationItems k := by
  cases t with
  | orderBookSnapshot =>
    rcases List.mem_cons.mp h with rfl | h
    · exact ⟨3, by decide, List.mem_singleton_self _⟩
    · rw [List.mem_singleton.mp h]
      exact ⟨4, by decide, List.mem_singleton_self _⟩
  | fill => cases h
  | position => cases h
  | shadowPick => cases h
  | newsItem => cases h
  | marketEmbedding => cases h
  | llmUsage => cases h

theorem applied_run {l : List Statement} (h : Each SchemaDb.exec Enabled db l) (hdb : db.Applied db.recorded) :
    (db.run l).Applied (db.run l).recorded :=
  h.preserves (P := fun db => db.Applied db.recorded) (fun _ _ => exec_recorded) hdb

theorem createVersionTable_isSome (db : SchemaDb) : (db.exec .createVersionTable).version.isSome = true := by
  show (db.version.or (some none)).isSome = true
  cases db.version <;> rfl

theorem fresh_tables (h : db.fresh = true) (t : Table) : db.tables t = none := by
  have hall : (Table.all.all fun t => (db.tables t).isNone) = true := by
    unfold SchemaDb.fresh at h
    rw [Bool.and_eq_true, Bool.and_eq_true] at h
    exact h.1.1
  have hmem : t ∈ Table.all := by cases t <;> decide
  exact Option.isNone_iff_eq_none.mp (List.all_eq_true.mp hall t hmem)

theorem initDb_spec (h : db.Sound) (order : CreationOrder) :
    Each SchemaDb.exec Enabled db (initDb order db) ∧ (db.run (initDb order db)).Based := by
  obtain ⟨henabled, hthere⟩ := @createTables_spec db order order.tables order.nodup db fun t _ => rfl
  have hbased : (db.run (createAll order db)).Based := by
    refine ⟨fun t => (hthere t (order.complete t)).1, fun t c hc hnew => ?_, fun t ix hix hnew => ?_⟩
    · cases hsome : (db.tables t).isSome with
      | true => exact run_has (h.columns t hsome c hc hnew) _
      | false => exact ((hthere t (order.complete t)).2 (by simpa using hsome)).columns c hc
    · cases hsome : (db.tables t).isSome with
      | true => exact run_has (h.indexes t hsome ix hix hnew) _
      | false => exact ((hthere t (order.complete t)).2 (by simpa using hsome)).indexes ix hix
  unfold initDb
  by_cases hfresh : db.fresh = true
  · rw [if_pos hfresh, run_append]
    have hwhole : ∀ t, (db.run (createAll order db)).Whole t := fun t =>
      (hthere t (order.complete t)).2 (fresh_tables hfresh t)
    have happlied : (db.run (createAll order db)).Applied latestVersion :=
      ⟨Nat.le_refl _, fun k _ i hi => has_of_whole hwhole hi⟩
    exact ⟨each_append.mpr ⟨henabled, trivial, ⟨createVersionTable_isSome _, applied_exec happlied _⟩, trivial⟩,
      hbased.run _⟩
  · rw [if_neg hfresh, List.append_nil]
    exact ⟨henabled, hbased⟩

theorem version_of_recorded (h : db.recorded = latestVersion) : db.version = some (some latestVersion) := by
  unfold SchemaDb.recorded at h
  cases hv : db.version with
  | none => rw [hv] at h; cases h
  | some row =>
    cases row with
    | none => rw [hv] at h; cases h
    | some v => rw [hv] at h; exact congrArg (fun v => some (some v)) h

theorem runMigrations_spec (hbased : db.Based) (happlied : db.Applied db.recorded) (order : CreationOrder) :
    Each SchemaDb.exec Enabled db (runMigrations order db) ∧
      (∀ j ≤ latestVersion, ∀ i ∈ migrationItems j, (db.run (runMigrations order db)).has i) ∧
      (db.run (runMigrations order db)).version = some (some latestVersion) := by
  have hfound : (db.exec .createVersionTable).Applied (db.exec .createVersionTable).recorded :=
    exec_recorded (s := .createVersionTable) trivial happlied
  unfold runMigrations
  dsimp only
  by_cases hlatest : latestVersion ≤ (db.exec .createVersionTable).recorded
  · rw [if_pos hlatest]
    have heq := Nat.le_antisymm hfound.1 hlatest
    refine ⟨⟨trivial, trivial⟩, fun j hj i hi => hfound.2 j (by omega) i hi, version_of_recorded heq⟩
  · rw [if_neg hlatest]
    have hdone : ∀ j, j ≤ 0 ∨ j ≤ (db.exec .createVersionTable).recorded →
        ∀ i ∈ migrationItems j, (db.exec .createVersionTable).has i := by
      intro j hj i hi
      rcases hj with hj | hj
      · obtain rfl := Nat.le_zero.mp hj
        cases hi
      · exact hfound.2 j hj i hi
    obtain ⟨he, hi, hv⟩ := @migrationStatements_spec (db.exec .createVersionTable) order _ 0 migrations rfl rfl
      migrations_migrate (hbased.run [.createVersionTable]) (createVersionTable_isSome db) hdone (by omega)
    exact ⟨⟨trivial, he⟩, hi, hv (by simp [migrations])⟩

theorem start_spec (h : db.Sound) (order : CreationOrder) :
    Each SchemaDb.exec Enabled db (startStatements order db) ∧ (db.run (startStatements order db)).Complete := by
  obtain ⟨hinit, hbased⟩ := initDb_spec h order
  obtain ⟨hmigrations, hitems, hversion⟩ := runMigrations_spec hbased (applied_run hinit h.applied) order
  have hlast := hbased.run (runMigrations order (db.run (initDb order db)))
  unfold startStatements
  rw [run_append]
  refine ⟨each_append.mpr ⟨hinit, hmigrations⟩, hversion, hlast.tables, fun t c hc => ?_, fun t ix hix => ?_⟩
  · by_cases hnew : c ∈ migratedColumns t
    · obtain ⟨k, hk, hi⟩ := mem_migrationItems_column hnew
      exact hitems k hk _ hi
    · exact hlast.columns t c hc hnew
  · by_cases hnew : ix ∈ migratedIndexes t
    · obtain ⟨k, hk, hi⟩ := mem_migrationItems_index hnew
      exact hitems k hk _ hi
    · exact hlast.indexes t ix hix hnew

/-- A complete database is left as it is. -/
theorem start_complete (h : db.Complete) (s : Startup) : db.start s = db := by
  have hnone : createAll s.order db = [] := by
    refine List.flatMap_eq_nil_iff.mpr fun t _ => ?_
    exact if_pos (h.tables t)
  have hfresh : db.fresh = false := by
    unfold SchemaDb.fresh
    simp [h.version]
  have hinit : initDb s.order db = [] := by simp [initDb, hnone, hfresh]
  have hsame : db.exec .createVersionTable = db := by
    show { db with version := db.version.or (some none) } = db
    rw [h.version, Option.some_or, ← h.version]
  have hrecorded : db.recorded = latestVersion := by rw [SchemaDb.recorded, h.version]; rfl
  have hmigrations : runMigrations s.order db = [.createVersionTable] := by
    simp [runMigrations, hsame, hrecorded]
  have hall : startStatements s.order db = [.createVersionTable] := by
    rw [startStatements, hinit]
    exact hmigrations
  unfold SchemaDb.start
  rw [hall]
  cases s.done with
  | zero => rfl
  | succ n =>
    rw [List.take_succ_cons, List.take_nil]
    exact hsame

/-- A table that is there was there, or was created. -/
theorem created_of_isSome {l : List Statement} (h : Each SchemaDb.exec Enabled db l) (hnone : db.tables t = none)
    (hsome : ((db.run l).tables t).isSome = true) : .createTable t ∈ l := by
  by_contra hnot
  have hkept : ∀ db : SchemaDb, ∀ s ∈ l, Enabled db s → db.tables t = none → (db.exec s).tables t = none := by
    intro db s hs henabled hdb
    refine (exec_frame fun heq => ?_).trans hdb
    cases s with
    | createTable t' => exact hnot (Option.some.inj heq ▸ hs)
    | createIndex t' ix =>
      rw [Enabled, Option.some.inj heq, hdb] at henabled
      cases henabled
    | addColumn t' c =>
      rw [Enabled, Option.some.inj heq, hdb] at henabled
      cases henabled
    | createVersionTable => cases heq
    | writeVersion v => cases heq
  have hlast : (db.run l).tables t = none := by
    clear hsome hnot
    induction l generalizing db with
    | nil => exact hnone
    | cons s l ih =>
      exact ih h.2 (hkept db s (List.mem_cons_self ..) h.1 hnone) fun db s hs => hkept db s (List.mem_cons_of_mem _ hs)
  rw [hlast] at hsome
  cases hsome

/-- A start does not stop between the CREATE TABLE of a table and the CREATE INDEX of one
of its indexes that no migration creates. -/
def SchemaDb.guard (db : SchemaDb) (s : Startup) : Prop :=
  ∀ t, .createTable t ∈ (startStatements s.order db).take s.done →
    ∀ ix ∈ t.indexes, ix ∉ migratedIndexes t → .createIndex t ix ∈ (startStatements s.order db).take s.done

theorem sound_start {s : Startup} (h : db.Sound) (hguard : db.guard s) : (db.start s).Sound := by
  have henabled := (start_spec h s.order).1.take s.done
  refine ⟨fun t hsome c hc hnew => ?_, fun t hsome ix hix hnew => ?_, applied_run henabled h.applied⟩
  · cases hbefore : (db.tables t).isSome with
    | true => exact run_has (h.columns t hbefore c hc hnew) _
    | false =>
      have hcreated := created_of_isSome henabled (by simpa using hbefore) hsome
      refine henabled.brings (P := fun db => db.has (.column t c)) hcreated (fun db hdb => ?_)
        fun db e hdb => exec_has hdb e
      exact ⟨_, exec_createTable_self hdb, List.any_eq_true.mpr ⟨c, hc, by simp⟩⟩
  · cases hbefore : (db.tables t).isSome with
    | true => exact run_has (h.indexes t hbefore ix hix hnew) _
    | false =>
      have hcreated := created_of_isSome henabled (by simpa using hbefore) hsome
      exact henabled.brings (P := fun db => db.has (.index t ix)) (hguard t hcreated ix hix hnew)
        (fun db hdb => exec_createIndex_has hdb ix) fun db e hdb => exec_has hdb e

/-- Over any starts that meet the guard: the recorded version is applied wherever a start
stops, and a start that succeeds completes the schema for good. -/
theorem schema_converges {db₀ db : SchemaDb} {starts : List Startup} (h₀ : db₀.Sound)
    (run : Run (guarded SchemaDb.guard fun db s db' => db' = db.start s) db₀ starts db) :
    (∀ s, (db.start s).Applied (db.start s).recorded) ∧
      ∀ s, db.succeeds s → (db.start s).Complete ∧ ∀ s', (db.start s).start s' = db.start s := by
  have hsound : db.Sound := by
    refine run.invariant (fun db s db' hdb hstep => ?_) h₀
    obtain ⟨hguard, rfl⟩ := hstep
    exact sound_start hdb hguard
  refine ⟨fun s => applied_run ((start_spec hsound s.order).1.take s.done) hsound.applied, fun s hs => ?_⟩
  have hcomplete : (db.start s).Complete := by
    have hall : (startStatements s.order db).take s.done = startStatements s.order db := List.take_of_length_le hs
    rw [SchemaDb.start, hall]
    exact (start_spec hsound s.order).2
  exact ⟨hcomplete, fun s' => start_complete hcomplete s'⟩

def emptyDb : SchemaDb := ⟨fun _ => none, none, false⟩

/-- The tables and indexes in the order of `tables.py`. -/
def declaredOrder : CreationOrder where
  tables := Table.all
  complete := by intro t; cases t <;> decide
  nodup := by decide
  indexes := Table.indexes
  declared _ := List.Perm.refl _

theorem emptyDb_sound : emptyDb.Sound := by
  have hnone : ∀ t, ¬ (emptyDb.tables t).isSome = true := fun _ => Bool.false_ne_true
  refine ⟨fun t h => absurd h (hnone t), fun t h => absurd h (hnone t), Nat.zero_le _, fun k hk i hi => ?_⟩
  obtain rfl : k = 0 := Nat.le_zero.mp hk
  cases hi

/-- A crash behind the first table, then a start that succeeds. -/
theorem schema_converges_sample :
    ((emptyDb.start ⟨declaredOrder, 4⟩).start ⟨declaredOrder, 100⟩).Complete := by
  have hguard : emptyDb.guard ⟨declaredOrder, 4⟩ := by
    intro t
    cases t <;> decide +kernel
  exact ((schema_converges emptyDb_sound (.single ⟨hguard, rfl⟩)).2 ⟨declaredOrder, 100⟩
    (show (startStatements declaredOrder (emptyDb.start ⟨declaredOrder, 4⟩)).length ≤ 100 by decide +kernel)).1

/-- After a crash right behind the CREATE TABLE of the positions, the start that succeeds
records the latest version without the unique index on open positions. -/
theorem crash_drops_index :
    ((emptyDb.start ⟨declaredOrder, 13⟩).start ⟨declaredOrder, 100⟩).recorded = latestVersion ∧
      (((emptyDb.start ⟨declaredOrder, 13⟩).start ⟨declaredOrder, 100⟩).tables .position).all
        (fun ts => positionOpenUnique ∉ ts.indexes) = true ∧
      (startStatements declaredOrder (emptyDb.start ⟨declaredOrder, 13⟩)).length ≤ 100 := by
  decide +kernel

end OpenPoly
