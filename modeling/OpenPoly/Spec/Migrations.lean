import Mathlib.Data.List.Basic
import Mathlib.Logic.Function.Basic

/-! The start of the database: `create_all`, the stamp of a fresh database and the
versioned migrations, down to the statements that take effect one by one. DDL commits
on its own; the version is written and committed in one. -/

namespace OpenPoly

inductive Table where
  | orderBookSnapshot
  | newsItem
  | marketEmbedding
  | fill
  | position
  | llmUsage
  | shadowPick
  deriving DecidableEq

structure Column where
  name : String
  sqlType : String
  deriving DecidableEq

/-- An index: its columns, and the rows a partial one is of. -/
structure TableIndex where
  name : String
  columns : List String
  unique : Bool := false
  condition : Option String := none
  deriving DecidableEq

def Table.name : Table → String
  | .orderBookSnapshot => "order_book_snapshot"
  | .newsItem => "news_item"
  | .marketEmbedding => "market_embedding"
  | .fill => "fill"
  | .position => "position"
  | .llmUsage => "llm_usage"
  | .shadowPick => "shadow_pick"

/-- The columns of `tables.py`. -/
def Table.columns : Table → List Column
  | .orderBookSnapshot => [⟨"id", "INTEGER"⟩, ⟨"token_id", "VARCHAR"⟩, ⟨"recorded_at", "FLOAT"⟩,
      ⟨"bids_json", "VARCHAR"⟩, ⟨"asks_json", "VARCHAR"⟩]
  | .newsItem => [⟨"id", "INTEGER"⟩, ⟨"news_id", "VARCHAR"⟩, ⟨"content", "VARCHAR"⟩, ⟨"urgency", "VARCHAR"⟩,
      ⟨"sentiment", "VARCHAR"⟩, ⟨"published_at", "FLOAT"⟩, ⟨"received_at", "FLOAT"⟩]
  | .marketEmbedding => [⟨"id", "INTEGER"⟩, ⟨"market_id", "VARCHAR"⟩, ⟨"model_name", "VARCHAR"⟩,
      ⟨"text_hash", "VARCHAR"⟩, ⟨"vector", "BLOB"⟩, ⟨"created_at", "FLOAT"⟩]
  | .fill => [⟨"id", "INTEGER"⟩, ⟨"ts", "FLOAT"⟩, ⟨"market_id", "VARCHAR"⟩, ⟨"side", "VARCHAR"⟩,
      ⟨"action", "VARCHAR"⟩, ⟨"price", "FLOAT"⟩, ⟨"qty", "FLOAT"⟩, ⟨"fee", "FLOAT"⟩, ⟨"position_id", "INTEGER"⟩,
      ⟨"news_id", "VARCHAR"⟩, ⟨"trigger", "VARCHAR"⟩, ⟨"order_id", "VARCHAR"⟩, ⟨"tx_hash", "VARCHAR"⟩]
  | .position => [⟨"id", "INTEGER"⟩, ⟨"market_id", "VARCHAR"⟩, ⟨"side", "VARCHAR"⟩, ⟨"token_id", "VARCHAR"⟩,
      ⟨"condition_id", "VARCHAR"⟩, ⟨"qty", "FLOAT"⟩, ⟨"avg_entry_price", "FLOAT"⟩, ⟨"status", "VARCHAR"⟩,
      ⟨"opened_at", "FLOAT"⟩, ⟨"closed_at", "FLOAT"⟩, ⟨"close_reason", "VARCHAR"⟩, ⟨"realized_pnl", "FLOAT"⟩,
      ⟨"entry_p_model", "FLOAT"⟩, ⟨"entry_confidence", "VARCHAR"⟩, ⟨"entry_edge", "FLOAT"⟩,
      ⟨"entry_rationale", "VARCHAR"⟩, ⟨"entry_news_direction", "VARCHAR"⟩]
  | .llmUsage => [⟨"id", "INTEGER"⟩, ⟨"ts", "FLOAT"⟩, ⟨"news_id", "VARCHAR"⟩, ⟨"model", "VARCHAR"⟩,
      ⟨"verdict", "VARCHAR"⟩, ⟨"input_tokens", "INTEGER"⟩, ⟨"output_tokens", "INTEGER"⟩,
      ⟨"cache_read_input_tokens", "INTEGER"⟩, ⟨"cache_creation_input_tokens", "INTEGER"⟩,
      ⟨"attempts", "INTEGER"⟩, ⟨"cost_usd", "FLOAT"⟩]
  | .shadowPick => [⟨"id", "INTEGER"⟩, ⟨"ts", "FLOAT"⟩, ⟨"news_id", "VARCHAR"⟩, ⟨"market_id", "VARCHAR"⟩,
      ⟨"p_model", "FLOAT"⟩, ⟨"confidence", "VARCHAR"⟩, ⟨"side", "VARCHAR"⟩, ⟨"token_id", "VARCHAR"⟩,
      ⟨"ask", "FLOAT"⟩, ⟨"taker_fee_rate", "FLOAT"⟩, ⟨"bid", "FLOAT"⟩, ⟨"edge", "FLOAT"⟩]

def orderBookTokenTimeIndex : TableIndex where
  name := "ix_order_book_snapshot_token_recorded"
  columns := ["token_id", "recorded_at"]

def orderBookRecordedAtIndex : TableIndex where
  name := "ix_order_book_snapshot_recorded_at"
  columns := ["recorded_at"]

/-- At most one open position per market and side. -/
def positionOpenUnique : TableIndex where
  name := "ix_position_open_unique"
  columns := ["market_id", "side"]
  unique := true
  condition := some "status = 'open'"

/-- `index=True`. -/
def Table.columnIndex (t : Table) (column : String) : TableIndex where
  name := "ix_" ++ t.name ++ "_" ++ column
  columns := [column]

def Table.indexes (t : Table) : List TableIndex :=
  match t with
  | .orderBookSnapshot => [orderBookTokenTimeIndex, orderBookRecordedAtIndex, t.columnIndex "token_id"]
  | .newsItem => [t.columnIndex "news_id", t.columnIndex "received_at"]
  | .marketEmbedding => [t.columnIndex "market_id"]
  | .fill => [t.columnIndex "market_id", t.columnIndex "position_id"]
  | .position => [positionOpenUnique, t.columnIndex "market_id"]
  | .llmUsage => [t.columnIndex "ts"]
  | .shadowPick => [t.columnIndex "ts"]

structure TableState where
  columns : List Column
  indexes : List TableIndex

structure SchemaDb where
  tables : Table → Option TableState
  /-- The `schema_version` table and its row. -/
  version : Option (Option ℕ)
  /-- There are tables of other names. -/
  others : Bool

/-- A statement that takes effect on its own. -/
inductive Statement where
  | createTable (t : Table)
  | createIndex (t : Table) (ix : TableIndex)
  | addColumn (t : Table) (c : Column)
  | createVersionTable
  | writeVersion (version : ℕ)
  deriving DecidableEq

def SchemaDb.modify (db : SchemaDb) (t : Table) (f : TableState → TableState) : SchemaDb :=
  { db with tables := Function.update db.tables t ((db.tables t).map f) }

/-- The database after a statement; a table or an index that exists is left. -/
def SchemaDb.exec (db : SchemaDb) : Statement → SchemaDb
  | .createTable t =>
    { db with tables := Function.update db.tables t (some ((db.tables t).getD ⟨t.columns, []⟩)) }
  | .createIndex t ix =>
    db.modify t fun ts => if ix ∈ ts.indexes then ts else { ts with indexes := ts.indexes ++ [ix] }
  | .addColumn t c => db.modify t fun ts => { ts with columns := ts.columns ++ [c] }
  | .createVersionTable => { db with version := db.version.or (some none) }
  | .writeVersion version => { db with version := db.version.map fun _ => some version }

def SchemaDb.run (db : SchemaDb) (statements : List Statement) : SchemaDb := statements.foldl SchemaDb.exec db

/-- `_read_version`, 0 where there is none. -/
def SchemaDb.recorded (db : SchemaDb) : ℕ := db.version.join.getD 0

/-- The order in which tables and their indexes are created. -/
structure CreationOrder where
  tables : List Table
  complete : ∀ t, t ∈ tables
  nodup : tables.Nodup
  indexes : Table → List TableIndex
  declared : ∀ t, (indexes t).Perm t.indexes

/-- `table.create(conn, checkfirst=True)`. -/
def createMissing (order : CreationOrder) (t : Table) (db : SchemaDb) : List Statement :=
  if (db.tables t).isSome then [] else .createTable t :: (order.indexes t).map (.createIndex t)

def addMissingColumns (t : Table) (columns : List Column) (db : SchemaDb) : List Statement :=
  match db.tables t with
  | none => []
  | some ts => (columns.filter fun c => !ts.columns.any (·.name = c.name)).map (.addColumn t)

/-- `CREATE INDEX IF NOT EXISTS`, unless the table does not exist. -/
def createMissingIndex (t : Table) (ix : TableIndex) (db : SchemaDb) : List Statement :=
  if (db.tables t).isSome then [.createIndex t ix] else []

def fillLiveColumns : List Column := [⟨"order_id", "VARCHAR"⟩, ⟨"tx_hash", "VARCHAR"⟩]

def positionEntryColumns : List Column :=
  [⟨"entry_p_model", "FLOAT"⟩, ⟨"entry_confidence", "VARCHAR"⟩, ⟨"entry_edge", "FLOAT"⟩]

def entryRationaleColumns : List Column :=
  [⟨"entry_rationale", "VARCHAR"⟩, ⟨"entry_news_direction", "VARCHAR"⟩]

def shadowFeeColumns : List Column := [⟨"taker_fee_rate", "FLOAT"⟩]

abbrev Migration := CreationOrder → SchemaDb → List Statement

def m001FillLiveColumns : Migration := fun _ => addMissingColumns .fill fillLiveColumns

def m002PositionEntryColumns : Migration := fun _ => addMissingColumns .position positionEntryColumns

def m003OrderBookTokenTimeIndex : Migration := fun _ => createMissingIndex .orderBookSnapshot orderBookTokenTimeIndex

def m004OrderBookRecordedAtIndex : Migration := fun _ => createMissingIndex .orderBookSnapshot orderBookRecordedAtIndex

def m005LlmUsageTable : Migration := fun order => createMissing order .llmUsage

def m006ShadowPickTable : Migration := fun order => createMissing order .shadowPick

def m007EntryRationaleAndFeeColumns : Migration := fun _ db =>
  addMissingColumns .position entryRationaleColumns db ++ addMissingColumns .shadowPick shadowFeeColumns db

def migrations : List (ℕ × Migration) :=
  [(1, m001FillLiveColumns), (2, m002PositionEntryColumns), (3, m003OrderBookTokenTimeIndex),
    (4, m004OrderBookRecordedAtIndex), (5, m005LlmUsageTable), (6, m006ShadowPickTable),
    (7, m007EntryRationaleAndFeeColumns)]

def latestVersion : ℕ := 7

/-- The loop of `run_migrations`, for what is left of the list. -/
def migrationStatements (order : CreationOrder) (version : ℕ) : List (ℕ × Migration) → SchemaDb → List Statement
  | [], _ => []
  | (target, migrate) :: rest, db =>
    if target ≤ version then migrationStatements order version rest db
    else
      let statements := migrate order db ++ [.writeVersion target]
      statements ++ migrationStatements order version rest (db.run statements)

def runMigrations (order : CreationOrder) (db : SchemaDb) : List Statement :=
  let found := db.exec .createVersionTable
  .createVersionTable ::
    if latestVersion ≤ found.recorded then [] else migrationStatements order found.recorded migrations found

def createAll (order : CreationOrder) (db : SchemaDb) : List Statement :=
  order.tables.flatMap fun t => createMissing order t db

def Table.all : List Table :=
  [.orderBookSnapshot, .newsItem, .marketEmbedding, .fill, .position, .llmUsage, .shadowPick]

/-- `not inspect(engine).get_table_names()`. -/
def SchemaDb.fresh (db : SchemaDb) : Bool := (Table.all.all fun t => (db.tables t).isNone) && db.version.isNone && !db.others

def initDb (order : CreationOrder) (db : SchemaDb) : List Statement :=
  createAll order db ++ if db.fresh then [.createVersionTable, .writeVersion latestVersion] else []

/-- `init_db`, then `run_migrations`. -/
def startStatements (order : CreationOrder) (db : SchemaDb) : List Statement :=
  initDb order db ++ runMigrations order (db.run (initDb order db))

/-- A start that comes to an end after some of its statements. -/
structure Startup where
  order : CreationOrder
  done : ℕ

def SchemaDb.start (db : SchemaDb) (s : Startup) : SchemaDb := db.run ((startStatements s.order db).take s.done)

def SchemaDb.succeeds (db : SchemaDb) (s : Startup) : Prop := (startStatements s.order db).length ≤ s.done

end OpenPoly
