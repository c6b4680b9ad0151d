import OpenPoly.Spec.Entry
import OpenPoly.Spec.PaperExecutor

/-! Entries against the portfolio: a decision reads the tables, its buy comes
later, on whatever book and tables there are by then. Decisions and their buys
are serial; exits are not. -/

namespace OpenPoly

/-- The entry section that decides, with its configuration. -/
inductive EntryVersion where
  | v0 (config : EdgeThresholdConfig)
  | v1 (config : EdgeThresholdConfigV1) (fresh : Option (List String))

def EntryVersion.config : EntryVersion → EdgeThresholdConfig
  | .v0 config => config
  | .v1 config _ => config.toEdgeThresholdConfig

def EntryVersion.run (version : EntryVersion) (ctx : EntryContext) (res : AnalysisResult) :
    Except String OrderIntent :=
  match version with
  | .v0 config => runV0 config ctx res
  | .v1 config fresh => runV1 config ctx fresh res

/-- What one decision reads besides the portfolio. -/
structure Decision where
  version : EntryVersion
  catalog : Catalog
  now : ℚ
  recentMove : String → ℕ → Option ℚ := fun _ _ => none
  res : AnalysisResult

def Decision.intent (d : Decision) (db : Db) : Except String OrderIntent :=
  d.version.run ⟨d.catalog, some db, d.now, d.recentMove⟩ d.res

/-- A decided buy that is not made yet: its intent, and the configuration and
the open cost it was decided at. -/
structure Pending where
  intent : OrderIntent
  config : EdgeThresholdConfig
  cost : ℚ

structure EntryDesk where
  db : Db
  pending : Option Pending := none

/-- A sell of a positive quantity, or a close. -/
def Call.Exits : Call → Prop
  | .openPosition _ => False
  | .closePosition _ _ => True
  | .recordSell _ a => 0 < a.soldQty

inductive EntryEvent where
  | decide (d : Decision)
  /-- An exit, a settlement, a reconciliation or a manual close writes the ledger. -/
  | exit (e : Attempt)
  | buy (executor : Executor) (c : BuyCall)
  /-- The dispatcher has no executor for the buy. -/
  | skip

def entryDeskStep (s : EntryDesk) (event : EntryEvent) (t : EntryDesk) : Prop :=
  match event with
  | .decide d => s.pending = none ∧
      t = ⟨s.db, (d.intent s.db).toOption.map fun intent => ⟨intent, d.version.config, s.db.openCost⟩⟩
  | .exit e => e.call.Exits ∧ t = { s with db := s.db.attempt e }
  | .buy executor c => ∃ pending, s.pending = some pending ∧ c.intent = pending.intent ∧
      t = ⟨(executor.buy s.db c).db, none⟩
  | .skip => t = { s with pending := none }

end OpenPoly
