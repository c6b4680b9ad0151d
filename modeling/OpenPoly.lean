import OpenPoly.Lib.Run
import OpenPoly.Lib.Holding
import OpenPoly.Lib.Registry
import OpenPoly.Lib.Largest
import OpenPoly.Spec.Python
import OpenPoly.Spec.Store
import OpenPoly.Spec.Closing
import OpenPoly.Spec.Sizing
import OpenPoly.Spec.Response
import OpenPoly.Spec.Settle
import OpenPoly.Spec.Conclusion
import OpenPoly.Spec.LiveExecutor
import OpenPoly.Proofs.Store
import OpenPoly.Proofs.Ledger
import OpenPoly.Proofs.Closing
import OpenPoly.Proofs.Evidence
import OpenPoly.Proofs.Settle
import OpenPoly.Proofs.Quantity
import OpenPoly.Proofs.Outcome
import OpenPoly.Proofs.Posted
import OpenPoly.Proofs.RestingSell
import OpenPoly.Spec.Orchestrator
import OpenPoly.Proofs.RestingBuy
import OpenPoly.Spec.RuntimeState
import OpenPoly.Spec.PaperExecutor
import OpenPoly.Spec.Backend
import OpenPoly.Spec.ModeDesk
import OpenPoly.Lib.Custody
import OpenPoly.Proofs.Custody
import OpenPoly.Proofs.Mode
import OpenPoly.Spec.Host
import OpenPoly.Proofs.Host
import OpenPoly.Spec.Reconciliation
import OpenPoly.Proofs.Reconciliation
import OpenPoly.Lib.Except
import OpenPoly.Lib.StableSort
import OpenPoly.Spec.Entry
import OpenPoly.Proofs.Entry
import OpenPoly.Proofs.EntryV1
import OpenPoly.Proofs.Shadow
import OpenPoly.Spec.PortfolioGates
import OpenPoly.Spec.Shadow
import OpenPoly.Spec.Exposure
import OpenPoly.Lib.Matching
import OpenPoly.Proofs.Sizing
import OpenPoly.Proofs.Booked
import OpenPoly.Proofs.Exposure
import OpenPoly.Proofs.PaperBuy
import OpenPoly.Proofs.SellAgreement
import OpenPoly.Proofs.ReconciledClose
import OpenPoly.Spec.Equity
import OpenPoly.Lib.NewestWins
import OpenPoly.Spec.BookFeed
import OpenPoly.Spec.JsonText
import OpenPoly.Spec.MarketData
import OpenPoly.Spec.Discovery
import OpenPoly.Proofs.Discovery
import OpenPoly.Spec.SettlementMonitor
import OpenPoly.Proofs.BookStore
import OpenPoly.Proofs.BookFeed
import OpenPoly.Proofs.Equity
import OpenPoly.Proofs.MarketData
import OpenPoly.Proofs.Tolerance
import OpenPoly.Spec.Exit
import OpenPoly.Spec.ExitMonitor
import OpenPoly.Spec.ExitOutcome
import OpenPoly.Lib.HighWater
import OpenPoly.Lib.Unbroken
import OpenPoly.Proofs.ThinStreak
import OpenPoly.Proofs.Holdings
import OpenPoly.Proofs.Peaks
import OpenPoly.Proofs.ExitSlot
import OpenPoly.Proofs.ExitRun
import OpenPoly.Proofs.InstantStop
import OpenPoly.Spec.Writer
import OpenPoly.Lib.Tagged
import OpenPoly.Proofs.Writer
import OpenPoly.Spec.News
import OpenPoly.Proofs.Numerals
import OpenPoly.Proofs.News
import OpenPoly.Spec.NewsManager
import OpenPoly.Proofs.NewsFeed
import OpenPoly.Spec.Canvas
import OpenPoly.Spec.CanvasReload
import OpenPoly.Proofs.CanvasReload
import OpenPoly.Spec.JsonDump
import OpenPoly.Proofs.JsonDump
import OpenPoly.Proofs.JsonDecode
import OpenPoly.Spec.Notional
import OpenPoly.Proofs.Notional
import OpenPoly.Proofs.ExitMonotone
import OpenPoly.Lib.Page
import OpenPoly.Proofs.Lockout
import OpenPoly.Proofs.KillSwitch
import OpenPoly.Proofs.FillPrice
import OpenPoly.Proofs.PaperSell
import OpenPoly.Proofs.FinalPrice
import OpenPoly.Proofs.Reports
import OpenPoly.Spec.Reports
import OpenPoly.Lib.Trim
import OpenPoly.Spec.Security
import OpenPoly.Proofs.Security
import OpenPoly.Spec.TemplateIO
import OpenPoly.Proofs.TemplateIO
import OpenPoly.Spec.CanvasLock
import OpenPoly.Proofs.CanvasLock
import OpenPoly.Spec.Migrations
import OpenPoly.Lib.Effects
import OpenPoly.Proofs.Migrations
import OpenPoly.Spec.CanvasAutosave
import OpenPoly.Proofs.CanvasAutosave
import OpenPoly.Proofs.ExitOutcome
import OpenPoly.Proofs.ExitHistory
import OpenPoly.Proofs.Backoff
import OpenPoly.Proofs.ExitRows
import OpenPoly.Spec.FileStores
import OpenPoly.Proofs.FileStores
import OpenPoly.Spec.Analyzer
import OpenPoly.Proofs.Analyzer
import OpenPoly.Lib.Tally
import OpenPoly.Spec.Calibration
import OpenPoly.Proofs.Calibration
import OpenPoly.Lib.Dictionary
import OpenPoly.Spec.Embedding
import OpenPoly.Proofs.Embedding
import OpenPoly.Lib.Indexed
import OpenPoly.Spec.Reconnect
import OpenPoly.Proofs.Reconnect
import OpenPoly.Spec.Polling
import OpenPoly.Proofs.Poller
import OpenPoly.Proofs.UsePoll
import OpenPoly.Proofs.SellEstimate
import OpenPoly.Lib.Ring
import OpenPoly.Spec.SectionLog
import OpenPoly.Spec.Pipeline
import OpenPoly.Proofs.Pipeline
import OpenPoly.Proofs.PipelineBuys
import OpenPoly.Spec.LLMClient
import OpenPoly.Proofs.LLMClient
import OpenPoly.Spec.UsageStore
import OpenPoly.Proofs.UsageStore
import OpenPoly.Spec.TickLoop
import OpenPoly.Proofs.TickLoop
import OpenPoly.Spec.ApiGate
import OpenPoly.Proofs.ApiGate
import OpenPoly.Spec.CanvasTabs
import OpenPoly.Proofs.CanvasTabs
import OpenPoly.Spec.CanvasEditor
import OpenPoly.Proofs.CanvasEditor
import OpenPoly.Proofs.CanvasParse
import OpenPoly.Proofs.PersistThrottle
import OpenPoly.Lib.Grouped
import OpenPoly.Lib.Earliest
import OpenPoly.Spec.ShadowReport
import OpenPoly.Proofs.ShadowReport
import OpenPoly.Proofs.Returns
