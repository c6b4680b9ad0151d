import OpenPoly.Spec.ModeDesk
import OpenPoly.Spec.Reconciliation

/-! One host over many boots: requests, buys, disposals and reconciliation ticks,
one after another. Beside it stands the executor that bought each position. -/

namespace OpenPoly

def Executor.funder : Executor → Option String
  | .paper => none
  | .live wallet => some wallet.funderAddress

def Outcome.opened (out : Outcome) : Option ℕ :=
  match out.result with
  | .ok r => if r.filled then r.positionId else none
  | .error _ => none

/-- The dispatcher's `execute_buy`, with the position it opened and for whom. -/
def Backend.buy (b : Backend) (c : BuyCall) : Backend × Option (ℕ × Executor) :=
  match dispatchBuy b.state.execMode b.live with
  | .error _ => (b, none)
  | .ok executor =>
    let out := executor.buy b.db c
    ({ b with db := out.db }, out.opened.map fun i => (i, executor))

def Backend.watches (b : Backend) : Option String :=
  if b.state.execMode = .live then b.recon else none

/-- What a reconciliation tick meets: the indexer's answer for any wallet, and
what the database does to each close. -/
structure TickEnv where
  holdings : String → Except PyErr Json
  ts : ℚ
  outage : ℕ → Option PyErr := fun _ => none

/-- `_tick_once`, with nothing else under way. -/
def Backend.tick (repr : Json → String) (b : Backend) (env : TickEnv) : Backend :=
  match b.watches with
  | none => b
  | some funder =>
    { b with db := ReconTick.run {
        opensAt := b.db, answer := env.holdings funder, repr := repr, ts := env.ts
        sweptAt := b.db, closing := [], outage := env.outage } }

/-- The process that runs, or what a host without one keeps. -/
inductive Host where
  | down (db : Db) (file : StateFile)
  | up (b : Backend)

def Host.db : Host → Db
  | .down db _ => db
  | .up b => b.db

def Host.file : Host → StateFile
  | .down _ file => file
  | .up b => b.file

structure Site where
  host : Host
  buyers : ℕ → Option Executor

inductive HostEvent where
  | boot (env : BootEnv)
  | putWallet (body : WalletSpec) (p : Probe) (outage : Option PyErr)
  | setMode (target : ExecMode) (tokenOk : Bool) (p : Probe) (outage : Option PyErr)
  | buy (c : BuyCall)
  /-- A sell or a settlement. -/
  | dispose (d : Dispose) (outage : Option PyErr)
  | tick (env : TickEnv)

/-- A step of the running process, if there is one. -/
def Site.onUp (s : Site) (f : Backend → Backend) : Site :=
  match s.host with
  | .down _ _ => s
  | .up b => { s with host := .up (f b) }

def Site.boot (repr : Json → String) (s : Site) (env : BootEnv) : Site :=
  match OpenPoly.boot repr s.host.db s.host.file env with
  | .error _ => { s with host := .down s.host.db s.host.file }
  | .ok b => { s with host := .up b }

def Site.buy (s : Site) (c : BuyCall) : Site :=
  match s.host with
  | .down _ _ => s
  | .up b =>
    { host := .up (b.buy c).1
      buyers := match (b.buy c).2 with
        | none => s.buyers
        | some (i, executor) => Function.update s.buyers i (some executor) }

def Site.step (repr : Json → String) (s : Site) : HostEvent → Site
  | .boot env => s.boot repr env
  | .putWallet body p outage => s.onUp fun b => (b.putWalletConfig body p outage).2
  | .setMode target tokenOk p outage => s.onUp fun b => (b.switchMode target tokenOk p outage).2
  | .buy c => s.buy c
  | .dispose d outage => s.onUp fun b => { b with db := b.db.attempt ⟨d.call, outage⟩ }
  | .tick env => s.onUp fun b => b.tick repr env

end OpenPoly
