import OpenPoly.Spec.PaperExecutor

/-! The backend process around the executors: its boot, and the two routes that
change the mode and the wallet. What is outside it (the secret store, the
venue, the disk) answers through parameters. -/

namespace OpenPoly

/-- An `HTTPException`, with its detail. -/
structure HttpError where
  statusCode : ℕ
  error : String
  message : String
  count : Option ℕ := none
  balance : Option ℤ := none
  deriving DecidableEq, Repr

/-- How a request fails: refused, or by an exception nothing catches. -/
inductive HttpFail where
  | refused (e : HttpError)
  | raised (exc : PyErr)
  deriving DecidableEq, Repr

def refuse {α : Type} (statusCode : ℕ) (error message : String) : Except HttpFail α :=
  .error (.refused { statusCode := statusCode, error := error, message := message })

/-- What `resolve(ref)` may raise: a `SecretsError` with its text, or else. -/
inductive SecretFail where
  | secretsError (message : String)
  | raised (exc : PyErr)

/-- What the wallet's probes answer over one request. An error is the text of
the exception. -/
structure Probe where
  /-- `resolve(private_key_ref)`. -/
  secret : String → Except SecretFail String
  /-- `_derive_signer_address(pk)`. -/
  signer : String → Except String String
  /-- `build_live_executor(wallet, store)`. -/
  build : WalletSpec → Except String Unit
  /-- `get_balance_allowance` of the collateral. -/
  balanceAllowance : Except String Json

/-- The probes of the key, which both routes make; they refuse with different
codes. -/
def probeKey (statusCode : ℕ) (privateKeyRef : String) (p : Probe) : Except HttpFail String :=
  match p.secret privateKeyRef with
  | .error (.secretsError message) => refuse statusCode "wallet_secret_missing" message
  | .error (.raised exc) => .error (.raised exc)
  | .ok pk =>
    match p.signer pk with
    | .error message => refuse statusCode "bad_private_key" message
    | .ok address => .ok address

def minPusdBalanceRaw : ℤ := 1000000

def minExchangeAllowanceRaw : ℤ := 10000 * 1000000

def standardV2 : String := "0xE111180000d2663C0091e4f400237545B87B996B"

def negriskV2 : String := "0xe2222d279d744050d28e00520010520000310F59"

/-- `int(value)`, 0 for what raises `TypeError` or `ValueError`. -/
def intOrZero (value : Json) : Except PyErr ℤ :=
  match pyInt value with
  | .ok n => .ok n
  | .error .typeError => .ok 0
  | .error .valueError => .ok 0
  | .error exc => .error exc

/-- `ba.get("balance", 0)`, as an integer. -/
def pusdBalance (ba : Dict) : Except PyErr ℤ :=
  if ba.contains "balance" then intOrZero (ba.get "balance") else .ok 0

/-- `ba.get("allowances") or {}`, when that is an object. -/
def allowancesOf (ba : Dict) : Dict :=
  match ba.get "allowances" with
  | .obj allowances => allowances
  | _ => []

/-- `_allow`: the allowance of an address, compared without case. -/
def allowanceFor (allowances : Dict) (addr : String) : Except PyErr ℤ :=
  match allowances.find? fun kv => pyLower kv.1 = pyLower addr with
  | some kv => intOrZero (allowances.get kv.1)
  | none => .ok 0

def escaping {α : Type} : Except PyErr α → Except HttpFail α
  | .ok a => .ok a
  | .error exc => .error (.raised exc)

/-- The funds the venue must report before a switch to live. -/
def checkFunds (ba : Dict) : Except HttpFail Unit := do
  let balance ← escaping (pusdBalance ba)
  if balance < minPusdBalanceRaw then
    .error (.refused {
      statusCode := 409, error := "pusd_insufficient", balance := some balance
      message := "fund the DepositWallet with at least 1 pUSD first" })
  else
    let standard ← escaping (allowanceFor (allowancesOf ba) standardV2)
    if standard < minExchangeAllowanceRaw then
      refuse 409 "standard_v2_not_approved"
        "approve pUSD to the Standard V2 Exchange at polymarket.com/settings before switching"
    else
      let negrisk ← escaping (allowanceFor (allowancesOf ba) negriskV2)
      if negrisk < minExchangeAllowanceRaw then
        refuse 409 "negrisk_v2_not_approved"
          "approve pUSD to the NegRisk V2 Exchange at polymarket.com/settings before switching"
      else .ok ()

/-- The validation of a switch to live: the wallet its executor is built for. -/
def validateLive (wallet : Option WalletSpec) (p : Probe) : Except HttpFail WalletSpec :=
  match wallet with
  | none => refuse 409 "wallet_not_configured" "configure wallet before switching to live"
  | some wallet => do
    let _ ← probeKey 409 wallet.privateKeyRef p
    match p.build wallet with
    | .error message => refuse 409 "live_executor_build_failed" message
    | .ok _ =>
      match p.balanceAllowance with
      | .error message => refuse 409 "rpc_unreachable" message
      | .ok (.obj ba) => do
        checkFunds ba
        return wallet
      | .ok _ => .error (.raised .attributeError)

/-- The ledger and the state file, and what a running process holds: the
runtime state, the wallet of the live executor the dispatcher was handed, and
the funder the reconciliation monitor queries, where one runs. -/
structure Backend where
  db : Db
  file : StateFile
  state : RuntimeState
  live : Option WalletSpec
  recon : Option String

/-- `_save`: the file is replaced, or left as it was. -/
def Backend.save (b : Backend) (outage : Option PyErr) : Except PyErr Backend :=
  match outage with
  | some exc => .error exc
  | none => .ok { b with file := .json b.state.payload }

def Backend.withMode (b : Backend) (mode : ExecMode) : Backend :=
  { b with state := { b.state with execMode := mode } }

def Backend.setMode (b : Backend) (mode : ExecMode) (outage : Option PyErr) :
    Except PyErr Unit × Backend :=
  match (b.withMode mode).save outage with
  | .ok b' => (.ok (), b')
  | .error exc => (.error exc, b)

def Backend.setWallet (b : Backend) (wallet : WalletSpec) (outage : Option PyErr) :
    Except PyErr Unit × Backend :=
  match { b with state := { b.state with wallet := some wallet } }.save outage with
  | .ok b' => (.ok (), b')
  | .error exc => (.error exc, b)

/-- Up to the open-position check: an answer, unless the request goes on. -/
def admitSwitch (s : RuntimeState) (target : ExecMode) (tokenOk : Bool) :
    Option (Except HttpFail ExecMode) :=
  if target = s.execMode then some (.ok target)
  else if target = .live ∧ tokenOk = false then
    some (refuse 403 "api_token_required"
      ("set OPENPOLY_API_TOKEN to a value that resolves to a non-empty secret before switching " ++
        "to live mode — live trading behind an unauthenticated API is refused"))
  else none

def checkFlat (db : Db) : Except HttpFail Unit :=
  if db.getOpenPositions = [] then .ok ()
  else
    .error (.refused {
      statusCode := 409, error := "open_positions", count := some db.getOpenPositions.length
      message := "close all open positions before switching modes" })

/-- A switch to live hands the executor it validated to the dispatcher. -/
def Backend.handOver (b : Backend) (target : ExecMode) (p : Probe) : Except HttpFail Backend :=
  match target with
  | .paper => .ok b
  | .live =>
    match validateLive b.state.wallet p with
    | .error fail => .error fail
    | .ok wallet => .ok { b with live := some wallet }

/-- `set_mode`, run with nothing in between. -/
def Backend.switchMode (b : Backend) (target : ExecMode) (tokenOk : Bool) (p : Probe)
    (outage : Option PyErr) : Except HttpFail ExecMode × Backend :=
  match admitSwitch b.state target tokenOk with
  | some answer => (answer, b)
  | none =>
    match checkFlat b.db with
    | .error fail => (.error fail, b)
    | .ok _ =>
      match b.handOver target p with
      | .error fail => (.error fail, b)
      | .ok b' =>
        match b'.setMode target outage with
        | (.ok _, b'') => (.ok target, b'')
        | (.error exc, b'') => (.error (.raised exc), b'')

/-- `_ETH_ADDRESS_RE.match`; the `$` also matches before a final newline. -/
def isEthAddress (addr : String) : Bool :=
  match addr.toList with
  | '0' :: 'x' :: rest =>
    (rest.take 40).length = 40 && (rest.take 40).all isHexDigit &&
      (rest.drop 40 = [] || rest.drop 40 = ['\n'])
  | _ => false
where
  isHexDigit (c : Char) : Bool :=
    c.isDigit || ('a' ≤ c && c ≤ 'f') || ('A' ≤ c && c ≤ 'F')

structure WalletConfigResponse where
  privateKeyRef : Option String
  funderAddress : Option String
  signerAddress : Option String
  error : Option String := none
  deriving DecidableEq, Repr

/-- `put_wallet_config`. Neither the executor nor the reconciliation monitor
hears of the new wallet. -/
def Backend.putWalletConfig (b : Backend) (body : WalletSpec) (p : Probe)
    (outage : Option PyErr) : Except HttpFail WalletConfigResponse × Backend :=
  if !body.privateKeyRef.toList.contains ':' then
    (refuse 400 "bad_ref_format"
      "private_key_ref must look like 'scheme:value' (e.g. env:NAME or local:name)", b)
  else if !isEthAddress body.funderAddress then
    (refuse 400 "bad_address" "funder_address must be a 0x-prefixed 40-hex-char EVM address", b)
  else
    match probeKey 400 body.privateKeyRef p with
    | .error fail => (.error fail, b)
    | .ok signer =>
      match b.setWallet body outage with
      | (.ok _, b') =>
        (.ok {
          privateKeyRef := some body.privateKeyRef
          funderAddress := some body.funderAddress
          signerAddress := some signer }, b')
      | (.error exc, b') => (.error (.raised exc), b')

structure BootEnv where
  tokenOk : Bool
  /-- What saving a forced paper mode meets. -/
  saveOutage : Option PyErr := none
  /-- `build_live_executor` of the restored wallet. -/
  build : WalletSpec → Except String Unit := fun _ => .ok ()

/-- `_demote_restored_live_without_token`: the mode is forced to paper, on disk
too where that can be written. -/
def Backend.demote (b : Backend) (env : BootEnv) : Backend :=
  if b.state.execMode ≠ .live ∨ env.tokenOk = true then b
  else
    match b.setMode .paper env.saveOutage with
    | (.ok _, b') => b'
    | (.error _, _) => b.withMode .paper

/-- `lifespan`: the state is read, a live executor built, and reconciliation
started on the funder of the moment. -/
def boot (repr : Json → String) (db : Db) (file : StateFile) (env : BootEnv) :
    Except PyErr Backend :=
  match RuntimeState.load repr file with
  | .error exc => .error exc
  | .ok state =>
    let b := Backend.demote ⟨db, file, state, none, none⟩ env
    .ok { b with
      live := b.state.wallet.filter fun wallet => (env.build wallet).isOk
      recon := b.state.wallet.map WalletSpec.funderAddress }

example : isEthAddress "0xE111180000d2663C0091e4f400237545B87B996B\n" = true := by decide +kernel

end OpenPoly
