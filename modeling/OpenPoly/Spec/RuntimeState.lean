import OpenPoly.Spec.Python

/-! `RuntimeState`: the exec mode and the wallet config, and the file they are
read from at boot and written to at every change. -/

namespace OpenPoly

inductive ExecMode where
  | paper
  | live
  deriving DecidableEq, Repr

structure WalletSpec where
  privateKeyRef : String
  funderAddress : String
  deriving DecidableEq, Repr

structure RuntimeState where
  execMode : ExecMode := .paper
  wallet : Option WalletSpec := none
  deriving DecidableEq, Repr

/-- `runtime.json`, as reading it turns out. -/
inductive StateFile where
  | missing
  /-- `OSError` or `JSONDecodeError`. -/
  | unreadable
  /-- Anything else reading it may raise. -/
  | raises (exc : PyErr)
  | json (raw : Json)

def ExecMode.text : ExecMode → String
  | .paper => "paper"
  | .live => "live"

def parseMode : Json → Except PyErr ExecMode
  | .null => .ok .paper
  | .str "paper" => .ok .paper
  | .str "live" => .ok .live
  | _ => .error .valueError

/-- `_parse_wallet`; `repr` is the text of floats and containers. -/
def parseWallet (repr : Json → String) : Json → Except PyErr (Option WalletSpec)
  | .null => .ok none
  | .obj value =>
    if Dict.contains value "private_key_ref" && Dict.contains value "funder_address" then
      .ok (some {
        privateKeyRef := (Dict.get value "private_key_ref").text repr
        funderAddress := (Dict.get value "funder_address").text repr })
    else .error (.other "KeyError")
  | _ => .error .typeError

/-- `load`: the defaults for a file that is absent, unreadable or of another
schema; a body that is no object raises. -/
def RuntimeState.load (repr : Json → String) : StateFile → Except PyErr RuntimeState
  | .missing => .ok {}
  | .unreadable => .ok {}
  | .raises exc => .error exc
  | .json (.obj raw) =>
    match parseMode (Dict.get raw "exec_mode"), parseWallet repr (Dict.get raw "wallet") with
    | .ok execMode, .ok wallet => .ok ⟨execMode, wallet⟩
    | _, _ => .ok {}
  | .json _ => .error .attributeError

/-- What `_save` writes. -/
def RuntimeState.payload (s : RuntimeState) : Json :=
  .obj [
    ("wallet", match s.wallet with
      | none => .null
      | some wallet => .obj [
          ("private_key_ref", .str wallet.privateKeyRef),
          ("funder_address", .str wallet.funderAddress)]),
    ("exec_mode", .str s.execMode.text)]

end OpenPoly
