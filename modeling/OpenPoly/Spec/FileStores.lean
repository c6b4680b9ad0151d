import OpenPoly.Spec.JsonDump
import OpenPoly.Spec.RuntimeState

/-! The two stores that live in a file and in memory: the secrets, and the exec mode with
the wallet. A write is a sequence of file operations, any of which may raise. -/

namespace OpenPoly

inductive FileOp where
  | mkdir
  /-- The temporary file is created, or truncated. -/
  | openTmp
  | write
  | fsync
  | chmodTmp
  | replace
  | chmod
  deriving DecidableEq

/-- A file, and the temporary one beside it once that is written whole. -/
structure Disk (β : Type) where
  file : β
  tmp : Option β := none

def Disk.run {β : Type} (d : Disk β) (content : β) : FileOp → Disk β
  | .openTmp => { d with tmp := none }
  | .write => { d with tmp := some content }
  | .replace => ⟨d.tmp.getD d.file, none⟩
  | _ => d

abbrev Faults := FileOp → Option PyErr

/-- The operations in order, up to the first that raises. -/
def Disk.perform {β : Type} (d : Disk β) (content : β) (faults : Faults) : List FileOp → Disk β × Except PyErr Unit
  | [] => (d, .ok ())
  | op :: ops =>
    match faults op with
    | some exc => (d, .error exc)
    | none => (d.run content op).perform content faults ops

/-- `secrets.json`, as reading it turns out. -/
inductive SecretFile where
  | missing
  /-- `OSError` or `JSONDecodeError`. -/
  | unreadable
  /-- Anything else reading it may raise. -/
  | raises (exc : PyErr)
  | json (raw : PyJson)

/-- `_load_if_exists`: the entries a new store holds. -/
def loadSecrets : SecretFile → Except PyErr PyDict
  | .missing => .ok []
  | .unreadable => .ok []
  | .raises exc => .error exc
  | .json (.obj data) =>
    match PyDict.get? data "entries" with
    | some (.obj entries) => .ok (dictOf entries)
    | _ => .ok []
  | .json _ => .error .attributeError

structure SecretStore where
  cache : PyDict
  disk : Disk SecretFile

structure SecretEntry where
  name : PyStr
  createdAt : PyJson

def nameChar (c : PyChar) : Bool :=
  match c with
  | .char c => c.isAlphanum || c = '_' || c = '-'
  | .surrogate _ => false

/-- `_NAME_RE.match`: `$` lets one newline at the end pass. -/
def validName (name : PyStr) : Bool :=
  let body := if name.getLast? = some (.char (Char.ofNat 0x0A)) then name.dropLast else name
  (body.splitOn (.char '/')).all fun segment => segment ≠ [] ∧ segment.all nameChar

def invalidName : PyErr := .other "InvalidName"

def nameNotFound : PyErr := .other "NameNotFound"

def validateName : PyJson → Except PyErr PyStr
  | .str name => if validName name then .ok name else .error invalidName
  | _ => .error invalidName

/-- `d.get(key)`. -/
def PyDict.at? (d : PyDict) (key : PyStr) : Option PyJson :=
  (d.find? fun kv => kv.1 = key).map Prod.snd

/-- `bool(value)`. -/
def PyJson.truthy : PyJson → Bool
  | .null => false
  | .bool b => b
  | .int n => n ≠ 0
  | .float x => x ≠ .fin 0
  | .str s => s ≠ []
  | .arr xs => !xs.isEmpty
  | .obj d => !d.isEmpty

def createdAt (now : ℚ) (existing : Option PyJson) : Except PyErr PyJson :=
  match existing.filter PyJson.truthy with
  | none => .ok (.float (.fin now))
  | some (.obj d) =>
    match PyDict.get? d "created_at" with
    | some value => .ok value
    | none => .error (.other "KeyError")
  | some _ => .error .typeError

def secretEntry (value : PyStr) (createdAt : PyJson) : PyJson :=
  .obj [(.of "value", .str value), (.of "created_at", createdAt)]

/-- What `_persist` writes. -/
def secretsDocument (cache : PyDict) : PyJson := (PyJson.obj [(.of "entries", .obj cache)]).sortKeys

def persistOps : List FileOp := [.mkdir, .openTmp, .write, .fsync, .replace, .chmod]

def SecretStore.persist (s : SecretStore) (faults : Faults) : SecretStore × Except PyErr Unit :=
  let (disk, result) := s.disk.perform (.json (secretsDocument s.cache)) faults persistOps
  ({ s with disk := disk }, result)

/-- The checks of `set`, and the entry it is to store. -/
def SecretStore.prepare (s : SecretStore) (now : ℚ) (name value : PyJson) :
    Except PyErr (PyStr × PyStr × PyJson) := do
  let name ← validateName name
  match value with
  | .str value =>
    if value = [] then .error invalidName
    else
      let created ← createdAt now (s.cache.at? name)
      return (name, value, created)
  | _ => .error invalidName

def SecretStore.set (s : SecretStore) (now : ℚ) (name value : PyJson) (faults : Faults) :
    SecretStore × Except PyErr SecretEntry :=
  match s.prepare now name value with
  | .error exc => (s, .error exc)
  | .ok (name, value, created) =>
    let (s, result) := { s with cache := s.cache.assign name (secretEntry value created) }.persist faults
    (s, result.map fun _ => ⟨name, created⟩)

/-- `del d[key]`. -/
def PyDict.remove (d : PyDict) (key : PyStr) : PyDict := d.filter fun kv => kv.1 ≠ key

def SecretStore.delete (s : SecretStore) (name : PyJson) (faults : Faults) : SecretStore × Except PyErr Unit :=
  match validateName name with
  | .error exc => (s, .error exc)
  | .ok name =>
    if (s.cache.at? name).isNone then (s, .error nameNotFound)
    else { s with cache := s.cache.remove name }.persist faults

structure RuntimeStore where
  state : RuntimeState
  disk : Disk StateFile
  /-- The mode was last set with `persist=False`: a record for the reader. -/
  unsaved : Bool := false

def saveOps : List FileOp := [.mkdir, .openTmp, .write, .chmodTmp, .replace]

def RuntimeStore.save (s : RuntimeStore) (faults : Faults) : RuntimeStore × Except PyErr Unit :=
  let (disk, result) := s.disk.perform (.json s.state.payload) faults saveOps
  ({ s with disk := disk }, result)

def ExecMode.ofText (mode : String) : Option ExecMode :=
  if mode = "paper" then some .paper else if mode = "live" then some .live else none

def RuntimeStore.setMode (s : RuntimeStore) (mode : String) (persist : Bool) (faults : Faults) :
    RuntimeStore × Except PyErr Unit :=
  match ExecMode.ofText mode with
  | none => (s, .error .valueError)
  | some mode =>
    let prev := s.state.execMode
    let changed := { s with state := { s.state with execMode := mode } }
    if !persist then ({ changed with unsaved := true }, .ok ())
    else
      let (saved, result) := changed.save faults
      match result with
      | .ok () => ({ saved with unsaved := false }, .ok ())
      | .error exc => ({ saved with state := { saved.state with execMode := prev } }, .error exc)

def RuntimeStore.setWallet (s : RuntimeStore) (spec : Option WalletSpec) (faults : Faults) :
    RuntimeStore × Except PyErr Unit :=
  match spec with
  | none => (s, .error .typeError)
  | some spec =>
    let prev := s.state.wallet
    let (saved, result) := { s with state := { s.state with wallet := some spec } }.save faults
    match result with
    | .ok () => ({ saved with unsaved := false }, .ok ())
    | .error exc => ({ saved with state := { saved.state with wallet := prev } }, .error exc)

structure Stores where
  secrets : SecretStore
  runtime : RuntimeStore

inductive StoreOp where
  | setSecret (now : ℚ) (name value : PyJson) (faults : Faults)
  | deleteSecret (name : PyJson) (faults : Faults)
  | setMode (mode : String) (persist : Bool) (faults : Faults)
  | setWallet (spec : Option WalletSpec) (faults : Faults)

def Stores.step (s : Stores) : StoreOp → Stores × Except PyErr Unit
  | .setSecret now name value faults =>
    let (secrets, result) := s.secrets.set now name value faults
    ({ s with secrets := secrets }, result.map fun _ => ())
  | .deleteSecret name faults =>
    let (secrets, result) := s.secrets.delete name faults
    ({ s with secrets := secrets }, result)
  | .setMode mode persist faults =>
    let (runtime, result) := s.runtime.setMode mode persist faults
    ({ s with runtime := runtime }, result)
  | .setWallet spec faults =>
    let (runtime, result) := s.runtime.setWallet spec faults
    ({ s with runtime := runtime }, result)

def Stores.boot (repr : Json → String) (secrets : Disk SecretFile) (runtime : Disk StateFile) : Except PyErr Stores := do
  let cache ← loadSecrets secrets.file
  let state ← RuntimeState.load repr runtime.file
  return ⟨⟨cache, secrets⟩, { state := state, disk := runtime }⟩

end OpenPoly
