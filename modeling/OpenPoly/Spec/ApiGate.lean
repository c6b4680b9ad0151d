import OpenPoly.Lib.Trim
import OpenPoly.Spec.FileStores
import OpenPoly.Spec.ModeDesk
import OpenPoly.Spec.Security

/-! The API in front of the process: secret refs, the shared token, the Host allowlist, and
the requests that pass them, over the process's boots. The environment is the process's
own and stays; the secret store changes under it. -/

namespace OpenPoly

/-- What the process reads from its environment; `repr` is Python's text of a string. -/
structure ProcessEnv where
  environ : PyStr → Option PyStr
  /-- `OPENPOLY_ALLOWED_HOSTS`, empty where it is unset. -/
  allowedHosts : List Char
  repr : PyStr → String

/-- `get_store()`: the store, or what building it raises. -/
abbrev StoreHandle := Except PyErr SecretStore

def refSchemes : List String := ["env:", "local:", "vault:", "keychain:"]

def isSecretRef (value : PyStr) : Bool := refSchemes.any fun scheme => (PyStr.of scheme).isPrefixOf value

def SecretStore.get (s : SecretStore) (name : PyStr) : Except PyErr PyJson :=
  match validateName (.str name) with
  | .error exc => .error exc
  | .ok name =>
    match s.cache.at? name with
    | none => .error nameNotFound
    | some .null => .error nameNotFound
    | some (.obj entry) =>
      match PyDict.get? entry "value" with
      | some value => .ok value
      | none => .error (.other "KeyError")
    | some _ => .error .typeError

def notImplemented : PyErr := .other "NotImplementedError"

/-- The `local:` branch of `resolve`. -/
def resolveLocal (store : StoreHandle) (name : PyStr) : Except SecretFail PyJson :=
  match store with
  | .error exc => .error (.raised exc)
  | .ok store =>
    match store.get name with
    | .ok value => .ok value
    | .error exc =>
      if exc = nameNotFound then .error (.secretsError ("Local secret not found: " ++ name.shown))
      else if exc = invalidName then .error (.secretsError ("Invalid local secret name: " ++ name.shown))
      else .error (.raised exc)

def resolve (env : ProcessEnv) (store : StoreHandle) (ref : PyStr) : Except SecretFail PyJson :=
  if .char ':' ∉ ref then
    .error (.secretsError ("Invalid ref format (expected 'scheme:value'): " ++ env.repr ref))
  else
    let scheme := ref.takeWhile fun c => c ≠ .char ':'
    let value := ref.drop (scheme.length + 1)
    if scheme = PyStr.of "env" then
      match env.environ value with
      | none => .error (.secretsError ("Env var not set: " ++ PyStr.shown value))
      | some text => .ok (.str text)
    else if scheme = PyStr.of "local" then resolveLocal store value
    else if scheme = PyStr.of "vault" ∨ scheme = PyStr.of "keychain" then .error (.raised notImplemented)
    else .error (.secretsError ("Unknown secret scheme: " ++ PyStr.shown scheme))

def PyChar.isSpace : PyChar → Bool
  | .char c => isPySpace c
  | .surrogate _ => false

def PyStr.strip (s : PyStr) : PyStr := Trim.trim PyChar.isSpace s

def ProcessEnv.rawTokenSetting (env : ProcessEnv) : PyStr :=
  PyStr.strip ((env.environ (PyStr.of "OPENPOLY_API_TOKEN")).getD [])

def ProcessEnv.apiTokenConfigured (env : ProcessEnv) : Bool := env.rawTokenSetting ≠ []

/-- A value of the store that is no string has no `strip`. -/
def usableToken : PyJson → Except PyErr (Option PyStr)
  | .str value => .ok (if value.strip = [] then none else some value)
  | _ => .error .attributeError

def resolveApiToken (env : ProcessEnv) (store : StoreHandle) : Except PyErr (Option PyStr) :=
  let raw := env.rawTokenSetting
  if raw = [] then .ok none
  else if isSecretRef raw then
    match resolve env store raw with
    | .ok value => usableToken value
    | .error (.secretsError _) => .ok none
    | .error (.raised exc) => if exc = notImplemented then .ok none else .error exc
  else usableToken (.str raw)

def apiTokenOk (env : ProcessEnv) (store : StoreHandle) : Except PyErr Bool :=
  if env.apiTokenConfigured then (resolveApiToken env store).map Option.isSome else .ok false

/-- `_tokens_match`: a lone surrogate has no UTF-8. -/
def tokensMatch (supplied expected : PyStr) : Except PyErr Bool :=
  if supplied.encodable && expected.encodable then .ok (supplied = expected)
  else .error (.other "UnicodeEncodeError")

def invalidApiToken : Except HttpFail Unit :=
  refuse 401 "invalid_api_token" "missing or invalid X-OpenPoly-Token header"

def requireApiToken (env : ProcessEnv) (store : StoreHandle) (supplied : Option PyStr) : Except HttpFail Unit :=
  if !env.apiTokenConfigured then .ok ()
  else
    match resolveApiToken env store, supplied with
    | .error exc, _ => .error (.raised exc)
    | .ok (some expected), some supplied =>
      match tokensMatch supplied expected with
      | .error exc => .error (.raised exc)
      | .ok true => .ok ()
      | .ok false => invalidApiToken
    | .ok _, _ => invalidApiToken

def loopbackHosts : List (List Char) :=
  ["localhost".toList, "127.0.0.1".toList, "[::1]".toList, "::1".toList]

/-- `allowed_hosts`. -/
def allowedHostNames (allowedHosts : List Char) : List (List Char) :=
  loopbackHosts ++ (allowedEntries allowedHosts).filter (· ≠ [])

def hostAllowed (allowedHosts rawHost : List Char) : Bool :=
  if (allowedHosts.splitOn ',').any fun part => stripped part = "*".toList then true
  else
    let host := hostname rawHost
    host = [] || (allowedHostNames allowedHosts).any fun name => name = host

def hostAllowlistMiddleware (env : ProcessEnv) (method : String) (headers : GuardHeaders) : Except HttpFail Unit :=
  let repr := fun chars : List Char => env.repr (chars.map .char)
  let rawHost := headers.host.getD []
  if !hostAllowed env.allowedHosts rawHost then
    refuse 421 "host_not_allowed" ("Host " ++ repr (hostname rawHost) ++
      " is not allowed; add it to OPENPOLY_ALLOWED_HOSTS if this backend is meant to serve it")
  else
    match crossOriginWriteRefusal env.allowedHosts method headers with
    | some refusal => refuse 403 "cross_origin_write" (refusal.text repr)
    | none => .ok ()

/-- The routes that change anything, and one for the reads. -/
inductive Route where
  | setMode (target : ExecMode)
  | putWalletConfig (body : WalletSpec)
  | createLocal (name value : PyStr)
  | deleteLocal (name : PyStr)
  | putTemplate
  | marketSourceStart
  | marketSourceStop
  | newsTest
  | newsSourceStart
  | newsSourceStop
  | analyzerTest
  | closePosition
  | closeAll
  | read

def Route.method : Route → String
  | .putWalletConfig _ => "PUT"
  | .putTemplate => "PUT"
  | .deleteLocal _ => "DELETE"
  | .read => "GET"
  | _ => "POST"

/-- The routes declared with `Depends(require_api_token)`. -/
def Route.guarded : Route → Bool
  | .read => false
  | _ => true

/-- No route that changes anything is left without the token. -/
theorem Route.guarded_iff (route : Route) : route.guarded = true ↔ route.method ∈ mutatingMethods := by
  cases route <;> simp [Route.guarded, Route.method, mutatingMethods]

structure ApiRequest where
  headers : GuardHeaders
  /-- The `X-OpenPoly-Token` header. -/
  token : Option PyStr

def admitRequest (env : ProcessEnv) (store : StoreHandle) (route : Route) (r : ApiRequest) : Except HttpFail Unit :=
  match hostAllowlistMiddleware env route.method r.headers with
  | .error fail => .error fail
  | .ok () => if route.guarded then requireApiToken env store r.token else .ok ()

/-- Where a request is: let through to its route, or done with. -/
inductive ApiPhase where
  | idle
  | admitted (route : Route)
  | refused (fail : HttpFail)
  | served

structure ApiSite where
  env : ProcessEnv
  store : StoreHandle
  desk : ModeDesk
  requests : ℕ → ApiPhase

def ApiSite.withStore (s : ApiSite) (f : SecretStore → SecretStore) : ApiSite := { s with store := s.store.map f }

/-- Before the first boot: the state is the default one and no request is served. -/
def ApiSite.down (db : Db) (file : StateFile) (buyers : ℕ → Option Executor) (env : ProcessEnv)
    (store : StoreHandle) : ApiSite :=
  ⟨env, store, ModeDesk.start ⟨db, file, {}, none, none⟩ buyers, fun _ => .idle⟩

def ApiSite.setRequest (s : ApiSite) (k : ℕ) (phase : ApiPhase) : ApiSite :=
  { s with requests := Function.update s.requests k phase }

/-- What a boot finds besides its files. -/
structure ApiBoot where
  env : ProcessEnv
  store : StoreHandle
  saveOutage : Option PyErr := none
  build : WalletSpec → Except String Unit := fun _ => .ok ()

/-- The token's check at the boot, made for a mode read as live only. -/
def ApiBoot.tokenOk (b : ApiBoot) (repr : Json → String) (file : StateFile) : Except PyErr Bool :=
  if (RuntimeState.load repr file).toOption.any fun state => state.execMode = .live then
    apiTokenOk b.env b.store
  else .ok true

/-- `lifespan` of a new process on the files of the last. -/
def ApiSite.boot (repr : Json → String) (s : ApiSite) (b : ApiBoot) : Option ApiSite :=
  match b.tokenOk repr s.desk.proc.file with
  | .error _ => none
  | .ok tokenOk =>
    match OpenPoly.boot repr s.desk.proc.db s.desk.proc.file ⟨tokenOk, b.saveOutage, b.build⟩ with
    | .error _ => none
    | .ok proc => some ⟨b.env, b.store, ModeDesk.start proc s.desk.buyers, fun _ => .idle⟩

inductive ApiEvent where
  /-- The process is started again; one that fails to start serves nothing. -/
  | boot (b : ApiBoot)
  /-- A request arrives, and is let through or refused. -/
  | arrive (k : ℕ) (route : Route) (r : ApiRequest)
  /-- A route runs. -/
  | setMode (k : ℕ)
  | putWalletConfig (k : ℕ) (p : Probe) (outage : Option PyErr)
  | createLocal (k : ℕ) (now : ℚ) (faults : Faults)
  | deleteLocal (k : ℕ) (faults : Faults)
  /-- A mode switch under way, a trade or a disposal takes a step. -/
  | desk (e : ModeEvent)

def ApiSite.arrive (s : ApiSite) (k : ℕ) (route : Route) (r : ApiRequest) : ApiSite :=
  match admitRequest s.env s.store route r with
  | .ok () => s.setRequest k (.admitted route)
  | .error fail => s.setRequest k (.refused fail)

/-- `set_mode` begins, with the token checked once more for the switch to live. -/
def ApiSite.beginSwitch (s : ApiSite) (k : ℕ) (target : ExecMode) : Option ApiSite :=
  let enter := fun tokenOk =>
    (modeStep s.desk (.request k target tokenOk)).map fun desk => { s with desk := desk }.setRequest k .served
  if target = .live ∧ target ≠ s.desk.proc.state.execMode then
    match apiTokenOk s.env s.store with
    | .ok tokenOk => enter tokenOk
    | .error exc => some (s.setRequest k (.refused (.raised exc)))
  else enter true

def ApiSite.deskStep (s : ApiSite) : ModeEvent → Option ApiSite
  | .request _ _ _ => none
  | e => (modeStep s.desk e).map fun desk => { s with desk := desk }

def ApiSite.step (repr : Json → String) (s : ApiSite) : ApiEvent → Option ApiSite
  | .boot b => s.boot repr b
  | .arrive k route r =>
    match s.requests k with
    | .idle => some (s.arrive k route r)
    | _ => none
  | .setMode k =>
    match s.requests k with
    | .admitted (.setMode target) => s.beginSwitch k target
    | _ => none
  | .putWalletConfig k p outage =>
    match s.requests k with
    | .admitted (.putWalletConfig body) =>
      let proc := (s.desk.proc.putWalletConfig body p outage).2
      some ({ s with desk := { s.desk with proc := proc } }.setRequest k .served)
    | _ => none
  | .createLocal k now faults =>
    match s.requests k with
    | .admitted (.createLocal name value) =>
      some ((s.withStore fun store => (store.set now (.str name) (.str value) faults).1).setRequest k .served)
    | _ => none
  | .deleteLocal k faults =>
    match s.requests k with
    | .admitted (.deleteLocal name) =>
      some ((s.withStore fun store => (store.delete (.str name) faults).1).setRequest k .served)
    | _ => none
  | .desk e => s.deskStep e

end OpenPoly
