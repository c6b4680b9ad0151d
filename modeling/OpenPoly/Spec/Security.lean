import OpenPoly.Spec.Python

/-! `api/security.py`: the guard on writes from another origin. Header texts are
read as their characters. -/

namespace OpenPoly

/-- `raw.strip()`. -/
def stripped (raw : List Char) : List Char := stripChars isPySpace raw

/-- `raw.lower()`. -/
def lowered (raw : List Char) : List Char := raw.map lowerChar

def mutatingMethods : List String := ["POST", "PUT", "DELETE", "PATCH"]

def secFetchSiteSelf : List (List Char) := ["same-origin".toList, "none".toList]

def secFetchSiteCross : List Char := "cross-site".toList

/-- `_DEFAULT_PORTS.get(scheme)`. -/
def defaultPort (scheme : List Char) : Option (List Char) :=
  if scheme = "http".toList then some "80".toList
  else if scheme = "https".toList then some "443".toList
  else none

def impliedPorts : List (List Char) := ["80".toList, "443".toList]

def hostname (raw : List Char) : List Char :=
  let value := lowered (stripped raw)
  match value with
  | [] => []
  | '[' :: _ =>
    -- an unclosed bracket leaves everything to the host
    match value.idxOf? ']' with
    | some close => value.take (close + 1)
    | none => value
  | _ => if 1 < value.count ':' then value else value.takeWhile (· ≠ ':')

abbrev Authority := List Char × Option (List Char)

def splitAuthority (raw : List Char) : Option Authority :=
  let value := lowered (stripped raw)
  let host := hostname value
  if host = [] then none
  else
    match value.drop host.length with
    | ':' :: port => some (host, if port = [] then none else some port)
    | _ => some (host, none)

/-- `value.partition("://")`, where the separator is there. -/
def partitionScheme : List Char → Option (List Char × List Char)
  | [] => none
  | c :: cs =>
    if "://".toList.isPrefixOf (c :: cs) then some ([], cs.drop 2)
    else (partitionScheme cs).map fun parts => (c :: parts.1, parts.2)

def originAuthority (rawOrigin : List Char) : Option Authority :=
  let value := stripped rawOrigin
  if value = [] ∨ lowered value = "null".toList then none
  else
    match partitionScheme value with
    | none => none
    | some (scheme, rest) =>
      (splitAuthority (rest.takeWhile (· ≠ '/'))).map fun parts =>
        (parts.1, parts.2.or (defaultPort (lowered (stripped scheme))))

def sameAuthority (originParts : Authority) (rawHost : List Char) : Bool :=
  match splitAuthority rawHost with
  | none => false
  | some (host, port) =>
    if originParts.1 ≠ host then false
    else
      match port with
      | none => originParts.2.all fun p => p ∈ impliedPorts
      | some port => originParts.2 = some port

/-- The entries of `OPENPOLY_ALLOWED_HOSTS`. -/
def allowedEntries (allowedHosts : List Char) : List (List Char) :=
  (allowedHosts.splitOn ',').map fun part => lowered (stripped part)

def originAllowlisted (allowedHosts : List Char) (originParts : Authority) : Bool :=
  let entries := allowedEntries allowedHosts
  "*".toList ∈ entries ∨ originParts.1 ∈ entries ∨
    originParts.2.any fun port => originParts.1 ++ ':' :: port ∈ entries

structure GuardHeaders where
  secFetchSite : Option (List Char)
  origin : Option (List Char)
  host : Option (List Char)

/-- Why a write is refused, with what its text shows of the headers. -/
inductive WriteRefusal where
  | crossSite
  | foreignOrigin (origin host : List Char)
  deriving DecidableEq, Repr

/-- The text of a refusal; `repr` is Python's, of a string. -/
def WriteRefusal.text (repr : List Char → String) : WriteRefusal → String
  | .crossSite =>
    "this browser labelled the request cross-site " ++
      "(Sec-Fetch-Site: cross-site): a page on another site may not " ++
      "issue state changes here. Drive this backend from its own UI, " ++
      "or from a client that is not a browser."
  | .foreignOrigin origin host =>
    "mutating requests must come from this backend's own origin (host and " ++
      "port both). Origin " ++ repr origin ++ " does not match Host " ++
      repr host ++ "; add that origin's host — or " ++
      "host:port — to OPENPOLY_ALLOWED_HOSTS if it is meant to drive this " ++
      "backend."

def crossOriginWriteRefusal (allowedHosts : List Char) (method : String) (headers : GuardHeaders) :
    Option WriteRefusal :=
  if pyUpper method ∉ mutatingMethods then none
  else
    let label := headers.secFetchSite.map fun site => lowered (stripped site)
    if label = some secFetchSiteCross then some .crossSite
    else if label.any fun value => value ∈ secFetchSiteSelf then none
    else
      match headers.origin with
      | none => none
      | some origin =>
        let host := headers.host.getD []
        if (originAuthority origin).any fun parts =>
            sameAuthority parts host || originAllowlisted allowedHosts parts then none
        else some (.foreignOrigin ((stripped origin).take 100) (host.take 100))

end OpenPoly
