import OpenPoly.Spec.Canvas

/-! `templateIO.ts`: what the frontend makes of a stored template. A value of the
engine is a decoded value whose numbers are all doubles; `none` is `undefined`, or a
`TypeError` where the computation as a whole may throw. -/

namespace OpenPoly

def jsDouble (n : ℤ) : PyFloat :=
  if n.natAbs ≤ 2 ^ 53 then .fin n
  else
    let ulp : ℤ := 2 ^ (n.natAbs.log2 - 52)
    let m := roundHalfEven (n / ulp) * ulp
    if (2 ^ 1024 : ℤ) ≤ m then .inf else if m ≤ -2 ^ 1024 then .negInf else .fin m

mutual

/-- `JSON.parse` of a value's text. -/
def PyJson.jsRead : PyJson → PyJson
  | .int n => .float (jsDouble n)
  | .arr xs => .arr (PyJson.jsItems xs)
  | .obj kvs => .obj (PyJson.jsEntries kvs)
  | v => v

def PyJson.jsItems : List PyJson → List PyJson
  | [] => []
  | x :: xs => x.jsRead :: PyJson.jsItems xs

def PyJson.jsEntries : List (PyStr × PyJson) → PyDict
  | [] => []
  | (k, x) :: kvs => (k, x.jsRead) :: PyJson.jsEntries kvs

end

def jsNum (q : ℚ) : PyJson := .float (.fin q)

def jsText (s : String) : PyJson := .str (PyStr.of s)

/-- `v.key`; a property of `undefined` or `null` is a `TypeError`. -/
def jsGet (v : Option PyJson) (key : String) : Option (Option PyJson) :=
  match v with
  | none => none
  | some .null => none
  | some (.obj d) => some (PyDict.get? d key)
  | some _ => some none

/-- `v?.key`. -/
def jsOptGet (v : Option PyJson) (key : String) : Option PyJson := (jsGet v key).join

/-- `v === w`, of two values parsed apart: an object is no other object. -/
def strictEq (v w : Option PyJson) : Bool :=
  match v, w with
  | none, none => true
  | some .null, some .null => true
  | some (.bool b), some (.bool b') => b = b'
  | some (.float x), some (.float y) => x ≠ .nan ∧ x = y
  | some (.str s), some (.str t) => s = t
  | _, _ => false

/-- An object literal; a property that is `undefined` is left out. -/
def jsObj (entries : List (String × Option PyJson)) : PyJson :=
  .obj (entries.filterMap fun e => e.2.map fun v => (PyStr.of e.1, v))

/-- The properties of a `StoredTemplate` the frontend reads. -/
structure StoredTemplate where
  version : Option PyJson
  name : Option PyJson
  nodes : List PyJson
  edges : List PyJson

/-- What the frontend brings: `y - 200`, a `TypeError` where `y` has no number, and
the default config of a news source. -/
structure Frontend where
  above : Option PyJson → Option PyJson
  newsSourceConfig : PyJson

/-- `n.sectionType === type`. -/
def isOfType (type : SectionType) (n : PyJson) : Option Bool :=
  (jsGet (some n) "sectionType").map fun t => strictEq t (some (jsText type.name))

/-- `nodes.find`. -/
def findOfType (type : SectionType) (nodes : List PyJson) : Option (Option PyJson) :=
  nodes.findM? (isOfType type)

def newsNode (f : Frontend) (analyzer : PyJson) : Option PyJson := do
  let position ← jsGet (some analyzer) "position"
  let x ← jsGet position "x"
  let y ← jsGet position "y"
  let above ← f.above y
  return jsObj [("id", some (jsText "news_source-migrated")),
    ("sectionType", some (jsText "news_source")),
    ("position", some (jsObj [("x", x), ("y", some above)])), ("config", some f.newsSourceConfig)]

def migrateV1toV2 (f : Frontend) (v1 : StoredTemplate) : Option StoredTemplate := do
  match ← findOfType .analyzer v1.nodes with
  | none => return { v1 with version := some (jsNum 2) }
  | some analyzer =>
    let node ← newsNode f analyzer
    let target ← jsGet (some analyzer) "id"
    return {
      version := some (jsNum 2)
      name := v1.name
      nodes := node :: v1.nodes
      edges := jsObj [("source", some (jsText "news_source-migrated")), ("target", target)] :: v1.edges }

/-- `e.source === source && e.target === target`. -/
def joins (source target : Option PyJson) (e : PyJson) : Option Bool := do
  if strictEq (← jsGet (some e) "source") source then
    return strictEq (← jsGet (some e) "target") target
  else return false

def migrateV2toV3 (v2 : StoredTemplate) : Option StoredTemplate := do
  let embedding ← findOfType .embedding v2.nodes
  let database ← findOfType .database v2.nodes
  match embedding, database with
  | some embedding, some database =>
    let source ← jsGet (some embedding) "id"
    let target ← jsGet (some database) "id"
    let there ← v2.edges.anyM (joins source target)
    return { v2 with
      version := some (jsNum 3)
      edges := if there then v2.edges else v2.edges ++ [jsObj [("source", source), ("target", target)]] }
  | _, _ => return { v2 with version := some (jsNum 3) }

/-- `ENTRY_V1_COOLDOWN_MINUTES`. -/
def entryCooldown : PyJson := jsNum 60

/-- `{...n, config: {...n.config, same_market_cooldown_minutes: 60}}`. -/
def liftCooldown (n : PyJson) : PyJson :=
  match n with
  | .obj d =>
    match PyDict.get? d "config" with
    | some (.obj config) => .obj (PyDict.set d "config" (.obj (PyDict.set config cooldownKey entryCooldown)))
    | _ => n
  | _ => n

/-- What `migrateV3toV4` makes of a node. -/
def migrateNode (n : PyJson) : Option PyJson := do
  if ← isOfType .entry n then
    let config ← jsGet (some n) "config"
    return if strictEq (jsOptGet config cooldownKey) (some (jsNum 0)) then liftCooldown n else n
  else return n

def migrateV3toV4 (v3 : StoredTemplate) : Option StoredTemplate := do
  let nodes ← v3.nodes.mapM migrateNode
  return { v3 with version := some (jsNum 4), nodes := nodes }

/-- `stored.version === version`. -/
def StoredTemplate.isVersion (t : StoredTemplate) (version : ℚ) : Bool := strictEq t.version (some (jsNum version))

def climb (version : ℚ) (step : StoredTemplate → Option StoredTemplate) (t : StoredTemplate × Bool) :
    Option (StoredTemplate × Bool) :=
  if t.1.isVersion version then (step t.1).map fun t => (t, true) else some t

def migrate (f : Frontend) (input : StoredTemplate) : Option (StoredTemplate × Bool) := do
  let t ← climb 1 (migrateV1toV2 f) (input, false)
  let t ← climb 2 migrateV2toV3 t
  climb 3 migrateV3toV4 t

def sectionOrder : List SectionType :=
  [.newsSource, .marketSource, .embedding, .analyzer, .entry, .exit, .database]

/-- `KNOWN_SECTION_TYPES.has(n.sectionType)`. -/
def isKnown (n : PyJson) : Option Bool :=
  (jsGet (some n) "sectionType").map fun t => sectionOrder.any fun s => strictEq t (some (jsText s.name))

inductive FetchResult where
  | ok (template : StoredTemplate) (rev : PyStr) (migrated : Bool)
  | incompatible
  | networkError
  /-- The promise is rejected. -/
  | rejected

def parseTemplate (f : Frontend) (raw : PyJson) : Option FetchResult :=
  match raw with
  | .obj r =>
    match PyDict.get? r "nodes", PyDict.get? r "edges" with
    | some (.arr nodes), some (.arr edges) => do
      let (stored, migrated) ← migrate f ⟨PyDict.get? r "version", PyDict.get? r "name", nodes, edges⟩
      if !stored.isVersion 4 then return .incompatible
      if !(← stored.nodes.allM isKnown) then return .incompatible
      match PyDict.get? r "rev" with
      | some (.str rev) => return if rev = [] then .networkError else .ok stored rev migrated
      | _ => return .networkError
    | _, _ => some .networkError
  | _ => some .networkError

/-- `fetchTemplateFromBackend` on the answer to a stored template. The parse is returned
without being awaited, so what it throws is not caught. -/
def fetchStored (f : Frontend) (stored : PyDict) (rev : PyStr) : FetchResult :=
  (parseTemplate f (PyJson.jsRead (.obj (stored.set "rev" (.str rev))))).getD .rejected

end OpenPoly
