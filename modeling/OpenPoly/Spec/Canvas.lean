import OpenPoly.Spec.JsonText

/-! The canvas template: the section configs read from it as the runtime does, from
the upgraded template, and as the reload compares them, from the stored one. -/

namespace OpenPoly

def PyJson.number : PyJson → Option PyFloat
  | .bool b => some (.fin (if b then 1 else 0))
  | .int n => some (.fin n)
  | .float x => some x
  | _ => none

/-- `len(d)`. -/
def PyDict.size (d : PyDict) : ℕ := (d.map Prod.fst).dedup.length

mutual

/-- `x == y`. A NaN equals nothing. -/
def PyJson.pyEq : PyJson → PyJson → Bool
  | .null, y => (y matches .null)
  | .bool b, y => y.number = some (.fin (if b then 1 else 0))
  | .int n, y => y.number = some (.fin n)
  | .float x, y => x ≠ .nan ∧ y.number = some x
  | .str s, .str t => s = t
  | .str _, _ => false
  | .arr xs, .arr ys => PyJson.pyEqItems xs ys
  | .arr _, _ => false
  | .obj d, .obj d' => PyDict.size d = PyDict.size d' ∧ PyJson.pyEqEntries d d'
  | .obj _, _ => false

def PyJson.pyEqItems : List PyJson → List PyJson → Bool
  | [], ys => ys.isEmpty
  | x :: xs, ys =>
    match ys with
    | [] => false
    | y :: ys => x.pyEq y && PyJson.pyEqItems xs ys

/-- Every entry, unless a later one replaces it, is in the other object. -/
def PyJson.pyEqEntries : List (PyStr × PyJson) → PyDict → Bool
  | [], _ => true
  | (k, x) :: d, d' =>
    (d.any (fun kv => kv.1 = k) || (d'.reverse.find? fun kv => kv.1 = k).any fun kv => x.pyEq kv.2) &&
      PyJson.pyEqEntries d d'

end

/-- `d == d'`. -/
def PyDict.pyEq (d d' : PyDict) : Bool := PyJson.pyEq (.obj d) (.obj d')

/-- `{**d, key: value}`. -/
def PyDict.set (d : PyDict) (key : String) (value : PyJson) : PyDict := d.assign (.of key) value

/-- `isinstance(x, int)`, and which one. -/
def PyJson.toInt? : PyJson → Option ℤ
  | .int n => some n
  | .bool b => some (if b then 1 else 0)
  | _ => none

/-- `x == text`. -/
def PyJson.isText (x : PyJson) (text : String) : Bool :=
  match x with
  | .str s => s = PyStr.of text
  | _ => false

inductive SectionType where
  | newsSource
  | marketSource
  | embedding
  | analyzer
  | entry
  | exit
  | database
  deriving DecidableEq

def SectionType.name : SectionType → String
  | .newsSource => "news_source"
  | .marketSource => "market_source"
  | .embedding => "embedding"
  | .analyzer => "analyzer"
  | .entry => "entry"
  | .exit => "exit"
  | .database => "database"

def sectionNode (s : SectionType) : PyJson → Option PyDict
  | .obj node => if (PyDict.get? node "sectionType").any (·.isText s.name) then some node else none
  | _ => none

/-- The config of the first node of the type, an empty one where there is none. -/
def nodesConfig (nodes : List PyJson) (s : SectionType) : PyDict :=
  match nodes.findSome? (sectionNode s) with
  | none => []
  | some node =>
    match PyDict.get? node "config" with
    | some (.obj config) => config
    | _ => []

/-- The nodes of a template, unless they are no list. -/
def templateNodes (template : PyDict) : List PyJson :=
  match template.get? "nodes" with
  | some (.arr nodes) => nodes
  | _ => []

def canvasTemplateVersion : ℤ := 4

def entryV1CooldownMinutes : ℤ := 60

def cooldownKey : String := "same_market_cooldown_minutes"

/-- The node of a template before version 4: an entry node's explicit cooldown of 0
is lifted. -/
def upgradeNode (node : PyJson) : PyJson :=
  match sectionNode .entry node with
  | none => node
  | some entry =>
    match PyDict.get? entry "config" with
    | some (.obj config) =>
      if (PyDict.get? config cooldownKey).any fun x => x.number = some (.fin 0) then
        .obj (PyDict.set entry "config" (.obj (PyDict.set config cooldownKey (.int entryV1CooldownMinutes))))
      else node
    | _ => node

def outdated (template : PyDict) : Bool :=
  ((template.get? "version").bind PyJson.toInt?).any fun v => v < canvasTemplateVersion

def upgradeTemplate (template : PyDict) : PyDict :=
  if outdated template then
    let upgraded := template.set "version" (.int canvasTemplateVersion)
    match template.get? "nodes" with
    | some (.arr nodes) => upgraded.set "nodes" (.arr (nodes.map upgradeNode))
    | _ => upgraded
  else template

def sectionConfig (template : Option PyDict) (s : SectionType) : PyDict :=
  match template with
  | none => []
  | some template => nodesConfig (templateNodes (upgradeTemplate template)) s

/-- The sections' config classes: `cls()`, `cls(**raw)` unless it raises, and the
freshness window of a news source's config. -/
structure ConfigClasses (κ : Type) where
  default : SectionType → κ
  validate : SectionType → PyDict → Option κ
  freshnessSeconds : κ → ℤ

def canvasConfig {κ : Type} (classes : ConfigClasses κ) (template : Option PyDict) (s : SectionType) : κ :=
  let raw := sectionConfig template s
  if raw.isEmpty then classes.default s else (classes.validate s raw).getD (classes.default s)

/-- `_section_config` of the reload. -/
def storedConfig (template : Option PyDict) (s : SectionType) : PyDict :=
  match template with
  | none => []
  | some template => nodesConfig (templateNodes template) s

/-- `len(template.get("nodes") or [])` does not raise. -/
def countable (template : Option PyDict) : Bool :=
  match template.bind (PyDict.get? · "nodes") with
  | some (.bool b) => !b
  | some (.int n) => n = 0
  | some (.float x) => x = .fin 0
  | _ => true

/-- What `put_canvas_template` accepts as a template. -/
def templateShaped (body : PyDict) : Bool :=
  (body.get? "version").any (fun x => x.toInt?.isSome) && (body.get? "nodes").any fun x => x matches .arr _

/-- The body without its `rev`. -/
def withoutRev (body : PyDict) : PyDict := body.filter fun kv => kv.1 ≠ PyStr.of "rev"

end OpenPoly
