import OpenPoly.Spec.CanvasTabs
import OpenPoly.Spec.TemplateIO

/-! The canvas as a tab edits it (`store.ts`, `edgeRules.ts`): nodes and edges under the
operator's changes, the migrations a stored canvas goes through (`templateIO.ts`, on
documents whose nodes and edges have their fields), and the tabs of a server with an editor
each. -/

namespace OpenPoly

/-- The `sectionType` of a stored node. -/
inductive StoredType where
  | known (type : SectionType)
  /-- Of a section this build no longer has. -/
  | removed (name : String)
  deriving DecidableEq

def StoredType.isKnown : StoredType → Bool
  | .known _ => true
  | .removed _ => false

structure SectionNode where
  id : List Char
  sectionType : StoredType
  position : ℚ × ℚ
  config : PyDict

/-- A template of any version, its edges by their ends. -/
structure CanvasTemplate where
  version : ℕ
  name : String
  nodes : List SectionNode
  edges : List (List Char × List Char)

structure CanvasEdge where
  id : List Char
  source : List Char
  target : List Char

def CanvasEdge.ends (e : CanvasEdge) : List Char × List Char := (e.source, e.target)

/-- The canvas of a tab. Ids are numbered by exact naturals, which the browser's numbers are
below 2^53. -/
structure CanvasEditor where
  templateName : String
  nodes : List SectionNode
  edges : List CanvasEdge
  nextNumericId : ℕ

/-- What the editor uses from outside: the id React Flow gives a new edge, and
`defaultConfigForType` of the catalog loaded and of `MOCK_RUNTIME_CATALOG`. -/
structure EditorLib where
  edgeId : List Char → List Char → List Char
  defaultConfig : SectionType → PyDict
  mockConfig : SectionType → PyDict

def newId (n : ℕ) : List Char := 'n' :: Nat.toDigits 10 n

/-- The number of an id, `/^n(\d+)$/`. -/
def idNumber : List Char → Option ℕ
  | 'n' :: ds => if ds ≠ [] ∧ ds.all Char.isDigit then some (digitsValue ds) else none
  | _ => none

def bumpIdCounterFrom (next : ℕ) (nodes : List SectionNode) : ℕ :=
  nodes.foldl (fun next n =>
    match idNumber n.id with
    | some v => if next ≤ v then v + 1 else next
    | none => next) next

/-- `templateToCanvas`. -/
def edgesOf (edges : List (List Char × List Char)) : List CanvasEdge :=
  edges.mapIdx fun i e =>
    ⟨"e-".toList ++ e.1 ++ '-' :: e.2 ++ '-' :: Nat.toDigits 10 i, e.1, e.2⟩

def CanvasEditor.loadTemplate (s : CanvasEditor) (template : CanvasTemplate) : CanvasEditor where
  templateName := template.name
  nodes := template.nodes
  edges := edgesOf template.edges
  nextNumericId := bumpIdCounterFrom s.nextNumericId template.nodes

def CanvasEditor.serialize (s : CanvasEditor) : CanvasTemplate :=
  ⟨4, s.templateName, s.nodes, s.edges.map CanvasEdge.ends⟩

def CanvasEditor.startup (template : CanvasTemplate) : CanvasEditor :=
  CanvasEditor.loadTemplate ⟨template.name, [], [], 1⟩ template

def CanvasTemplate.find (t : CanvasTemplate) (type : SectionType) : Option SectionNode :=
  t.nodes.find? fun n => n.sectionType = .known type

/-- `migrateV1toV2`: a news source above the analyzer. -/
def CanvasTemplate.migrateV1toV2 (lib : EditorLib) (v1 : CanvasTemplate) : CanvasTemplate :=
  match v1.find .analyzer with
  | none => { v1 with version := 2 }
  | some analyzer =>
    let newsId := "news_source-migrated".toList
    let newsNode : SectionNode :=
      ⟨newsId, .known .newsSource, (analyzer.position.1, analyzer.position.2 - 200), lib.mockConfig .newsSource⟩
    { v1 with version := 2, nodes := newsNode :: v1.nodes, edges := (newsId, analyzer.id) :: v1.edges }

/-- `migrateV2toV3`: the edge from the embedding to the database. -/
def CanvasTemplate.migrateV2toV3 (v2 : CanvasTemplate) : CanvasTemplate :=
  match v2.find .embedding, v2.find .database with
  | some embedding, some database =>
    { v2 with
      version := 3
      edges := if (embedding.id, database.id) ∈ v2.edges then v2.edges
        else v2.edges ++ [(embedding.id, database.id)] }
  | _, _ => { v2 with version := 3 }

/-- What `migrateV3toV4` makes of a node. -/
def SectionNode.lifted (n : SectionNode) : SectionNode :=
  if n.sectionType = .known .entry ∧
      strictEq ((n.config.get? cooldownKey).map PyJson.jsRead) (some (jsNum 0)) then
    { n with config := n.config.set cooldownKey entryCooldown }
  else n

def CanvasTemplate.migrateV3toV4 (v3 : CanvasTemplate) : CanvasTemplate :=
  { v3 with version := 4, nodes := v3.nodes.map SectionNode.lifted }

def CanvasTemplate.migrate (lib : EditorLib) (t : CanvasTemplate) : CanvasTemplate :=
  let t := if t.version = 1 then t.migrateV1toV2 lib else t
  let t := if t.version = 2 then t.migrateV2toV3 else t
  if t.version = 3 then t.migrateV3toV4 else t

/-- `_parseTemplate`, and `loadFromStorage` on a draft. -/
def CanvasTemplate.parse (lib : EditorLib) (t : CanvasTemplate) : Adopted CanvasTemplate :=
  let stored := t.migrate lib
  if stored.version = 4 ∧ stored.nodes.all (·.sectionType.isKnown) then .ok stored else .incompatible

/-- A node of `SEED_TEMPLATE`. -/
def seedNode (lib : EditorLib) (sectionType : SectionType) (x y : ℚ) : SectionNode :=
  ⟨(sectionType.name ++ "-seed").toList, .known sectionType, (x, y), lib.mockConfig sectionType⟩

/-- An edge of `SEED_TEMPLATE`. -/
def seedEdge (source target : SectionType) : List Char × List Char :=
  ((source.name ++ "-seed").toList, (target.name ++ "-seed").toList)

def seedTemplate (lib : EditorLib) : CanvasTemplate where
  version := 4
  name := "demo baseline"
  nodes := [seedNode lib .newsSource 0 (-300), seedNode lib .marketSource 340 (-300),
    seedNode lib .embedding 0 (-100), seedNode lib .database 340 (-100), seedNode lib .analyzer 0 100,
    seedNode lib .exit 340 100, seedNode lib .entry 0 300]
  edges := [seedEdge .newsSource .embedding, seedEdge .embedding .analyzer, seedEdge .analyzer .entry,
    seedEdge .marketSource .database, seedEdge .newsSource .database, seedEdge .embedding .database]

def validPairs : List (SectionType × SectionType) :=
  [(.newsSource, .embedding), (.embedding, .analyzer), (.analyzer, .entry),
    (.marketSource, .database), (.newsSource, .database), (.embedding, .database)]

def SectionNode.has (n : SectionNode) (id : List Char) : Bool := decide (n.id = id)

def isValidConnection (source target : List Char) (nodes : List SectionNode) (edges : List CanvasEdge) : Bool :=
  if source = [] ∨ target = [] then false
  else if source = target then false
  else
    match nodes.find? (·.has source), nodes.find? (·.has target) with
    | some src, some tgt =>
      if !validPairs.any fun p => .known p.1 = src.sectionType ∧ .known p.2 = tgt.sectionType then false
      else !edges.any fun e => e.source = source ∧ e.target = target
    | _, _ => false

/-- A `NodeChange` that is no selection and no measurement. -/
inductive NodeChange where
  | position (id : List Char) (position : ℚ × ℚ)
  | remove (id : List Char)
  deriving DecidableEq

/-- A call of the store by the page. -/
inductive EditorChange where
  | onConnect (source target : List Char)
  | addSectionNode (sectionType : SectionType) (position : ℚ × ℚ)
  | onNodesChange (changes : List NodeChange)
  /-- Edges are only removed. -/
  | onEdgesChange (removed : List (List Char))
  | updateNodeConfig (id : List Char) (key : String) (value : PyJson)
  | updateNodeConfigBulk (id : List Char) (config : PyDict)
  | setTemplateName (name : String)
  | resetToSeed

def CanvasEditor.updateNode (s : CanvasEditor) (id : List Char) (f : SectionNode → SectionNode) : CanvasEditor :=
  { s with nodes := s.nodes.map fun n => if n.id = id then f n else n }

/-- `applyNodeChanges`, one change at a time. -/
def CanvasEditor.changeNode (s : CanvasEditor) : NodeChange → CanvasEditor
  | .position id position => s.updateNode id fun n => { n with position := position }
  | .remove id => { s with nodes := s.nodes.filter fun n => n.id ≠ id }

/-- The editor after a change; `none` where the store ignores it. -/
def CanvasEditor.apply (lib : EditorLib) (s : CanvasEditor) : EditorChange → Option CanvasEditor
  | .onConnect source target =>
    if isValidConnection source target s.nodes s.edges then
      some { s with edges := s.edges ++ [⟨lib.edgeId source target, source, target⟩] }
    else none
  | .addSectionNode sectionType position =>
    if s.nodes.any fun n => n.sectionType = .known sectionType then none
    else
      some { s with
        nodes := s.nodes ++ [⟨newId s.nextNumericId, .known sectionType, position, lib.defaultConfig sectionType⟩]
        nextNumericId := s.nextNumericId + 1 }
  | .onNodesChange changes => if changes.isEmpty then none else some (changes.foldl CanvasEditor.changeNode s)
  | .onEdgesChange removed =>
    if removed.isEmpty then none else some { s with edges := s.edges.filter fun e => !removed.contains e.id }
  | .updateNodeConfig id key value =>
    some (s.updateNode id fun n => { n with config := n.config.set key value })
  | .updateNodeConfigBulk id config => some (s.updateNode id fun n => { n with config := config })
  | .setTemplateName name => some { s with templateName := name }
  | .resetToSeed => some (s.loadTemplate (seedTemplate lib))

variable {ρ : Type}

structure CanvasStudio (ρ : Type) where
  world : CanvasWorld CanvasTemplate ρ
  editors : ℕ → CanvasEditor

/-- `startupTemplate`: the draft of the browser's storage, if it can be used. -/
def startupTemplate (lib : EditorLib) (draft : Option CanvasTemplate) : CanvasTemplate :=
  match draft.map (CanvasTemplate.parse lib) with
  | some (.ok template) => template
  | _ => seedTemplate lib

def CanvasStudio.start (lib : EditorLib) (server : Option CanvasTemplate)
    (drafts : ℕ → Option CanvasTemplate) : CanvasStudio ρ :=
  ⟨.start server fun k => startupTemplate lib (drafts k), fun k => .startup (startupTemplate lib (drafts k))⟩

inductive StudioEvent where
  | change (c : EditorChange)
  | session (e : SessionEvent CanvasTemplate)

def templateSync (lib : EditorLib) (rev : CanvasTemplate → ρ) : CanvasSync CanvasTemplate ρ :=
  ⟨rev, CanvasTemplate.parse lib⟩

/-- The tab takes a template over in the event. -/
def TabSession.adopts {τ : Type} (sync : CanvasSync τ ρ) (s : TabSession τ ρ) : SessionEvent τ → Bool
  | .takeTheirs => true
  | .tab .answerFetch =>
    match s.tab.fetch with
    | .handled (some stored) =>
      match sync.parse stored with
      | .ok _ => true
      | _ => false
    | _ => false
  | _ => false

variable [DecidableEq ρ]

/-- An event of one tab; an edit is a change of its editor. -/
def CanvasStudio.step (lib : EditorLib) (rev : CanvasTemplate → ρ) (s : CanvasStudio ρ) (k : ℕ) :
    StudioEvent → Option (CanvasStudio ρ)
  | .change c =>
    ((s.editors k).apply lib c).bind fun editor =>
      (s.world.step (templateSync lib rev) k (.tab (.edit editor.serialize))).map fun world =>
        ⟨world, Function.update s.editors k editor⟩
  | .session (.tab (.edit _)) => none
  | .session e =>
    (s.world.step (templateSync lib rev) k e).map fun world =>
      if (s.world.tabs k).adopts (templateSync lib rev) e then
        ⟨world, Function.update s.editors k ((s.editors k).loadTemplate (world.tabs k).tab.template)⟩
      else ⟨world, s.editors⟩

end OpenPoly
