import OpenPoly.Lib.Total
import OpenPoly.Proofs.TemplateIO
import OpenPoly.Spec.CanvasEditor

/-! The typed canvas against its document: `CanvasTemplate.parse` is what `_parseTemplate`
makes of a document whose nodes and edges have their fields. -/

namespace OpenPoly

variable {lib : EditorLib} {f : Frontend} {t : CanvasTemplate} {n : SectionNode} {type : SectionType}

def StoredType.text : StoredType → String
  | .known type => type.name
  | .removed name => name

/-- A removed type goes by no name of the others. -/
def StoredType.Named : StoredType → Prop
  | .known _ => True
  | .removed name => ∀ type : SectionType, name ≠ type.name

def SectionNode.json (n : SectionNode) : PyJson :=
  .obj [(PyStr.of "id", jsText (String.ofList n.id)), (PyStr.of "sectionType", jsText n.sectionType.text),
    (PyStr.of "position", .obj [(PyStr.of "x", jsNum n.position.1), (PyStr.of "y", jsNum n.position.2)]),
    (PyStr.of "config", .obj (PyJson.jsEntries n.config))]

def edgeJson (e : List Char × List Char) : PyJson :=
  .obj [(PyStr.of "source", jsText (String.ofList e.1)), (PyStr.of "target", jsText (String.ofList e.2))]

/-- The template as the engine holds it. -/
def CanvasTemplate.stored (t : CanvasTemplate) : StoredTemplate where
  version := some (jsNum t.version)
  name := some (jsText t.name)
  nodes := t.nodes.map SectionNode.json
  edges := t.edges.map edgeJson

/-- The body the backend answers a fetch with. -/
def CanvasTemplate.json (t : CanvasTemplate) (rev : PyStr) : PyJson :=
  .obj [(PyStr.of "version", jsNum t.version), (PyStr.of "name", jsText t.name),
    (PyStr.of "nodes", .arr (t.nodes.map SectionNode.json)), (PyStr.of "edges", .arr (t.edges.map edgeJson)),
    (PyStr.of "rev", .str rev)]

def CanvasTemplate.Named (t : CanvasTemplate) : Prop := ∀ n ∈ t.nodes, n.sectionType.Named

/-- The frontend's catalog is the editor's, and `y - 200` of a number is one. -/
structure Frontend.Serves (f : Frontend) (lib : EditorLib) : Prop where
  above : ∀ y, f.above (some (jsNum y)) = some (jsNum (y - 200))
  newsSource : f.newsSourceConfig = .obj (PyJson.jsEntries (lib.mockConfig .newsSource))

theorem strictEq_jsText (a b : String) : strictEq (some (jsText a)) (some (jsText b)) = decide (a = b) := by
  show decide (PyStr.of a = PyStr.of b) = decide (a = b)
  exact decide_eq_decide.mpr ⟨PyStr.of_injective, congrArg _⟩

theorem SectionType.name_inj {s t : SectionType} : s.name = t.name ↔ s = t := by
  cases s <;> cases t <;> simp [SectionType.name]

theorem isOfType_json (h : n.sectionType.Named) :
    isOfType type n.json = some (decide (n.sectionType = .known type)) := by
  have hget : jsGet (some n.json) "sectionType" = some (some (jsText n.sectionType.text)) := rfl
  rw [isOfType, hget, Option.map_some, strictEq_jsText]
  refine congrArg some (decide_eq_decide.mpr ?_)
  cases hs : n.sectionType with
  | known s => simp [StoredType.text, SectionType.name_inj]
  | removed name =>
    rw [hs] at h
    simpa [StoredType.text] using h type

theorem findOfType_json (h : t.Named) :
    findOfType type t.stored.nodes = some ((t.find type).map SectionNode.json) :=
  Total.findM?_eq fun n hn => isOfType_json (h n hn)

theorem joins_json (source target : List Char) (e : List Char × List Char) :
    joins (some (jsText (String.ofList source))) (some (jsText (String.ofList target))) (edgeJson e) =
      some (decide (e = (source, target))) := by
  have hsource : jsGet (some (edgeJson e)) "source" = some (some (jsText (String.ofList e.1))) := rfl
  have htarget : jsGet (some (edgeJson e)) "target" = some (some (jsText (String.ofList e.2))) := rfl
  unfold joins
  rw [hsource]
  simp only [Option.bind_eq_bind, Option.bind_some, strictEq_jsText, htarget, Option.pure_def]
  have hinj : ∀ cs ds : List Char, String.ofList cs = String.ofList ds ↔ cs = ds :=
    fun _ _ => ⟨String.ofList_injective, congrArg _⟩
  by_cases h : e.1 = source
  · simp [h, hinj, Prod.ext_iff]
  · simp [h, hinj, Prod.ext_iff]

theorem anyM_joins (source target : List Char) :
    t.stored.edges.anyM (joins (some (jsText (String.ofList source))) (some (jsText (String.ofList target)))) =
      some (decide ((source, target) ∈ t.edges)) := by
  have hany : t.edges.any (fun e => decide (e = (source, target))) = decide ((source, target) ∈ t.edges) := by
    rw [Bool.eq_iff_iff]
    simp
  rw [← hany]
  exact Total.anyM_eq fun e _ => joins_json source target e

/-- The cooldown is lifted in both. -/
theorem migrateNode_json (h : n.sectionType.Named) : migrateNode n.json = some n.lifted.json := by
  have hconfig : jsGet (some n.json) "config" = some (some (.obj (PyJson.jsEntries n.config))) := rfl
  have hlift : liftCooldown n.json = ({ n with config := n.config.set cooldownKey entryCooldown }).json := by
    have hread : entryCooldown.jsRead = entryCooldown := by simp [entryCooldown, jsNum, PyJson.jsRead]
    rw [SectionNode.json, SectionNode.json, set_jsEntries, hread]
    rfl
  unfold migrateNode SectionNode.lifted
  rw [isOfType_json h]
  simp only [Option.bind_eq_bind, Option.bind_some, hconfig, jsOptGet, jsGet_obj, Option.join_some,
    get?_jsEntries, Option.pure_def, hlift]
  by_cases htype : n.sectionType = .known .entry
  · by_cases hzero : strictEq ((n.config.get? cooldownKey).map PyJson.jsRead) (some (jsNum 0)) = true
    · simp [htype, hzero]
    · simp [htype, hzero]
  · simp [htype]

theorem stored_v1 (hf : f.Serves lib) (h : t.Named) :
    migrateV1toV2 f t.stored = some (t.migrateV1toV2 lib).stored := by
  unfold migrateV1toV2 CanvasTemplate.migrateV1toV2
  rw [findOfType_json h]
  cases t.find .analyzer with
  | none => simp [CanvasTemplate.stored]
  | some analyzer =>
    have hid : jsGet (some analyzer.json) "id" = some (some (jsText (String.ofList analyzer.id))) := rfl
    have hposition : jsGet (some analyzer.json) "position" =
        some (some (.obj [(PyStr.of "x", jsNum analyzer.position.1), (PyStr.of "y", jsNum analyzer.position.2)])) := rfl
    have hx : PyDict.get? [(PyStr.of "x", jsNum analyzer.position.1), (PyStr.of "y", jsNum analyzer.position.2)] "x" =
        some (jsNum analyzer.position.1) := rfl
    have hy : PyDict.get? [(PyStr.of "x", jsNum analyzer.position.1), (PyStr.of "y", jsNum analyzer.position.2)] "y" =
        some (jsNum analyzer.position.2) := rfl
    have hnode : newsNode f analyzer.json = some (SectionNode.json ⟨"news_source-migrated".toList,
        .known .newsSource, (analyzer.position.1, analyzer.position.2 - 200), lib.mockConfig .newsSource⟩) := by
      unfold newsNode
      rw [hposition]
      simp only [Option.bind_eq_bind, Option.bind_some, jsGet_obj, hx, hy, hf.above, hf.newsSource, Option.pure_def]
      rfl
    simp only [Option.bind_eq_bind, Option.bind_some, Option.map_some, hnode, hid, Option.pure_def]
    simp [CanvasTemplate.stored, edgeJson, jsObj]

theorem stored_v2 (h : t.Named) : migrateV2toV3 t.stored = some t.migrateV2toV3.stored := by
  unfold migrateV2toV3 CanvasTemplate.migrateV2toV3
  rw [findOfType_json h, findOfType_json h]
  cases t.find .embedding with
  | none => simp [CanvasTemplate.stored]
  | some embedding =>
    cases t.find .database with
    | none => simp [CanvasTemplate.stored]
    | some database =>
      have hid : ∀ m : SectionNode, jsGet (some m.json) "id" = some (some (jsText (String.ofList m.id))) :=
        fun m => rfl
      have hthere := @anyM_joins t embedding.id database.id
      simp only [Option.bind_eq_bind, Option.bind_some, Option.map_some, hid, hthere, Option.pure_def]
      by_cases hmem : (embedding.id, database.id) ∈ t.edges
      · simp [CanvasTemplate.stored, hmem]
      · simp [CanvasTemplate.stored, hmem, edgeJson, jsObj]

theorem stored_v3 (h : t.Named) : migrateV3toV4 t.stored = some t.migrateV3toV4.stored := by
  have hnodes : t.stored.nodes.mapM migrateNode = some (t.nodes.map fun n => n.lifted.json) :=
    Total.mapM_eq fun n hn => migrateNode_json (h n hn)
  unfold migrateV3toV4 CanvasTemplate.migrateV3toV4
  rw [hnodes]
  simp [CanvasTemplate.stored]

theorem named_v1 (h : t.Named) : (t.migrateV1toV2 lib).Named := by
  unfold CanvasTemplate.migrateV1toV2
  cases t.find .analyzer with
  | none => exact h
  | some analyzer =>
    intro n hn
    rcases List.mem_cons.mp hn with rfl | hn
    · trivial
    · exact h n hn

theorem named_v2 (h : t.Named) : t.migrateV2toV3.Named := by
  unfold CanvasTemplate.migrateV2toV3
  split <;> exact h

theorem named_v3 (h : t.Named) : t.migrateV3toV4.Named := by
  intro n hn
  obtain ⟨m, hm, rfl⟩ := List.mem_map.mp hn
  unfold SectionNode.lifted
  split_ifs <;> exact h m hm

/-- One step of the climb, in both. -/
theorem climb_stored {v : ℕ} {step : StoredTemplate → Option StoredTemplate}
    {typed : CanvasTemplate → CanvasTemplate} (hstep : step t.stored = some (typed t).stored) (b : Bool) :
    climb v step (t.stored, b) =
      some ((if t.version = v then typed t else t).stored, b || decide (t.version = v)) := by
  by_cases hv : t.version = v
  · rw [climb_at (show t.stored.version = some (jsNum v) from hv ▸ rfl), hstep]
    simp [hv]
  · have hne : (v : ℚ) ≠ t.version := fun h => hv (by exact_mod_cast h.symm)
    rw [climb_past (show t.stored.version = some (jsNum t.version) from rfl) hne]
    simp [hv]

/-- The migrations of the document are those of the canvas, and the flag says whether there was one. -/
theorem migrate_stored (hf : f.Serves lib) (h : t.Named) :
    migrate f t.stored = some ((t.migrate lib).stored, decide (1 ≤ t.version ∧ t.version ≤ 3)) ∧
      (t.migrate lib).Named := by
  have hnamed₁ : (if t.version = 1 then t.migrateV1toV2 lib else t).Named := by
    split_ifs
    · exact named_v1 h
    · exact h
  set t₁ := if t.version = 1 then t.migrateV1toV2 lib else t with ht₁
  have hnamed₂ : (if t₁.version = 2 then t₁.migrateV2toV3 else t₁).Named := by
    split_ifs
    · exact named_v2 hnamed₁
    · exact hnamed₁
  set t₂ := if t₁.version = 2 then t₁.migrateV2toV3 else t₁ with ht₂
  have hmigrate : t.migrate lib = if t₂.version = 3 then t₂.migrateV3toV4 else t₂ := rfl
  have hversion₁ : t₁.version = if t.version = 1 then 2 else t.version := by
    rw [ht₁]
    unfold CanvasTemplate.migrateV1toV2
    split_ifs
    · cases t.find .analyzer <;> rfl
    · rfl
  have hversion₂ : t₂.version = if t₁.version = 2 then 3 else t₁.version := by
    rw [ht₂]
    unfold CanvasTemplate.migrateV2toV3
    split_ifs
    · split <;> rfl
    · rfl
  constructor
  · have h₁ := @climb_stored t 1 _ _ (stored_v1 hf h) false
    have h₂ := fun b => @climb_stored t₁ 2 _ _ (stored_v2 hnamed₁) b
    have h₃ := fun b => @climb_stored t₂ 3 _ _ (stored_v3 hnamed₂) b
    have hflag : (((false || decide (t.version = 1)) || decide (t₁.version = 2)) || decide (t₂.version = 3)) =
        decide (1 ≤ t.version ∧ t.version ≤ 3) := by
      rw [hversion₂, hversion₁, Bool.eq_iff_iff]
      simp only [Bool.or_eq_true, decide_eq_true_eq, Bool.false_eq_true, false_or]
      split_ifs <;> omega
    unfold migrate
    rw [show (1 : ℚ) = ((1 : ℕ) : ℚ) by norm_num, show (2 : ℚ) = ((2 : ℕ) : ℚ) by norm_num,
      show (3 : ℚ) = ((3 : ℕ) : ℚ) by norm_num, h₁]
    simp only [Option.bind_eq_bind, Option.bind_some]
    rw [h₂]
    simp only [Option.bind_some]
    rw [h₃, hmigrate, hflag]
  · rw [hmigrate]
    split_ifs
    · exact named_v3 hnamed₂
    · exact hnamed₂

theorem isKnown_json (h : n.sectionType.Named) : isKnown n.json = some n.sectionType.isKnown := by
  have hget : jsGet (some n.json) "sectionType" = some (some (jsText n.sectionType.text)) := rfl
  rw [isKnown, hget, Option.map_some]
  simp only [strictEq_jsText]
  refine congrArg some ?_
  cases hs : n.sectionType with
  | known s => cases s <;> rfl
  | removed name =>
    rw [hs] at h
    show (sectionOrder.any fun s => decide (name = s.name)) = false
    rw [List.any_eq_false]
    intro s _
    simpa using h s

/-- What the frontend makes of a fetched document is what `parse` makes of the canvas. -/
theorem parseTemplate_json (hf : f.Serves lib) (h : t.Named) {rev : PyStr} (hrev : rev ≠ []) :
    parseTemplate f (t.json rev) = some (match t.parse lib with
      | .ok stored => .ok stored.stored rev (decide (1 ≤ t.version ∧ t.version ≤ 3))
      | _ => .incompatible) := by
  obtain ⟨hmigrate, hnamed⟩ := migrate_stored hf h
  have hversion : (t.migrate lib).stored.isVersion 4 = decide ((t.migrate lib).version = 4) := by
    rw [Bool.eq_iff_iff, isVersion_iff, decide_eq_true_eq]
    simp only [CanvasTemplate.stored, Option.some.injEq, jsNum, PyJson.float.injEq, PyFloat.fin.injEq]
    exact_mod_cast Iff.rfl
  have hparse : parseTemplate f (t.json rev) = (migrate f t.stored).bind fun r =>
      if !r.1.isVersion 4 then some .incompatible
      else (r.1.nodes.allM isKnown).bind fun known =>
        if !known then some .incompatible else some (if rev = [] then .networkError else .ok r.1 rev r.2) := rfl
  have hall : (t.migrate lib).stored.nodes.allM isKnown =
      some ((t.migrate lib).nodes.all (·.sectionType.isKnown)) :=
    Total.allM_eq fun n hn => isKnown_json (hnamed n hn)
  rw [hparse, hmigrate, Option.bind_some, hversion, hall]
  unfold CanvasTemplate.parse
  dsimp only
  by_cases hv : (t.migrate lib).version = 4
  · cases (t.migrate lib).nodes.all (·.sectionType.isKnown) with
    | true => simp [hv, hrev]
    | false => simp [hv]
  · simp [hv]

end OpenPoly
