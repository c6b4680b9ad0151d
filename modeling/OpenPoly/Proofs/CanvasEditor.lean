import OpenPoly.Proofs.CanvasTabs
import OpenPoly.Proofs.JsonDump
import OpenPoly.Spec.CanvasEditor

/-! Whatever the operators change in any number of tabs, every canvas stays wired: its ids
and its sections are distinct, and its edges are distinct and join sections that go together.
React Flow removes the edges of a node before the node. -/

namespace OpenPoly

open Transition

def SectionNode.tag (n : SectionNode) : List Char × StoredType := (n.id, n.sectionType)

/-- The nodes, by id and section, and the edges between them. -/
structure Wired (tags : List (List Char × StoredType)) (edges : List (List Char × List Char)) : Prop where
  ids : (tags.map Prod.fst).Nodup
  types : (tags.map Prod.snd).Nodup
  ends : ∀ e ∈ edges, ∃ a b, (e.1, .known a) ∈ tags ∧ (e.2, .known b) ∈ tags ∧ (a, b) ∈ validPairs
  once : edges.Nodup

def CanvasTemplate.Wired (t : CanvasTemplate) : Prop := OpenPoly.Wired (t.nodes.map SectionNode.tag) t.edges

def SectionType.rank : SectionType → ℕ
  | .newsSource => 0
  | .marketSource => 0
  | .embedding => 1
  | .analyzer => 2
  | .entry => 3
  | .exit => 0
  | .database => 4

theorem validPairs_rank {a b : SectionType} (h : (a, b) ∈ validPairs) : a.rank < b.rank := by
  cases a <;> cases b <;> revert h <;> decide

theorem Wired.type_eq {tags : List (List Char × StoredType)} {edges : List (List Char × List Char)}
    (h : Wired tags edges) {id : List Char} {a b : SectionType} (ha : (id, .known a) ∈ tags)
    (hb : (id, .known b) ∈ tags) : a = b :=
  StoredType.known.inj (congrArg Prod.snd (List.inj_on_of_nodup_map h.ids ha hb rfl))

/-- Along the edges of a wired canvas the ranks go up. -/
theorem Wired.path_rank {tags : List (List Char × StoredType)} {edges : List (List Char × List Char)}
    (h : Wired tags edges) {x y : List Char} (hpath : Relation.TransGen (fun x y => (x, y) ∈ edges) x y) :
    ∃ a b, (x, .known a) ∈ tags ∧ (y, .known b) ∈ tags ∧ a.rank < b.rank := by
  induction hpath with
  | single hedge =>
    obtain ⟨a, b, ha, hb, hpair⟩ := h.ends _ hedge
    exact ⟨a, b, ha, hb, validPairs_rank hpair⟩
  | tail _ hedge ih =>
    obtain ⟨a, b, ha, hb, hlt⟩ := ih
    obtain ⟨b', c, hb', hc, hpair⟩ := h.ends _ hedge
    cases h.type_eq hb hb'
    exact ⟨a, c, ha, hc, hlt.trans (validPairs_rank hpair)⟩

/-- A wired canvas has no cycle. -/
theorem Wired.acyclic {tags : List (List Char × StoredType)} {edges : List (List Char × List Char)}
    (h : Wired tags edges) (id : List Char) : ¬ Relation.TransGen (fun x y => (x, y) ∈ edges) id id := by
  intro hpath
  obtain ⟨a, b, ha, hb, hlt⟩ := h.path_rank hpath
  cases h.type_eq ha hb
  exact lt_irrefl _ hlt

theorem idNumber_newId (n : ℕ) : idNumber (newId n) = some n := by
  have hne : Nat.toDigits 10 n ≠ [] := Nat.toDigits_ne_nil
  have hall : (Nat.toDigits 10 n).all Char.isDigit = true := by
    rw [List.all_eq_true]
    exact fun c hc => isDigit_toDigits hc
  have hparse : idNumber (newId n) = if Nat.toDigits 10 n ≠ [] ∧ (Nat.toDigits 10 n).all Char.isDigit then
      some (digitsValue (Nat.toDigits 10 n)) else none := rfl
  rw [hparse, if_pos ⟨hne, hall⟩, digitsValue_toDigits]

theorem bump_spec (nodes : List SectionNode) (next : ℕ) :
    next ≤ bumpIdCounterFrom next nodes ∧
      ∀ n ∈ nodes, ∀ v, idNumber n.id = some v → v < bumpIdCounterFrom next nodes := by
  induction nodes generalizing next with
  | nil => exact ⟨le_rfl, List.forall_mem_nil _⟩
  | cons m nodes ih =>
    unfold bumpIdCounterFrom at ih ⊢
    rw [List.foldl_cons]
    cases hm : idNumber m.id with
    | none =>
      obtain ⟨hle, hall⟩ := ih next
      refine ⟨hle, List.forall_mem_cons.mpr ⟨?_, hall⟩⟩
      intro v hv
      rw [hm] at hv
      cases hv
    | some v =>
      obtain ⟨hle, hall⟩ := ih (if next ≤ v then v + 1 else next)
      have hstart : next ≤ (if next ≤ v then v + 1 else next) ∧ v < (if next ≤ v then v + 1 else next) := by
        split_ifs <;> omega
      refine ⟨hstart.1.trans hle, List.forall_mem_cons.mpr ⟨?_, hall⟩⟩
      intro v' hv'
      rw [hm] at hv'
      cases hv'
      exact lt_of_lt_of_le hstart.2 hle

/-- The canvas is wired, and the next id is above those there are. -/
structure CanvasEditor.Sound (s : CanvasEditor) : Prop where
  wired : s.serialize.Wired
  numbered : ∀ n ∈ s.nodes, ∀ v, idNumber n.id = some v → v < s.nextNumericId

theorem CanvasEditor.wired_iff (s : CanvasEditor) :
    s.serialize.Wired ↔ OpenPoly.Wired (s.nodes.map SectionNode.tag) (s.edges.map CanvasEdge.ends) := Iff.rfl

theorem edgesOf_ends (edges : List (List Char × List Char)) : (edgesOf edges).map CanvasEdge.ends = edges := by
  refine List.ext_getElem? fun i => ?_
  unfold edgesOf
  rw [List.getElem?_map, List.getElem?_mapIdx, Option.map_map]
  cases edges[i]? <;> rfl

/-- What a template of the current version is taken over as is that template. -/
theorem serialize_load (s : CanvasEditor) {template : CanvasTemplate} (h : template.version = 4) :
    (s.loadTemplate template).serialize = template := by
  unfold CanvasEditor.loadTemplate CanvasEditor.serialize
  rw [edgesOf_ends, ← h]

theorem sound_load (s : CanvasEditor) {template : CanvasTemplate} (h : template.Wired) :
    (s.loadTemplate template).Sound := by
  constructor
  · refine (CanvasEditor.wired_iff _).mpr ?_
    unfold CanvasEditor.loadTemplate
    rw [edgesOf_ends]
    exact h
  · exact (bump_spec template.nodes s.nextNumericId).2

variable {lib : EditorLib} {s s' : CanvasEditor}

theorem sound_updateNode (hs : s.Sound) (id : List Char) {f : SectionNode → SectionNode}
    (hf : ∀ n, (f n).tag = n.tag) : (s.updateNode id f).Sound := by
  have htag : ∀ n : SectionNode, (if n.id = id then f n else n).tag = n.tag := by
    intro n
    split_ifs
    · exact hf n
    · rfl
  constructor
  · have htags : (s.nodes.map fun n => if n.id = id then f n else n).map SectionNode.tag =
        s.nodes.map SectionNode.tag := by
      rw [List.map_map]
      exact List.map_congr_left fun n _ => htag n
    refine (CanvasEditor.wired_iff _).mpr ?_
    unfold CanvasEditor.updateNode
    rw [htags]
    exact hs.wired
  · intro n hn v hv
    obtain ⟨m, hm, rfl⟩ := List.mem_map.mp hn
    have hid : (if m.id = id then f m else m).id = m.id := congrArg Prod.fst (htag m)
    rw [hid] at hv
    exact hs.numbered m hm v hv

theorem find_has {nodes : List SectionNode} {id : List Char} {n : SectionNode}
    (h : nodes.find? (·.has id) = some n) : n ∈ nodes ∧ n.id = id := by
  have hhas : n.has id = true := List.find?_some (p := fun m : SectionNode => m.has id) h
  exact ⟨List.mem_of_find?_eq_some h, of_decide_eq_true hhas⟩

theorem sound_connect (hs : s.Sound) {source target : List Char}
    (hvalid : isValidConnection source target s.nodes s.edges = true) :
    ({ s with edges := s.edges ++ [⟨lib.edgeId source target, source, target⟩] } : CanvasEditor).Sound := by
  refine ⟨?_, hs.numbered⟩
  unfold isValidConnection at hvalid
  split_ifs at hvalid with hempty hself
  split at hvalid
  · next src tgt hsrc htgt =>
    split_ifs at hvalid with hpair
    obtain ⟨hsrc, hsource⟩ := find_has hsrc
    obtain ⟨htgt, htarget⟩ := find_has htgt
    have hedges : List.map CanvasEdge.ends (s.edges ++ [⟨lib.edgeId source target, source, target⟩]) =
        s.edges.map CanvasEdge.ends ++ [(source, target)] := by
      rw [List.map_append]
      rfl
    have hwired := s.wired_iff.mp hs.wired
    refine (CanvasEditor.wired_iff _).mpr ?_
    rw [hedges]
    refine ⟨hwired.ids, hwired.types, ?_, ?_⟩
    · intro e he
      rcases List.mem_append.mp he with he | he
      · exact hwired.ends e he
      · cases List.mem_singleton.mp he
        simp only [Bool.not_eq_true', Bool.not_eq_false, List.any_eq_true, decide_eq_true_eq] at hpair
        obtain ⟨p, hp, hp1, hp2⟩ := hpair
        refine ⟨p.1, p.2, ?_, ?_, hp⟩
        · exact List.mem_map.mpr ⟨src, hsrc, Prod.ext hsource hp1.symm⟩
        · exact List.mem_map.mpr ⟨tgt, htgt, Prod.ext htarget hp2.symm⟩
    · refine List.nodup_append.mpr ⟨hwired.once, List.nodup_singleton _, ?_⟩
      rintro e he e' he' rfl
      cases List.mem_singleton.mp he'
      obtain ⟨old, hold, hends⟩ := List.mem_map.mp he
      have hnone : ∀ e ∈ s.edges, ¬ (e.source = source ∧ e.target = target) := by
        simpa using hvalid
      exact hnone old hold (Prod.mk.inj hends)
  · cases hvalid

theorem sound_add (hs : s.Sound) {sectionType : SectionType} {position : ℚ × ℚ}
    (hnew : ¬ (s.nodes.any fun n => decide (n.sectionType = .known sectionType)) = true) :
    ({ s with
      nodes := s.nodes ++ [⟨newId s.nextNumericId, .known sectionType, position, lib.defaultConfig sectionType⟩]
      nextNumericId := s.nextNumericId + 1 } : CanvasEditor).Sound := by
  have hfresh : newId s.nextNumericId ∉ (s.nodes.map SectionNode.tag).map Prod.fst := by
    intro hmem
    obtain ⟨tag, htag, hid⟩ := List.mem_map.mp hmem
    obtain ⟨n, hn, rfl⟩ := List.mem_map.mp htag
    have hnumber : idNumber n.id = some s.nextNumericId := (congrArg idNumber hid).trans (idNumber_newId _)
    exact lt_irrefl _ (hs.numbered n hn _ hnumber)
  have htype : .known sectionType ∉ (s.nodes.map SectionNode.tag).map Prod.snd := by
    intro hmem
    obtain ⟨tag, htag, hty⟩ := List.mem_map.mp hmem
    obtain ⟨n, hn, rfl⟩ := List.mem_map.mp htag
    exact hnew (List.any_eq_true.mpr ⟨n, hn, decide_eq_true hty⟩)
  constructor
  · have hwired := s.wired_iff.mp hs.wired
    refine (CanvasEditor.wired_iff _).mpr ?_
    rw [List.map_append]
    refine ⟨?_, ?_, ?_, hwired.once⟩
    · rw [List.map_append]
      have hconcat := hwired.ids.concat hfresh
      rw [List.concat_eq_append] at hconcat
      exact hconcat
    · rw [List.map_append]
      have hconcat := hwired.types.concat htype
      rw [List.concat_eq_append] at hconcat
      exact hconcat
    · intro e he
      obtain ⟨a, b, ha, hb, hpair⟩ := hwired.ends e he
      exact ⟨a, b, List.mem_append_left _ ha, List.mem_append_left _ hb, hpair⟩
  · intro n hn v hv
    rcases List.mem_append.mp hn with hn | hn
    · exact Nat.lt_succ_of_lt (hs.numbered n hn v hv)
    · cases List.mem_singleton.mp hn
      rw [idNumber_newId] at hv
      cases hv
      exact Nat.lt_succ_self _

def CanvasEditor.Unconnected (s : CanvasEditor) (id : List Char) : Prop :=
  ∀ e ∈ s.edges, e.source ≠ id ∧ e.target ≠ id

theorem sound_removeNode (hs : s.Sound) {id : List Char} (hfree : s.Unconnected id) :
    ({ s with nodes := s.nodes.filter fun n => n.id ≠ id } : CanvasEditor).Sound := by
  constructor
  · have hwired := s.wired_iff.mp hs.wired
    refine (CanvasEditor.wired_iff _).mpr ?_
    have hsub : ((s.nodes.filter fun n => n.id ≠ id).map SectionNode.tag).Sublist (s.nodes.map SectionNode.tag) :=
      List.filter_sublist.map _
    refine ⟨hwired.ids.sublist (hsub.map _), hwired.types.sublist (hsub.map _), ?_, hwired.once⟩
    have hstays : ∀ id' c, id' ≠ id → (id', c) ∈ s.nodes.map SectionNode.tag →
        (id', c) ∈ (s.nodes.filter fun n => n.id ≠ id).map SectionNode.tag := by
      intro id' c hne hmem
      obtain ⟨n, hn, htag⟩ := List.mem_map.mp hmem
      cases htag
      exact List.mem_map_of_mem (List.mem_filter.mpr ⟨hn, by simpa using hne⟩)
    intro e he
    obtain ⟨edge, hedge, rfl⟩ := List.mem_map.mp he
    obtain ⟨hsource, htarget⟩ := hfree edge hedge
    obtain ⟨a, b, ha, hb, hpair⟩ := hwired.ends _ he
    exact ⟨a, b, hstays _ _ hsource ha, hstays _ _ htarget hb, hpair⟩
  · intro n hn v hv
    exact hs.numbered n (List.mem_of_mem_filter hn) v hv

theorem sound_removeEdges (hs : s.Sound) (removed : List (List Char)) :
    ({ s with edges := s.edges.filter fun e => !removed.contains e.id } : CanvasEditor).Sound := by
  have hwired := s.wired_iff.mp hs.wired
  refine ⟨(CanvasEditor.wired_iff _).mpr ⟨hwired.ids, hwired.types, ?_, ?_⟩, hs.numbered⟩
  · intro e he
    obtain ⟨edge, hedge, rfl⟩ := List.mem_map.mp he
    exact hwired.ends _ (List.mem_map_of_mem (List.mem_of_mem_filter hedge))
  · exact hwired.once.sublist (List.filter_sublist.map _)

theorem changeNode_edges (s : CanvasEditor) (change : NodeChange) : (s.changeNode change).edges = s.edges := by
  cases change <;> rfl

/-- What React Flow hands to `onNodesChange`: it removes a node only once its edges are
removed. -/
def NodeChange.HandedTo (s : CanvasEditor) : NodeChange → Prop
  | .position _ _ => True
  | .remove id => s.Unconnected id

theorem sound_changeNodes {changes : List NodeChange} (hs : s.Sound)
    (hfree : ∀ change ∈ changes, NodeChange.HandedTo s change) : (changes.foldl CanvasEditor.changeNode s).Sound := by
  induction changes generalizing s with
  | nil => exact hs
  | cons change changes ih =>
    rw [List.foldl_cons]
    refine ih ?_ fun next hnext => ?_
    · cases change with
      | position id position => exact sound_updateNode hs id fun _ => rfl
      | remove id => exact sound_removeNode hs (hfree _ List.mem_cons_self)
    · have hhanded := hfree next (List.mem_cons_of_mem _ hnext)
      cases next with
      | position id position => trivial
      | remove id =>
        unfold NodeChange.HandedTo CanvasEditor.Unconnected
        rw [changeNode_edges]
        exact hhanded

theorem seed_wired (lib : EditorLib) : (seedTemplate lib).Wired := by
  have htags : (seedTemplate lib).nodes.map SectionNode.tag =
      [("news_source-seed".toList, .known .newsSource), ("market_source-seed".toList, .known .marketSource),
        ("embedding-seed".toList, .known .embedding), ("database-seed".toList, .known .database),
        ("analyzer-seed".toList, .known .analyzer), ("exit-seed".toList, .known .exit),
        ("entry-seed".toList, .known .entry)] := rfl
  have hedges : (seedTemplate lib).edges =
      [seedEdge .newsSource .embedding, seedEdge .embedding .analyzer, seedEdge .analyzer .entry,
        seedEdge .marketSource .database, seedEdge .newsSource .database, seedEdge .embedding .database] := rfl
  unfold CanvasTemplate.Wired
  rw [htags, hedges]
  refine ⟨by decide, by decide, ?_, by decide⟩
  intro e he
  simp only [List.mem_cons, List.not_mem_nil, or_false] at he
  rcases he with rfl | rfl | rfl | rfl | rfl | rfl
  · exact ⟨.newsSource, .embedding, by decide, by decide, by decide⟩
  · exact ⟨.embedding, .analyzer, by decide, by decide, by decide⟩
  · exact ⟨.analyzer, .entry, by decide, by decide, by decide⟩
  · exact ⟨.marketSource, .database, by decide, by decide, by decide⟩
  · exact ⟨.newsSource, .database, by decide, by decide, by decide⟩
  · exact ⟨.embedding, .database, by decide, by decide, by decide⟩

def EditorChange.HandedTo (s : CanvasEditor) : EditorChange → Prop
  | .onNodesChange changes => ∀ change ∈ changes, change.HandedTo s
  | _ => True

theorem sound_apply {c : EditorChange} (hs : s.Sound) (hc : c.HandedTo s) (h : s.apply lib c = some s') :
    s'.Sound := by
  cases c with
  | onConnect source target =>
    simp only [CanvasEditor.apply] at h
    split_ifs at h with hvalid
    cases h
    exact sound_connect hs hvalid
  | addSectionNode sectionType position =>
    simp only [CanvasEditor.apply] at h
    split_ifs at h with hnew
    cases h
    exact sound_add hs hnew
  | onNodesChange changes =>
    simp only [CanvasEditor.apply] at h
    split_ifs at h with hnone
    cases h
    exact sound_changeNodes hs hc
  | onEdgesChange removed =>
    simp only [CanvasEditor.apply] at h
    split_ifs at h with hnone
    cases h
    exact sound_removeEdges hs removed
  | updateNodeConfig id key value =>
    cases h
    exact sound_updateNode hs id fun _ => rfl
  | updateNodeConfigBulk id config =>
    cases h
    exact sound_updateNode hs id fun _ => rfl
  | setTemplateName name =>
    cases h
    exact ⟨hs.wired, hs.numbered⟩
  | resetToSeed =>
    cases h
    exact sound_load s (seed_wired lib)

/-- A wired template of the current version. -/
structure CanvasTemplate.Current (t : CanvasTemplate) : Prop where
  version : t.version = 4
  wired : t.Wired

theorem find_tag {t : CanvasTemplate} {type : SectionType} {n : SectionNode} (h : t.find type = some n) :
    (n.id, .known type) ∈ t.nodes.map SectionNode.tag := by
  have htype : n.sectionType = .known type := of_decide_eq_true
    (List.find?_some (p := fun n : SectionNode => decide (n.sectionType = .known type)) h)
  exact List.mem_map.mpr ⟨n, List.mem_of_find?_eq_some h, Prod.ext rfl htype⟩

theorem wired_migrateV2toV3 {t : CanvasTemplate} (h : t.Wired) : t.migrateV2toV3.Wired := by
  unfold CanvasTemplate.migrateV2toV3
  split
  · next embedding database hembedding hdatabase =>
    unfold CanvasTemplate.Wired
    dsimp only
    split_ifs with hthere
    · exact h
    · refine ⟨h.ids, h.types, ?_, List.nodup_append.mpr ⟨h.once, List.nodup_singleton _, ?_⟩⟩
      · intro e he
        rcases List.mem_append.mp he with he | he
        · exact h.ends e he
        · cases List.mem_singleton.mp he
          exact ⟨.embedding, .database, find_tag hembedding, find_tag hdatabase, by decide⟩
      · rintro e he e' he' rfl
        cases List.mem_singleton.mp he'
        exact hthere he
  · exact h

theorem wired_migrateV3toV4 {t : CanvasTemplate} (h : t.Wired) : t.migrateV3toV4.Wired := by
  have htags : (t.nodes.map SectionNode.lifted).map SectionNode.tag = t.nodes.map SectionNode.tag := by
    rw [List.map_map]
    refine List.map_congr_left fun n _ => ?_
    show n.lifted.tag = n.tag
    unfold SectionNode.lifted
    split_ifs <;> rfl
  unfold CanvasTemplate.Wired CanvasTemplate.migrateV3toV4
  rw [htags]
  exact h

/-- From version 2 on, what the frontend makes of a wired template is wired. -/
theorem current_parse {lib : EditorLib} {t t' : CanvasTemplate} (h : t.Wired) (hversion : t.version ≠ 1)
    (hparse : t.parse lib = .ok t') : t'.Current := by
  unfold CanvasTemplate.parse at hparse
  dsimp only at hparse
  split_ifs at hparse with hok
  obtain rfl := Adopted.ok.inj hparse
  refine ⟨hok.1, ?_⟩
  unfold CanvasTemplate.migrate
  rw [if_neg hversion]
  dsimp only
  split_ifs
  · exact wired_migrateV3toV4 (wired_migrateV2toV3 h)
  · exact wired_migrateV2toV3 h
  · exact wired_migrateV3toV4 h
  · exact h

/-- A template of the current version is taken over as it is, or refused. -/
theorem parse_current {lib : EditorLib} {t t' : CanvasTemplate} (hversion : t.version = 4)
    (hparse : t.parse lib = .ok t') : t' = t := by
  unfold CanvasTemplate.parse CanvasTemplate.migrate at hparse
  simp only [hversion, OfNat.ofNat_ne_one, if_false, Nat.reduceEqDiff] at hparse
  split_ifs at hparse
  exact (Adopted.ok.inj hparse).symm

section Carried

variable {τ ρ : Type} {sync : CanvasSync τ ρ} {P Q : τ → Prop}

/-- What the server may hold, `P`, and what a tab shows, `Q`: of the first the parse makes
only the second, and the second may be sent. -/
structure Passes (sync : CanvasSync τ ρ) (P Q : τ → Prop) : Prop where
  parse : ∀ x y, sync.parse x = .ok y → P x → Q y
  send : ∀ x, Q x → P x

/-- Every template of a tab, and on its way, is one of these. -/
structure CanvasTab.Carries (P Q : τ → Prop) (t : CanvasTab τ ρ) : Prop where
  server : ∀ x, t.server = some x → P x
  template : Q t.template
  saves : ∀ save ∈ t.saves, P save.template ∧ ∀ x, save.answer = some (.stale (some x)) → P x
  orphans : ∀ save ∈ t.orphans, P save.template
  fetched : ∀ x, t.fetch = .handled (some x) → P x
  conflict : ∀ x, t.conflict = some x → Q x

theorem none_carries : ∀ x : τ, none = some x → P x := by
  intro x heq
  cases heq

theorem over_carries : ∀ x : τ, Fetch.over = .handled (some x) → P x := by
  intro x heq
  cases heq

theorem handled_carries [DecidableEq ρ] (sync : CanvasSync τ ρ) {t : CanvasTab τ ρ} (ht : t.Carries P Q)
    {save : Save τ ρ} (hsave : P save.template) (how : Handling) :
    (∀ x, (t.handled sync save how).1 = some x → P x) ∧
      ∀ x, (t.handled sync save how).2 = .stale (some x) → P x := by
  cases how with
  | unauthorized => exact ⟨ht.server, nofun⟩
  | failed => exact ⟨ht.server, nofun⟩
  | checked =>
    unfold CanvasTab.handled CanvasSync.put
    have hserver := ht.server
    cases hstored : t.server with
    | none =>
      cases save.ifMatch with
      | none =>
        refine ⟨?_, nofun⟩
        rintro x heq
        cases heq
        exact hsave
      | some rev => exact ⟨none_carries, nofun⟩
    | some current =>
      rw [hstored] at hserver
      cases save.ifMatch with
      | none => exact ⟨hserver, nofun⟩
      | some rev =>
        dsimp only
        split_ifs with hrev
        · refine ⟨?_, nofun⟩
          rintro x heq
          cases heq
          exact hsave
        · refine ⟨hserver, ?_⟩
          rintro x heq
          cases heq
          exact hserver current rfl

theorem answered_carries (hpass : Passes sync P Q) {t : CanvasTab τ ρ} (ht : t.Carries P Q)
    {answer : PutAnswer τ ρ} (hanswer : ∀ x, answer = .stale (some x) → P x) :
    (t.answered sync answer).Carries P Q := by
  have hsame : ∀ status rev, ({ t with status := status, serverRev := rev } : CanvasTab τ ρ).Carries P Q := fun _ _ =>
    ⟨ht.server, ht.template, ht.saves, ht.orphans, ht.fetched, ht.conflict⟩
  cases answer with
  | ok rev => exact hsame _ _
  | required => exact hsame _ _
  | unauthorized => exact hsame _ _
  | failed => exact hsame _ _
  | stale current =>
    cases current with
    | none => exact hsame _ _
    | some current =>
      simp only [CanvasTab.answered]
      split
      · next theirs hok =>
        refine ⟨ht.server, ht.template, ht.saves, ht.orphans, ht.fetched, ?_⟩
        rintro x heq
        cases heq
        exact hpass.parse _ _ hok (hanswer current rfl)
      · exact ht
      · exact hsame _ _

theorem fetched_carries (hpass : Passes sync P Q) {t : CanvasTab τ ρ} (ht : t.Carries P Q) {stored : Option τ}
    (hstored : ∀ x, stored = some x → P x) : (t.fetched sync stored).Carries P Q := by
  have hover : ∀ status rev,
      ({ t with fetch := .over, status := status, serverRev := rev } : CanvasTab τ ρ).Carries P Q :=
    fun _ _ => ⟨ht.server, ht.template, ht.saves, ht.orphans, over_carries, ht.conflict⟩
  cases stored with
  | none => exact hover _ _
  | some stored =>
    simp only [CanvasTab.fetched]
    split
    · next template hok =>
      exact ⟨ht.server, hpass.parse _ _ hok (hstored stored rfl), ht.saves, ht.orphans, over_carries, ht.conflict⟩
    · exact hover _ _
    · exact hover _ _
    · exact hover _ _

theorem edit_carries {t : CanvasTab τ ρ} (ht : t.Carries P Q) {template : τ} (hedit : Q template) :
    ({ t with template := template } : CanvasTab τ ρ).scheduleAutosave.Carries P Q := by
  unfold CanvasTab.scheduleAutosave
  split_ifs <;> exact ⟨ht.server, hedit, ht.saves, ht.orphans, ht.fetched, ht.conflict⟩

section
variable [DecidableEq ρ] {t t' : CanvasTab τ ρ}

theorem fire_carries (hpass : Passes sync P Q) (ht : t.Carries P Q) (h : t.step sync .fire = some t') :
    t'.Carries P Q := by
  simp only [CanvasTab.step] at h
  split_ifs at h
  cases h
  refine ⟨ht.server, ht.template, ?_, ht.orphans, ht.fetched, ht.conflict⟩
  intro save hsave
  rcases List.mem_append.mp hsave with hsave | hsave
  · exact ht.saves save hsave
  · cases List.mem_singleton.mp hsave
    refine ⟨hpass.send _ ht.template, ?_⟩
    intro x hx
    cases hx

theorem handle_carries (ht : t.Carries P Q) {i : ℕ} {how : Handling} (h : t.step sync (.handle i how) = some t') :
    t'.Carries P Q := by
  simp only [CanvasTab.step] at h
  split at h
  · next template ifMatch hsave =>
    cases h
    have hmem := ht.saves _ (List.mem_of_getElem? hsave)
    obtain ⟨hserver, hstale⟩ := handled_carries sync ht hmem.1 how
    refine ⟨hserver, ht.template, ?_, ht.orphans, ht.fetched, ht.conflict⟩
    intro save hin
    rcases List.mem_or_eq_of_mem_set hin with hin | rfl
    · exact ht.saves save hin
    · exact ⟨hmem.1, fun x hx => hstale x (Option.some.inj hx)⟩
  · cases h

theorem handleOrphan_carries (ht : t.Carries P Q) {i : ℕ} (h : t.step sync (.handleOrphan i) = some t') :
    t'.Carries P Q := by
  simp only [CanvasTab.step] at h
  split at h
  · next save hsave =>
    cases h
    obtain ⟨hserver, -⟩ := handled_carries sync ht (ht.orphans _ (List.mem_of_getElem? hsave)) .checked
    exact ⟨hserver, ht.template, ht.saves, fun save hin => ht.orphans save (List.mem_of_mem_eraseIdx hin),
      ht.fetched, ht.conflict⟩
  · cases h

theorem answer_carries (hpass : Passes sync P Q) (ht : t.Carries P Q) {i : ℕ}
    (h : t.step sync (.answer i) = some t') : t'.Carries P Q := by
  simp only [CanvasTab.step] at h
  split at h
  · next template ifMatch answer hsave =>
    cases h
    have hleft : ({ t with saves := t.saves.eraseIdx i } : CanvasTab τ ρ).Carries P Q :=
      ⟨ht.server, ht.template, fun save hin => ht.saves save (List.mem_of_mem_eraseIdx hin), ht.orphans,
        ht.fetched, ht.conflict⟩
    refine answered_carries hpass hleft ?_
    intro x hx
    exact (ht.saves _ (List.mem_of_getElem? hsave)).2 x (congrArg some hx)
  · cases h

theorem lose_carries (ht : t.Carries P Q) {i : ℕ} (h : t.step sync (.lose i) = some t') : t'.Carries P Q := by
  simp only [CanvasTab.step] at h
  split at h
  · next save hsave =>
    cases h
    refine ⟨ht.server, ht.template, fun s hin => ht.saves s (List.mem_of_mem_eraseIdx hin), ?_, ht.fetched,
      ht.conflict⟩
    intro s hin
    dsimp only at hin
    split_ifs at hin
    · rcases List.mem_append.mp hin with hin | hin
      · exact ht.orphans s hin
      · cases List.mem_singleton.mp hin
        exact (ht.saves _ (List.mem_of_getElem? hsave)).1
    · exact ht.orphans s hin
  · cases h

theorem fetch_carries (hpass : Passes sync P Q) (ht : t.Carries P Q) {e : TabEvent τ}
    (he : e = .handleFetch ∨ e = .answerFetch ∨ e = .loseFetch) (h : t.step sync e = some t') :
    t'.Carries P Q := by
  rcases he with rfl | rfl | rfl
  · simp only [CanvasTab.step] at h
    split at h <;> cases h
    exact ⟨ht.server, ht.template, ht.saves, ht.orphans, fun x hx => ht.server x (Fetch.handled.inj hx), ht.conflict⟩
  · simp only [CanvasTab.step] at h
    split at h
    · next stored hfetch =>
      cases h
      refine fetched_carries hpass ht ?_
      rintro x rfl
      exact ht.fetched x hfetch
    · cases h
  · simp only [CanvasTab.step] at h
    split at h <;> cases h
    exact ⟨ht.server, ht.template, ht.saves, ht.orphans, over_carries, ht.conflict⟩

theorem tab_carries (hpass : Passes sync P Q) {e : TabEvent τ} (ht : t.Carries P Q)
    (hedit : ∀ x, e = .edit x → Q x) (h : t.step sync e = some t') : t'.Carries P Q := by
  cases e with
  | edit template =>
    cases h
    exact edit_carries ht (hedit _ rfl)
  | fire => exact fire_carries hpass ht h
  | handle i how => exact handle_carries ht h
  | handleOrphan i => exact handleOrphan_carries ht h
  | answer i => exact answer_carries hpass ht h
  | lose i => exact lose_carries ht h
  | handleFetch => exact fetch_carries hpass ht (.inl rfl) h
  | answerFetch => exact fetch_carries hpass ht (.inr (.inl rfl)) h
  | loseFetch => exact fetch_carries hpass ht (.inr (.inr rfl)) h

end

/-- The same of a tab with its dialog, on the shared server. -/
structure TabSession.Carries (P Q : τ → Prop) (server : Option τ) (s : TabSession τ ρ) : Prop where
  tab : ({ s.tab with server := server } : CanvasTab τ ρ).Carries P Q
  forces : ∀ f ∈ s.forces, P f.1
  lost : ∀ x ∈ s.lostForces, P x

variable {s s' : TabSession τ ρ} {server server' : Option τ}

theorem start_carries (hserver : ∀ x, server = some x → P x) {draft : τ} (hdraft : Q draft) :
    ({ tab := { server := none, template := draft } } : TabSession τ ρ).Carries P Q server := by
  have hfetched : ∀ x : τ, Fetch.sent = .handled (some x) → P x := by
    intro x heq
    cases heq
  exact ⟨⟨hserver, hdraft, List.forall_mem_nil _, List.forall_mem_nil _, hfetched, none_carries⟩,
    List.forall_mem_nil _, List.forall_mem_nil _⟩

/-- The other tabs are as they were, whatever the server holds now. -/
theorem TabSession.Carries.reserve (h : s.Carries P Q server) (hserver : ∀ x, server' = some x → P x) :
    s.Carries P Q server' :=
  ⟨⟨hserver, h.tab.template, h.tab.saves, h.tab.orphans, h.tab.fetched, h.tab.conflict⟩, h.forces, h.lost⟩

theorem forced_carries (hserver : ∀ x, server = some x → P x) {template : τ} (htemplate : P template)
    (how : Handling) : ∀ x, (forced sync server template how).1 = some x → P x := by
  cases how with
  | checked =>
    rintro x ⟨rfl⟩
    exact htemplate
  | unauthorized => exact hserver
  | failed => exact hserver

theorem forceAnswered_carries (h : s.Carries P Q server) (answer : PutAnswer τ ρ) :
    (s.forceAnswered answer).Carries P Q server := by
  cases answer with
  | ok rev =>
    exact ⟨⟨h.tab.server, h.tab.template, h.tab.saves, h.tab.orphans, h.tab.fetched, none_carries⟩, h.forces, h.lost⟩
  | _ =>
    exact ⟨⟨h.tab.server, h.tab.template, h.tab.saves, h.tab.orphans, h.tab.fetched, h.tab.conflict⟩, h.forces,
      h.lost⟩

theorem takeTheirs_carries (hs : s.Carries P Q server) (h : s.takeTheirs sync = some s') : s'.Carries P Q server := by
  unfold TabSession.takeTheirs at h
  split at h
  · next template _ hconflict _ =>
    cases h
    exact ⟨⟨hs.tab.server, hs.tab.conflict template hconflict, hs.tab.saves, hs.tab.orphans, hs.tab.fetched,
      none_carries⟩, hs.forces, hs.lost⟩
  · cases h

theorem keepMine_carries (hpass : Passes sync P Q) (hs : s.Carries P Q server) (h : s.keepMine = some s') :
    s'.Carries P Q server := by
  unfold TabSession.keepMine at h
  split_ifs at h
  cases h
  refine ⟨⟨hs.tab.server, hs.tab.template, hs.tab.saves, hs.tab.orphans, hs.tab.fetched, hs.tab.conflict⟩, ?_,
    hs.lost⟩
  intro f hf
  rcases List.mem_append.mp hf with hf | hf
  · exact hs.forces f hf
  · cases List.mem_singleton.mp hf
    exact hpass.send _ hs.tab.template

section
variable [DecidableEq ρ]

theorem handleForce_carries (hs : s.Carries P Q server) {i : ℕ} {how : Handling}
    (h : s.step sync server (.handleForce i how) = some (server', s')) : s'.Carries P Q server' := by
  simp only [TabSession.step] at h
  split at h
  · next template hi =>
    have htemplate : P template := hs.forces _ (List.mem_of_getElem? hi)
    cases h
    refine ⟨(hs.reserve (forced_carries hs.tab.server htemplate how)).tab, ?_, hs.lost⟩
    intro f hf
    rcases List.mem_or_eq_of_mem_set hf with hf | rfl
    · exact hs.forces f hf
    · exact htemplate
  · cases h

theorem handleLostForce_carries (hs : s.Carries P Q server) {i : ℕ}
    (h : s.step sync server (.handleLostForce i) = some (server', s')) : s'.Carries P Q server' := by
  simp only [TabSession.step] at h
  split at h
  · next template hi =>
    cases h
    have hserver : ∀ x, some template = some x → P x := by
      rintro x ⟨rfl⟩
      exact hs.lost _ (List.mem_of_getElem? hi)
    exact ⟨(hs.reserve hserver).tab, hs.forces, fun x hx => hs.lost x (List.mem_of_mem_eraseIdx hx)⟩
  · cases h

theorem answerForce_carries (hs : s.Carries P Q server) {i : ℕ}
    (h : s.step sync server (.answerForce i) = some (server', s')) : s'.Carries P Q server' := by
  simp only [TabSession.step] at h
  split at h
  · next answer _ =>
    cases h
    have hleft : ({ s with forces := s.forces.eraseIdx i } : TabSession τ ρ).Carries P Q server :=
      ⟨hs.tab, fun f hf => hs.forces f (List.mem_of_mem_eraseIdx hf), hs.lost⟩
    exact forceAnswered_carries hleft answer
  · cases h

theorem loseForce_carries (hs : s.Carries P Q server) {i : ℕ}
    (h : s.step sync server (.loseForce i) = some (server', s')) : s'.Carries P Q server' := by
  simp only [TabSession.step] at h
  split at h
  · next template answer hi =>
    cases h
    refine ⟨⟨hs.tab.server, hs.tab.template, hs.tab.saves, hs.tab.orphans, hs.tab.fetched, hs.tab.conflict⟩,
      fun f hf => hs.forces f (List.mem_of_mem_eraseIdx hf), ?_⟩
    intro x hx
    dsimp only at hx
    split_ifs at hx
    · rcases List.mem_append.mp hx with hx | hx
      · exact hs.lost x hx
      · cases List.mem_singleton.mp hx
        exact hs.forces _ (List.mem_of_getElem? hi)
    · exact hs.lost x hx
  · cases h

theorem session_carries (hpass : Passes sync P Q) {e : SessionEvent τ} (hs : s.Carries P Q server)
    (hedit : ∀ x, e = .tab (.edit x) → Q x) (h : s.step sync server e = some (server', s')) :
    s'.Carries P Q server' := by
  cases e with
  | tab e =>
    obtain ⟨tab, hstep, heq⟩ := Option.map_eq_some_iff.mp h
    cases heq
    have hedit' : ∀ x, e = .edit x → Q x := by
      rintro x rfl
      exact hedit x rfl
    exact ⟨tab_carries hpass hs.tab hedit' hstep, hs.forces, hs.lost⟩
  | dismiss =>
    simp only [TabSession.step] at h
    split_ifs at h
    cases h
    exact ⟨⟨hs.tab.server, hs.tab.template, hs.tab.saves, hs.tab.orphans, hs.tab.fetched, none_carries⟩, hs.forces,
      hs.lost⟩
  | takeTheirs =>
    obtain ⟨session, htake, heq⟩ := Option.map_eq_some_iff.mp h
    cases heq
    exact takeTheirs_carries hs htake
  | keepMine =>
    obtain ⟨session, hkeep, heq⟩ := Option.map_eq_some_iff.mp h
    cases heq
    exact keepMine_carries hpass hs hkeep
  | handleForce i how => exact handleForce_carries hs h
  | handleLostForce i => exact handleLostForce_carries hs h
  | answerForce i => exact answerForce_carries hs h
  | loseForce i => exact loseForce_carries hs h

end

theorem edit_template [DecidableEq ρ] {template : τ}
    (h : s.step sync server (.tab (.edit template)) = some (server', s')) : s'.tab.template = template := by
  replace h : s.tabStep sync server (.edit template) = some (server', s') := h
  obtain ⟨tab, hstep, heq⟩ := Option.map_eq_some_iff.mp h
  cases heq
  cases hstep
  unfold CanvasTab.scheduleAutosave
  split_ifs <;> rfl

theorem answered_template (t : CanvasTab τ ρ) (answer : PutAnswer τ ρ) :
    (t.answered sync answer).template = t.template := by
  cases answer with
  | stale current =>
    cases current with
    | none => rfl
    | some current =>
      simp only [CanvasTab.answered]
      split <;> rfl
  | _ => rfl

theorem fetched_template (t : CanvasTab τ ρ) {stored : Option τ}
    (h : ∀ x y, stored = some x → sync.parse x ≠ .ok y) : (t.fetched sync stored).template = t.template := by
  cases stored with
  | none => rfl
  | some stored =>
    simp only [CanvasTab.fetched]
    split
    · next template hok => exact absurd hok (h _ _ rfl)
    · rfl
    · rfl
    · rfl

theorem tab_template [DecidableEq ρ] {t t' : CanvasTab τ ρ} {e : TabEvent τ} (hedit : ∀ x, e ≠ .edit x)
    (hfetch : ∀ x y, e = .answerFetch → t.fetch = .handled (some x) → sync.parse x ≠ .ok y)
    (h : t.step sync e = some t') : t'.template = t.template := by
  cases e with
  | edit template => exact absurd rfl (hedit template)
  | answer i =>
    simp only [CanvasTab.step] at h
    split at h <;> cases h
    exact answered_template _ _
  | answerFetch =>
    simp only [CanvasTab.step] at h
    split at h
    · next stored hstored =>
      cases h
      refine fetched_template t fun x y hx => hfetch x y rfl ?_
      rw [hstored, hx]
    · cases h
  | fire =>
    simp only [CanvasTab.step] at h
    split_ifs at h
    cases h
    rfl
  | _ =>
    simp only [CanvasTab.step] at h
    split at h <;> cases h
    rfl

/-- Only edits and what a tab adopts change its template. -/
theorem template_kept [DecidableEq ρ] {e : SessionEvent τ} (hedit : ∀ x, e ≠ .tab (.edit x))
    (hadopts : s.adopts sync e = false) (h : s.step sync server e = some (server', s')) :
    s'.tab.template = s.tab.template := by
  cases e with
  | tab e =>
    obtain ⟨tab, hstep, heq⟩ := Option.map_eq_some_iff.mp h
    cases heq
    have hedit' : ∀ x, e ≠ .edit x := by
      rintro x rfl
      exact hedit x rfl
    show tab.template = ({ s.tab with server := server } : CanvasTab τ ρ).template
    refine tab_template hedit' ?_ hstep
    rintro x y rfl hfetch hok
    replace hfetch : s.tab.fetch = .handled (some x) := hfetch
    simp [TabSession.adopts, hfetch, hok] at hadopts
  | takeTheirs => cases hadopts
  | dismiss =>
    simp only [TabSession.step] at h
    split_ifs at h
    cases h
    rfl
  | keepMine =>
    obtain ⟨session, hkeep, heq⟩ := Option.map_eq_some_iff.mp h
    cases heq
    unfold TabSession.keepMine at hkeep
    split_ifs at hkeep
    cases hkeep
    rfl
  | answerForce i =>
    simp only [TabSession.step] at h
    split at h
    · next answer _ =>
      cases h
      cases answer <;> rfl
    · cases h
  | _ =>
    simp only [TabSession.step] at h
    split at h <;> cases h
    rfl

end Carried

section Studio

variable {ρ : Type} [DecidableEq ρ] {rev : CanvasTemplate → ρ} {k : ℕ} {server : Option CanvasTemplate}

/-- What the server holds: still the template it started with, or a wired one of the
current version. -/
def InitialOrCurrent (server : Option CanvasTemplate) (x : CanvasTemplate) : Prop := server = some x ∨ x.Current

omit [DecidableEq ρ] in
theorem templates_pass (hserver : ∀ x, server = some x → x.Wired ∧ x.version ≠ 1) :
    Passes (templateSync lib rev) (InitialOrCurrent server) CanvasTemplate.Current where
  parse x y hok := by
    rintro (hx | hx)
    · obtain ⟨hwired, hversion⟩ := hserver x hx
      exact current_parse hwired hversion hok
    · have hsame : y = x := parse_current hx.version hok
      exact hsame ▸ hx
  send _ hx := .inr hx

/-- What a tab holds or sends is as it should be, its editor is sound, and the template of
the tab is what the editor serializes to. -/
structure StudioTab (server₀ server : Option CanvasTemplate) (session : TabSession CanvasTemplate ρ)
    (editor : CanvasEditor) : Prop where
  carries : session.Carries (InitialOrCurrent server₀) CanvasTemplate.Current server
  sound : editor.Sound
  serialize : editor.serialize = session.tab.template

/-- The page calls the store as React Flow does. -/
def HandsOver (w : CanvasStudio ρ) : ℕ × StudioEvent → Prop
  | (k, .change c) => c.HandedTo (w.editors k)
  | (_, .session _) => True

theorem studio_step (hserver : ∀ x, server = some x → x.Wired ∧ x.version ≠ 1) {w w' : CanvasStudio ρ}
    {e : StudioEvent} (hw : ∀ k, StudioTab server w.world.server (w.world.tabs k) (w.editors k))
    (hhands : HandsOver w (k, e)) (h : w.step lib rev k e = some w') :
    ∀ k, StudioTab server w'.world.server (w'.world.tabs k) (w'.editors k) := by
  have hpass : Passes (templateSync lib rev) (InitialOrCurrent server) CanvasTemplate.Current := templates_pass hserver
  -- the tab of the event is left to show: of the others only the server changes
  have hothers : ∀ {session editor}, w'.world.tabs = Function.update w.world.tabs k session →
      w'.editors = Function.update w.editors k editor → StudioTab server w'.world.server session editor →
      ∀ k, StudioTab server w'.world.server (w'.world.tabs k) (w'.editors k) := by
    intro session editor htabs heditors hnew j
    rw [htabs, heditors]
    by_cases hj : j = k
    · subst hj
      rw [Function.update_self, Function.update_self]
      exact hnew
    · rw [Function.update_of_ne hj, Function.update_of_ne hj]
      exact ⟨(hw j).carries.reserve hnew.carries.tab.server, (hw j).sound, (hw j).serialize⟩
  cases e with
  | change c =>
    obtain ⟨editor, happly, hmap⟩ := Option.bind_eq_some_iff.mp h
    obtain ⟨world, hworld, rfl⟩ := Option.map_eq_some_iff.mp hmap
    obtain ⟨session, hstep, htabs⟩ := world_step hworld
    have hsound : editor.Sound := sound_apply (hw k).sound hhands happly
    refine hothers htabs rfl ⟨?_, hsound, ?_⟩
    · refine session_carries hpass (hw k).carries ?_ hstep
      rintro x ⟨rfl⟩
      exact ⟨rfl, hsound.wired⟩
    · exact (edit_template hstep).symm
  | session e =>
    have hedit : ∀ x, e ≠ .tab (.edit x) := by
      rintro x rfl
      cases h
    have hmap : ((w.world.step (templateSync lib rev) k e).map fun world =>
        if (w.world.tabs k).adopts (templateSync lib rev) e then
          (⟨world, Function.update w.editors k ((w.editors k).loadTemplate (world.tabs k).tab.template)⟩ :
            CanvasStudio ρ)
        else ⟨world, w.editors⟩) = some w' := by
      rw [← h]
      cases e with
      | tab e =>
        cases e with
        | edit x => exact absurd rfl (hedit x)
        | _ => rfl
      | _ => rfl
    obtain ⟨world, hworld, rfl⟩ := Option.map_eq_some_iff.mp hmap
    obtain ⟨session, hstep, htabs⟩ := world_step hworld
    have hcarries := session_carries hpass (hw k).carries (fun x hx => absurd hx (hedit x)) hstep
    cases hadopts : (w.world.tabs k).adopts (templateSync lib rev) e with
    | true =>
      rw [hadopts, if_pos rfl] at hothers
      rw [if_pos rfl]
      refine hothers htabs rfl ⟨hcarries, ?_, ?_⟩
      · rw [htabs, Function.update_self]
        exact sound_load _ hcarries.tab.template.wired
      · rw [htabs, Function.update_self]
        exact serialize_load _ hcarries.tab.template.version
    | false =>
      rw [hadopts, if_neg Bool.false_ne_true] at hothers
      rw [if_neg Bool.false_ne_true]
      refine hothers htabs (Function.update_eq_self k w.editors).symm ⟨hcarries, (hw k).sound, ?_⟩
      exact (hw k).serialize.trans (template_kept hedit hadopts hstep).symm

abbrev StudioRun (lib : EditorLib) (rev : CanvasTemplate → ρ) (start : CanvasStudio ρ)
    (es : List (ℕ × StudioEvent)) (w : CanvasStudio ρ) : Prop :=
  Run (guarded HandsOver fun w e w' => CanvasStudio.step lib rev w e.1 e.2 = some w') start es w

/-- What a page starts from is wired, with its draft or without. -/
theorem startupTemplate_current {draft : Option CanvasTemplate}
    (h : ∀ x, draft = some x → x.Wired ∧ x.version ≠ 1) : (startupTemplate lib draft).Current := by
  unfold startupTemplate
  split
  · next template hok =>
    obtain ⟨x, rfl, hparse⟩ := Option.map_eq_some_iff.mp hok
    obtain ⟨hwired, hversion⟩ := h x rfl
    exact current_parse hwired hversion hparse
  · exact ⟨rfl, seed_wired lib⟩

/-- In any number of tabs that edit, save, reload, migrate, conflict and lose their requests,
every canvas stays wired and without cycle, and so is whatever they store. -/
theorem canvas_stays_wired {drafts : ℕ → Option CanvasTemplate}
    (hserver : ∀ x, server = some x → x.Wired ∧ x.version ≠ 1)
    (hdrafts : ∀ k x, drafts k = some x → x.Wired ∧ x.version ≠ 1) {es : List (ℕ × StudioEvent)}
    {w : CanvasStudio ρ} (hrun : StudioRun lib rev (.start lib server drafts) es w) :
    (∀ x, w.world.server = some x → (server = some x ∨ x.version = 4) ∧ x.Wired ∧
      ∀ id, ¬ Relation.TransGen (fun a b => (a, b) ∈ x.edges) id id) ∧
      ∀ k, (w.editors k).serialize.Wired ∧ (w.editors k).serialize = (w.world.tabs k).tab.template := by
  have hstart : ∀ k, StudioTab server (.start lib server drafts : CanvasStudio ρ).world.server
      ((.start lib server drafts : CanvasStudio ρ).world.tabs k)
      ((.start lib server drafts : CanvasStudio ρ).editors k) := by
    intro k
    have hcurrent : (startupTemplate lib (drafts k)).Current := startupTemplate_current (hdrafts k)
    exact ⟨start_carries (fun x hx => .inl hx) hcurrent, sound_load _ hcurrent.wired,
      serialize_load _ hcurrent.version⟩
  have hkept : ∀ (w : CanvasStudio ρ) (e : ℕ × StudioEvent) (w' : CanvasStudio ρ),
      (∀ k, StudioTab server w.world.server (w.world.tabs k) (w.editors k)) →
      guarded HandsOver (fun w e w' => CanvasStudio.step lib rev w e.1 e.2 = some w') w e w' →
      ∀ k, StudioTab server w'.world.server (w'.world.tabs k) (w'.editors k) :=
    fun w e w' hw hstep => studio_step hserver hw hstep.1 hstep.2
  have hinv := Run.invariant hkept hrun hstart
  refine ⟨fun x hx => ?_, fun k => ⟨(hinv k).sound.wired, (hinv k).serialize⟩⟩
  rcases (hinv 0).carries.tab.server x hx with hold | hcurrent
  · have hwired := (hserver x hold).1
    exact ⟨.inl hold, hwired, hwired.acyclic⟩
  · exact ⟨.inr hcurrent.version, hcurrent.wired, hcurrent.wired.acyclic⟩

/-- Edge ids as React Flow gives them, and sections without config. -/
def plainLib : EditorLib where
  edgeId source target := "xy-edge__".toList ++ source ++ '-' :: target
  defaultConfig _ := []
  mockConfig _ := []

/-- A canvas of version 2, before the embedding was stored. -/
def secondCanvas : CanvasTemplate where
  version := 2
  name := "old"
  nodes := (seedTemplate plainLib).nodes
  edges := (seedTemplate plainLib).edges.take 5

/-- The stored canvas is taken over; its entry is taken out, put back in and wired again,
then saved. -/
def rewired : List (ℕ × StudioEvent) :=
  [(0, .session (.tab .handleFetch)), (0, .session (.tab .answerFetch)),
    (0, .change (.onEdgesChange ["e-analyzer-seed-entry-seed-2".toList])),
    (0, .change (.onNodesChange [.remove "entry-seed".toList])), (0, .change (.addSectionNode .entry (0, 280))),
    (0, .change (.onConnect "analyzer-seed".toList "n1".toList)), (0, .session (.tab .fire)),
    (0, .session (.tab (.handle 0 .checked)))]

instance (s : CanvasEditor) (c : EditorChange) : Decidable (c.HandedTo s) :=
  match c with
  | .onNodesChange changes =>
    haveI : DecidablePred fun change => NodeChange.HandedTo s change := fun change =>
      match change with
      | .position _ _ => isTrue trivial
      | .remove id => inferInstanceAs (Decidable (∀ e ∈ s.edges, e.source ≠ id ∧ e.target ≠ id))
    inferInstanceAs (Decidable (∀ change ∈ changes, change.HandedTo s))
  | .onConnect _ _ | .addSectionNode _ _ | .onEdgesChange _ | .updateNodeConfig _ _ _ | .updateNodeConfigBulk _ _
  | .setTemplateName _ | .resetToSeed => isTrue trivial

instance (w : CanvasStudio ρ) (e : ℕ × StudioEvent) : Decidable (HandsOver w e) :=
  match e with
  | (k, .change c) => inferInstanceAs (Decidable (c.HandedTo (w.editors k)))
  | (_, .session _) => isTrue trivial

def oldStudio : CanvasStudio ℕ := .start plainLib (some secondCanvas) fun _ => none

/-- The events handed over in turn, if they can occur. -/
def CanvasStudio.after (es : List (ℕ × StudioEvent)) : Option (CanvasStudio ℕ) :=
  es.foldlM (fun w e =>
    if decide (HandsOver w e) then w.step plainLib (fun t => t.nodes.length) e.1 e.2 else none) oldStudio

theorem after_run {es : List (ℕ × StudioEvent)} {w : CanvasStudio ℕ} (h : CanvasStudio.after es = some w) :
    StudioRun plainLib (fun t => t.nodes.length) oldStudio es w :=
  (run_checkedM h).mono fun _ _ _ hstep => ⟨of_decide_eq_true hstep.1, hstep.2⟩

theorem secondCanvas_wired : secondCanvas.Wired := by
  have hseed := seed_wired plainLib
  exact ⟨hseed.ids, hseed.types, fun e he => hseed.ends e (List.mem_of_mem_take he),
    hseed.once.sublist (List.take_sublist _ _)⟩

theorem canvas_stays_wired_sample : ∃ (w : CanvasStudio ℕ) (x : CanvasTemplate),
    StudioRun plainLib (fun t => t.nodes.length) oldStudio rewired w ∧ w.world.server = some x ∧ x.version = 4 ∧
      x.edges.length = 6 ∧ x.Wired := by
  have hstored : (((CanvasStudio.after rewired).bind fun w => w.world.server).map fun x =>
      (x.version, x.edges.length)) = some (4, 6) := by decide +kernel
  obtain ⟨x, hx, heq⟩ := Option.map_eq_some_iff.mp hstored
  obtain ⟨w, hw, hserver⟩ := Option.bind_eq_some_iff.mp hx
  obtain ⟨hversion, hedges⟩ := Prod.mk.inj heq
  have hold : ∀ x, some secondCanvas = some x → x.Wired ∧ x.version ≠ 1 := by
    rintro x ⟨rfl⟩
    exact ⟨secondCanvas_wired, by decide⟩
  obtain ⟨hwired, -⟩ := canvas_stays_wired hold (fun _ x hx => by cases hx) (after_run hw)
  exact ⟨w, x, after_run hw, hserver, hversion, hedges, (hwired x hserver).2.1⟩

/-- Handed a node that still has an edge, the store leaves the edge behind. -/
theorem removed_alone_dangles :
    ((CanvasEditor.startup (seedTemplate plainLib)).apply plainLib (.onNodesChange [.remove "entry-seed".toList])).map
        (fun s => (s.nodes.length, s.edges.length)) = some (6, 6) ∧
      ¬ EditorChange.HandedTo (.startup (seedTemplate plainLib)) (.onNodesChange [.remove "entry-seed".toList]) := by
  decide +kernel

end Studio

end OpenPoly
