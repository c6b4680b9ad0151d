import OpenPoly.Proofs.Canvas
import OpenPoly.Proofs.Sizing
import OpenPoly.Spec.TemplateIO

/-! The two migrations of a stored template: the runtime's entry config against that of
the template the frontend comes to. -/

namespace OpenPoly

theorem jsItems_eq (xs : List PyJson) : PyJson.jsItems xs = xs.map PyJson.jsRead := by
  induction xs with
  | nil => rfl
  | cons x xs ih => rw [PyJson.jsItems, ih, List.map_cons]

theorem jsEntries_eq (d : PyDict) : PyJson.jsEntries d = d.map fun kv => (kv.1, kv.2.jsRead) := by
  induction d with
  | nil => rfl
  | cons kv d ih => rw [PyJson.jsEntries, ih, List.map_cons]

@[simp] theorem jsRead_obj (d : PyDict) : (PyJson.obj d).jsRead = .obj (PyJson.jsEntries d) := by
  rw [PyJson.jsRead]

@[simp] theorem jsRead_arr (xs : List PyJson) : (PyJson.arr xs).jsRead = .arr (xs.map PyJson.jsRead) := by
  rw [PyJson.jsRead, jsItems_eq]

theorem get?_jsEntries (d : PyDict) (key : String) :
    PyDict.get? (PyJson.jsEntries d) key = (d.get? key).map PyJson.jsRead := by
  unfold PyDict.get?
  rw [jsEntries_eq, ← List.map_reverse, List.find?_map, Option.map_map, Option.map_map]
  rfl

theorem set_jsEntries (d : PyDict) (key : String) (value : PyJson) :
    PyJson.jsEntries (d.set key value) = PyDict.set (PyJson.jsEntries d) key value.jsRead := by
  unfold PyDict.set PyDict.assign
  simp only [jsEntries_eq, List.any_map, Function.comp_def]
  split_ifs with h
  · rw [List.map_map, List.map_map]
    refine List.map_congr_left fun kv _ => ?_
    simp only [Function.comp_apply]
    split_ifs <;> rfl
  · rw [List.map_append]
    rfl

/-- The double nearest to an integer past the exact range is past it too. -/
theorem jsDouble_large {n : ℤ} (hn : 2 ^ 53 < n.natAbs) :
    (2 ^ 53 : ℤ) ≤ |roundHalfEven (n / (2 ^ (n.natAbs.log2 - 52) : ℤ)) * 2 ^ (n.natAbs.log2 - 52)| := by
  have hlog : 53 ≤ n.natAbs.log2 := (Nat.le_log2 (by omega)).mpr hn.le
  obtain ⟨e, he⟩ : ∃ e, n.natAbs.log2 = 52 + (e + 1) := ⟨n.natAbs.log2 - 53, by omega⟩
  have hself : 2 ^ (52 + (e + 1)) ≤ n.natAbs := he ▸ Nat.log2_self_le (by omega)
  rw [show n.natAbs.log2 - 52 = e + 1 by omega]
  have hpos : (0 : ℚ) < 2 ^ (e + 1) := by positivity
  have hulp : (2 : ℤ) ≤ 2 ^ (e + 1) := by
    rw [pow_succ]
    have hone : (1 : ℤ) ≤ 2 ^ e := one_le_pow₀ (by norm_num)
    omega
  have hcast : (((2 ^ (e + 1) : ℤ) : ℚ)) = 2 ^ (e + 1) := by push_cast; rfl
  rw [hcast, abs_mul, abs_of_pos (show (0 : ℤ) < 2 ^ (e + 1) by omega)]
  have hquot : (2 ^ 52 : ℤ) ≤ |roundHalfEven ((n : ℚ) / 2 ^ (e + 1))| := by
    rcases Int.natAbs_eq n with hsign | hsign
    · have hle : ((2 ^ 52 : ℤ) : ℚ) ≤ n / 2 ^ (e + 1) := by
        rw [le_div_iff₀ hpos]
        have hz : (2 ^ 52 * 2 ^ (e + 1) : ℤ) ≤ n := by
          rw [hsign, ← pow_add]
          exact_mod_cast hself
        exact_mod_cast hz
      have hround := roundHalfEven_mono hle
      rw [roundHalfEven_intCast] at hround
      exact hround.trans (le_abs_self _)
    · have hle : n / 2 ^ (e + 1) ≤ ((-2 ^ 52 : ℤ) : ℚ) := by
        rw [div_le_iff₀ hpos]
        have hz : n ≤ (-2 ^ 52 * 2 ^ (e + 1) : ℤ) := by
          rw [hsign, neg_mul, ← pow_add]
          exact neg_le_neg (by exact_mod_cast hself)
        exact_mod_cast hz
      have hround := roundHalfEven_mono hle
      rw [roundHalfEven_intCast] at hround
      exact (le_neg.mpr hround).trans (neg_le_abs _)
  calc (2 ^ 53 : ℤ) = 2 ^ 52 * 2 := by norm_num
    _ ≤ |roundHalfEven ((n : ℚ) / 2 ^ (e + 1))| * 2 ^ (e + 1) := mul_le_mul hquot hulp (by norm_num) (abs_nonneg _)

/-- An integer below 2 ^ 53 is the double of itself alone. -/
theorem jsDouble_eq {n k : ℤ} (hk : k.natAbs < 2 ^ 53) : jsDouble n = .fin k ↔ n = k := by
  unfold jsDouble
  dsimp only
  by_cases hsmall : n.natAbs ≤ 2 ^ 53
  · rw [if_pos hsmall, PyFloat.fin.injEq, Int.cast_inj]
  · rw [if_neg hsmall]
    have hlarge := jsDouble_large (not_le.mp hsmall)
    have hne : ¬n = k := by
      rintro rfl
      exact hsmall hk.le
    refine iff_of_false ?_ hne
    split_ifs
    · simp
    · simp
    · intro heq
      rw [PyFloat.fin.injEq] at heq
      rw [Int.cast_injective heq] at hlarge
      have habs := Int.abs_eq_natAbs k
      omega

theorem strictEq_text (v : PyJson) (s : String) : strictEq (some v.jsRead) (some (jsText s)) = v.isText s := by
  cases v with
  | int n => simp [PyJson.jsRead, strictEq, jsText, PyJson.isText]
  | obj d => simp [strictEq, jsText, PyJson.isText]
  | arr xs => simp [strictEq, jsText, PyJson.isText]
  | null => simp [PyJson.jsRead, strictEq, jsText, PyJson.isText]
  | bool b => simp [PyJson.jsRead, strictEq, jsText, PyJson.isText]
  | float x => simp [PyJson.jsRead, strictEq, jsText, PyJson.isText]
  | str t => simp [PyJson.jsRead, strictEq, jsText, PyJson.isText]

/-- A value the frontend finds to be zero, the backend does, and but for `false` the
other way round. -/
theorem strictEq_zero (v : PyJson) (h : v ≠ .bool false) :
    strictEq (some v.jsRead) (some (jsNum 0)) = decide (v.number = some (.fin 0)) := by
  cases v with
  | int n =>
    have hzero := @jsDouble_eq n 0 (by norm_num)
    simp only [Int.cast_zero] at hzero
    have hfin : PyFloat.fin (n : ℚ) = .fin 0 ↔ n = 0 := by simp
    simp only [PyJson.jsRead, strictEq, jsNum, PyJson.number, Option.some.injEq, hfin, hzero]
    refine decide_eq_decide.mpr (and_iff_right_of_imp ?_)
    rintro rfl
    rw [hzero.mpr rfl]
    exact PyFloat.noConfusion
  | obj d => simp [strictEq, jsNum, PyJson.number]
  | arr xs => simp [strictEq, jsNum, PyJson.number]
  | null => simp [PyJson.jsRead, strictEq, jsNum, PyJson.number]
  | bool b =>
    cases b with
    | false => exact absurd rfl h
    | true => simp [PyJson.jsRead, strictEq, jsNum, PyJson.number]
  | float x =>
    simp only [PyJson.jsRead, strictEq, jsNum, PyJson.number, Option.some.injEq]
    refine decide_eq_decide.mpr (and_iff_right_of_imp ?_)
    rintro rfl
    exact PyFloat.noConfusion
  | str t => simp [PyJson.jsRead, strictEq, jsNum, PyJson.number]

theorem jsGet_obj (d : PyDict) (key : String) : jsGet (some (.obj d)) key = some (PyDict.get? d key) := rfl

theorem isOfType_obj (type : SectionType) (d : PyDict) :
    isOfType type (PyJson.obj d).jsRead = some (sectionNode type (.obj d)).isSome := by
  rw [jsRead_obj, isOfType, jsGet_obj, get?_jsEntries]
  cases hget : PyDict.get? d "sectionType" with
  | none => simp [sectionNode, hget, strictEq]
  | some x =>
    simp only [Option.map_some, strictEq_text, sectionNode, hget, Option.any_some]
    by_cases hx : x.isText type.name = true <;> simp [hx]

/-- The two sides see the same nodes of a type. -/
theorem isOfType_jsRead {type : SectionType} {n : PyJson} {b : Bool} (h : isOfType type n.jsRead = some b) :
    b = (sectionNode type n).isSome := by
  cases n with
  | null => simp [isOfType, PyJson.jsRead, jsGet] at h
  | obj d =>
    rw [isOfType_obj] at h
    exact (Option.some.inj h).symm
  | arr xs => simpa [isOfType, jsGet, sectionNode, strictEq, eq_comm] using h
  | bool x => simpa [isOfType, PyJson.jsRead, jsGet, sectionNode, strictEq, eq_comm] using h
  | int x => simpa [isOfType, PyJson.jsRead, jsGet, sectionNode, strictEq, eq_comm] using h
  | float x => simpa [isOfType, PyJson.jsRead, jsGet, sectionNode, strictEq, eq_comm] using h
  | str x => simpa [isOfType, PyJson.jsRead, jsGet, sectionNode, strictEq, eq_comm] using h

theorem sectionNode_eq {s : SectionType} {n : PyJson} {d : PyDict} (h : sectionNode s n = some d) : n = .obj d := by
  cases n with
  | obj d' =>
    simp only [sectionNode, Option.ite_none_right_eq_some, Option.some.injEq] at h
    rw [h.2]
  | _ => cases h

/-- The config of a node, an empty one where it is no object. -/
def nodeConfig (d : PyDict) : PyDict :=
  match PyDict.get? d "config" with
  | some (.obj config) => config
  | _ => []

/-- Unless the cooldown is `false`, which the backend alone takes for 0, an entry node
is lifted on both sides or on neither. -/
theorem migrateNode_entry {n n' : PyJson} {d : PyDict} (hd : sectionNode .entry n = some d)
    (hcool : PyDict.get? (nodeConfig d) cooldownKey ≠ some (.bool false)) (h : migrateNode n.jsRead = some n') :
    n' = (upgradeNode n).jsRead := by
  obtain rfl := sectionNode_eq hd
  unfold migrateNode at h
  rw [isOfType_obj, hd, jsRead_obj] at h
  simp only [Option.isSome_some, Option.bind_eq_bind, Option.bind_some, if_true, jsGet_obj, get?_jsEntries,
    Option.pure_def] at h
  rw [← Option.some.inj h]
  unfold upgradeNode
  rw [hd]
  unfold nodeConfig at hcool
  dsimp only
  cases hconfig : PyDict.get? d "config" with
  | none => simp [jsOptGet, jsGet, strictEq, jsNum]
  | some c =>
    cases c with
    | obj config =>
      simp only [hconfig] at hcool
      simp only [Option.map_some, jsRead_obj, jsOptGet, jsGet_obj, Option.join_some, get?_jsEntries]
      have hzero : strictEq ((PyDict.get? config cooldownKey).map PyJson.jsRead) (some (jsNum 0)) =
          (PyDict.get? config cooldownKey).any fun x => x.number = some (.fin 0) := by
        cases hget : PyDict.get? config cooldownKey with
        | none => rfl
        | some x =>
          rw [Option.map_some, strictEq_zero x (by rintro rfl; exact hcool hget)]
          rfl
      rw [hzero]
      split_ifs
      · simp only [liftCooldown, get?_jsEntries, hconfig, Option.map_some, jsRead_obj, set_jsEntries]
        rfl
      · rw [jsRead_obj]
    | null => simp [jsOptGet, jsGet, strictEq, jsNum, PyJson.jsRead]
    | arr xs => simp [jsOptGet, jsGet, strictEq, jsNum]
    | bool x => simp [jsOptGet, jsGet, strictEq, jsNum, PyJson.jsRead]
    | int x => simp [jsOptGet, jsGet, strictEq, jsNum, PyJson.jsRead]
    | float x => simp [jsOptGet, jsGet, strictEq, jsNum, PyJson.jsRead]
    | str x => simp [jsOptGet, jsGet, strictEq, jsNum, PyJson.jsRead]

/-- An upgraded entry node is the entry node it was. -/
theorem sectionNode_upgraded {n : PyJson} {d : PyDict} (hd : sectionNode .entry n = some d) :
    ∃ d', upgradeNode n = .obj d' ∧ sectionNode .entry (.obj d') = some d' := by
  have hobj : ∀ d', (sectionNode .entry (.obj d')).isSome = true → sectionNode .entry (.obj d') = some d' := by
    intro d' hsome
    obtain ⟨d'', hd''⟩ := Option.isSome_iff_exists.mp hsome
    rw [hd'', PyJson.obj.inj (sectionNode_eq hd'')]
  have hself : ∃ d', n = .obj d' ∧ sectionNode .entry (.obj d') = some d' :=
    ⟨d, sectionNode_eq hd, sectionNode_eq hd ▸ hd⟩
  unfold upgradeNode
  rw [hd]
  dsimp only
  split
  · split_ifs
    · exact ⟨_, rfl, hobj _ (sectionNode_set hd _)⟩
    · exact hself
  · exact hself

/-- The entry node the frontend finds among the migrated nodes is the one the backend
finds among the upgraded. -/
theorem findOfType_migrated {nodes nodes' : List PyJson}
    (hcool : PyDict.get? (nodesConfig nodes .entry) cooldownKey ≠ some (.bool false))
    (h : (nodes.map PyJson.jsRead).mapM migrateNode = some nodes') :
    findOfType .entry nodes' =
      some (((nodes.map upgradeNode).findSome? (sectionNode .entry)).map fun d => .obj (PyJson.jsEntries d)) := by
  induction nodes generalizing nodes' with
  | nil =>
    simp only [List.map_nil, List.mapM_nil, Option.pure_def, Option.some.injEq] at h
    subst h
    rfl
  | cons n nodes ih =>
    simp only [List.map_cons, List.mapM_cons, Option.bind_eq_bind, Option.bind_eq_some_iff, Option.pure_def,
      Option.some.injEq] at h
    obtain ⟨n', hn, rest, hrest, rfl⟩ := h
    cases hd : sectionNode .entry n with
    | none =>
      have hsame : upgradeNode n = n := by unfold upgradeNode; rw [hd]
      have htype : isOfType .entry n.jsRead = some false := by
        cases ht : isOfType .entry n.jsRead with
        | none => simp [migrateNode, ht] at hn
        | some b => rw [isOfType_jsRead ht, hd]; rfl
      obtain rfl : n.jsRead = n' := by simpa [migrateNode, htype] using hn
      have hskip : findOfType .entry (n.jsRead :: rest) = findOfType .entry rest := by
        simp [findOfType, List.findM?, htype]
      rw [hskip, List.map_cons, hsame, List.findSome?_cons, hd]
      exact ih (by simpa [nodesConfig, hd] using hcool) hrest
    | some d =>
      obtain ⟨d', hup, hd'⟩ := sectionNode_upgraded hd
      have hn' := migrateNode_entry hd
        (by simp only [nodesConfig, List.findSome?_cons, hd] at hcool; exact hcool) hn
      have htype : isOfType .entry n' = some true := by rw [hn', hup, isOfType_obj, hd']; rfl
      have hfound : findOfType .entry (n' :: rest) = some (some n') := by simp [findOfType, List.findM?, htype]
      rw [hfound, List.map_cons, hup, List.findSome?_cons, hd', hn', hup, jsRead_obj]
      rfl

/-- A template brought to a version: nodes that are no entry nodes grafted in. -/
def Climbed (version : ℚ) (input t : StoredTemplate) : Prop :=
  t.version = some (jsNum version) ∧
    ∃ front, (∀ n ∈ front, isOfType .entry n = some false) ∧ t.nodes = front ++ input.nodes

theorem newsNode_type {f : Frontend} {analyzer node : PyJson} (h : newsNode f analyzer = some node) :
    isOfType .entry node = some false := by
  simp only [newsNode, Option.bind_eq_bind, Option.bind_eq_some_iff, Option.pure_def, Option.some.injEq] at h
  obtain ⟨position, -, x, -, y, -, above, -, rfl⟩ := h
  have htype : ∀ id position config : PyJson,
      isOfType .entry (jsObj [("id", some id), ("sectionType", some (jsText "news_source")),
        ("position", some position), ("config", some config)]) = some false := by
    intro id position config
    have hget : PyDict.get? [(PyStr.of "id", id), (PyStr.of "sectionType", jsText "news_source"),
        (PyStr.of "position", position), (PyStr.of "config", config)] "sectionType" =
          some (jsText "news_source") := by
      simp [PyDict.get?, PyStr.of]
    show some (strictEq (PyDict.get? [(PyStr.of "id", id), (PyStr.of "sectionType", jsText "news_source"),
      (PyStr.of "position", position), (PyStr.of "config", config)] "sectionType") _) = _
    rw [hget]
    decide
  exact htype _ _ _

theorem migrateV1toV2_climbed {f : Frontend} {v1 t : StoredTemplate} (h : migrateV1toV2 f v1 = some t) :
    Climbed 2 v1 t := by
  unfold migrateV1toV2 at h
  cases hfind : findOfType .analyzer v1.nodes with
  | none => simp [hfind] at h
  | some found =>
    cases found with
    | none =>
      simp only [hfind, Option.bind_eq_bind, Option.bind_some, Option.pure_def, Option.some.injEq] at h
      subst h
      exact ⟨rfl, [], by simp, rfl⟩
    | some analyzer =>
      simp only [hfind, Option.bind_eq_bind, Option.bind_some, Option.bind_eq_some_iff, Option.pure_def,
        Option.some.injEq] at h
      obtain ⟨node, hnode, target, -, rfl⟩ := h
      exact ⟨rfl, [node], by simpa using newsNode_type hnode, rfl⟩

theorem migrateV2toV3_climbed {v2 t : StoredTemplate} (h : migrateV2toV3 v2 = some t) :
    t.version = some (jsNum 3) ∧ t.nodes = v2.nodes := by
  simp only [migrateV2toV3, Option.bind_eq_bind, Option.bind_eq_some_iff, Option.pure_def] at h
  obtain ⟨embedding, -, database, -, h⟩ := h
  split at h
  · simp only [Option.bind_eq_some_iff, Option.some.injEq] at h
    obtain ⟨source, -, target, -, there, -, rfl⟩ := h
    exact ⟨rfl, rfl⟩
  · rw [← Option.some.inj h]
    exact ⟨rfl, rfl⟩

theorem migrateV3toV4_climbed {v3 t : StoredTemplate} (h : migrateV3toV4 v3 = some t) :
    t.version = some (jsNum 4) ∧ v3.nodes.mapM migrateNode = some t.nodes := by
  simp only [migrateV3toV4, Option.bind_eq_bind, Option.bind_eq_some_iff, Option.pure_def, Option.some.injEq] at h
  obtain ⟨nodes, hnodes, rfl⟩ := h
  exact ⟨rfl, hnodes⟩

theorem isVersion_iff {t : StoredTemplate} {v : ℚ} : t.isVersion v = true ↔ t.version = some (jsNum v) := by
  unfold StoredTemplate.isVersion
  cases hversion : t.version with
  | none => simp [strictEq, jsNum]
  | some x =>
    cases x with
    | float y =>
      simp only [strictEq, jsNum, Bool.decide_and, Bool.and_eq_true, decide_eq_true_eq, Option.some.injEq,
        PyJson.float.injEq, and_iff_right_iff_imp]
      rintro rfl
      exact PyFloat.noConfusion
    | _ => simp [strictEq, jsNum]

theorem climb_at {v : ℚ} {step : StoredTemplate → Option StoredTemplate} {t : StoredTemplate × Bool}
    (h : t.1.version = some (jsNum v)) : climb v step t = (step t.1).map fun t => (t, true) :=
  if_pos (isVersion_iff.mpr h)

theorem climb_past {v w : ℚ} {step : StoredTemplate → Option StoredTemplate} {t : StoredTemplate × Bool}
    (h : t.1.version = some (jsNum w)) (hne : v ≠ w) : climb v step t = some t := by
  refine if_neg fun hv => hne ?_
  have heq := (isVersion_iff.mp hv).symm.trans h
  simpa [jsNum] using heq

/-- A template that is up to date is kept. -/
theorem migrate_current (f : Frontend) {t : StoredTemplate} (h : t.version = some (jsNum 4)) :
    migrate f t = some (t, false) := by
  unfold migrate
  rw [climb_past h (by norm_num)]
  simp only [Option.bind_eq_bind, Option.bind_some]
  rw [climb_past h (by norm_num)]
  exact climb_past h (by norm_num)

/-- From version 3 on. -/
theorem climb_three {input t : StoredTemplate} {b m : Bool} (hv : input.version = some (jsNum 3))
    (h : climb 3 migrateV3toV4 (input, b) = some (t, m)) :
    t.version = some (jsNum 4) ∧ input.nodes.mapM migrateNode = some t.nodes := by
  rw [climb_at hv] at h
  obtain ⟨t', ht', heq⟩ := Option.map_eq_some_iff.mp h
  obtain ⟨rfl, -⟩ := Prod.mk.inj heq
  exact migrateV3toV4_climbed ht'

/-- From version 2 on. -/
theorem climb_two {input t : StoredTemplate} {b m : Bool} (hv : input.version = some (jsNum 2))
    (h : (climb 2 migrateV2toV3 (input, b)).bind (climb 3 migrateV3toV4) = some (t, m)) :
    t.version = some (jsNum 4) ∧ input.nodes.mapM migrateNode = some t.nodes := by
  rw [climb_at hv] at h
  obtain ⟨t', ht', h⟩ := Option.bind_eq_some_iff.mp h
  obtain ⟨t3, ht3, rfl⟩ := Option.map_eq_some_iff.mp ht'
  obtain ⟨hv3, hnodes⟩ := migrateV2toV3_climbed ht3
  exact hnodes ▸ climb_three hv3 h

theorem mapM_skip {front nodes nodes' : List PyJson} (hfront : ∀ n ∈ front, isOfType .entry n = some false)
    (h : (front ++ nodes).mapM migrateNode = some nodes') :
    ∃ rest, nodes.mapM migrateNode = some rest ∧ findOfType .entry nodes' = findOfType .entry rest := by
  induction front generalizing nodes' with
  | nil => exact ⟨nodes', h, rfl⟩
  | cons n front ih =>
    obtain ⟨hn, hfront⟩ := List.forall_mem_cons.mp hfront
    simp only [List.cons_append, List.mapM_cons, Option.bind_eq_bind, Option.bind_eq_some_iff, Option.pure_def,
      Option.some.injEq] at h
    obtain ⟨n', hn', nodes'', hnodes, rfl⟩ := h
    obtain rfl : n = n' := by simpa [migrateNode, hn] using hn'
    obtain ⟨rest, hrest, hfind⟩ := ih hfront hnodes
    refine ⟨rest, hrest, ?_⟩
    rw [← hfind]
    simp [findOfType, List.findM?, hn]

/-- What the chain makes of a template of version 1, 2 or 3. -/
theorem migrate_old {f : Frontend} {input t : StoredTemplate} {m : Bool} {v : ℚ}
    (hv : input.version = some (jsNum v)) (hold : v = 1 ∨ v = 2 ∨ v = 3)
    (h : migrate f input = some (t, m)) :
    t.version = some (jsNum 4) ∧
      ∃ rest, input.nodes.mapM migrateNode = some rest ∧ findOfType .entry t.nodes = findOfType .entry rest := by
  unfold migrate at h
  rcases hold with rfl | rfl | rfl
  · rw [climb_at hv] at h
    simp only [Option.bind_eq_bind] at h
    obtain ⟨t', ht', h⟩ := Option.bind_eq_some_iff.mp h
    obtain ⟨t2, ht2, rfl⟩ := Option.map_eq_some_iff.mp ht'
    obtain ⟨hv2, front, hfront, hnodes⟩ := migrateV1toV2_climbed ht2
    obtain ⟨hv4, hmapped⟩ := climb_two hv2 h
    exact ⟨hv4, mapM_skip hfront (hnodes ▸ hmapped)⟩
  · rw [climb_past hv (by norm_num)] at h
    obtain ⟨hv4, hmapped⟩ := climb_two hv h
    exact ⟨hv4, _, hmapped, rfl⟩
  · rw [climb_past hv (by norm_num)] at h
    simp only [Option.bind_eq_bind, Option.bind_some] at h
    rw [climb_past hv (by norm_num)] at h
    obtain ⟨hv4, hmapped⟩ := climb_three hv h
    exact ⟨hv4, _, hmapped, rfl⟩

/-- The config of the first entry node, `undefined` where there is none. -/
def entryConfig (t : StoredTemplate) : Option PyJson :=
  ((findOfType .entry t.nodes).join).bind fun n => jsOptGet (some n) "config"

def objectOr (v : Option PyJson) : PyDict :=
  match v with
  | some (.obj d) => d
  | _ => []

theorem objectOr_jsRead (v : Option PyJson) :
    objectOr (v.map PyJson.jsRead) = PyJson.jsEntries (objectOr v) := by
  cases v with
  | none => rfl
  | some x =>
    cases x with
    | obj d => rw [Option.map_some, jsRead_obj]; rfl
    | arr xs => rw [Option.map_some, jsRead_arr]; rfl
    | null => rfl
    | bool b => rfl
    | int n => rfl
    | float x => rfl
    | str s => rfl

/-- What `fetchStored` accepts, it has migrated. -/
theorem fetchStored_ok {f : Frontend} {stored : PyDict} {rev rev' : PyStr} {t : StoredTemplate} {m : Bool}
    (h : fetchStored f stored rev = .ok t rev' m) :
    ∃ nodes edges, stored.get? "nodes" = some (.arr nodes) ∧
      migrate f ⟨(stored.get? "version").map PyJson.jsRead, (stored.get? "name").map PyJson.jsRead,
        nodes.map PyJson.jsRead, edges⟩ = some (t, m) := by
  have hkept : ∀ key, key ≠ "rev" →
      PyDict.get? (PyJson.jsEntries (stored.set "rev" (.str rev))) key = (stored.get? key).map PyJson.jsRead := by
    intro key hkey
    rw [get?_jsEntries, PyDict.get?_set_ne stored hkey]
  unfold fetchStored at h
  rw [jsRead_obj] at h
  cases hparse : parseTemplate f (.obj (PyJson.jsEntries (stored.set "rev" (.str rev)))) with
  | none => simp [hparse] at h
  | some result =>
    rw [hparse, Option.getD_some] at h
    subst h
    unfold parseTemplate at hparse
    simp only [hkept "nodes" (by decide), hkept "edges" (by decide), hkept "version" (by decide),
      hkept "name" (by decide)] at hparse
    split at hparse
    · rename_i nodes edges hnodes hedges
      obtain ⟨x, hx, hread⟩ := Option.map_eq_some_iff.mp hnodes
      obtain ⟨xs, rfl, rfl⟩ : ∃ xs, x = .arr xs ∧ nodes = xs.map PyJson.jsRead := by
        cases x with
        | arr xs => exact ⟨xs, rfl, by simpa [eq_comm] using hread⟩
        | obj d => simp at hread
        | null => simp [PyJson.jsRead] at hread
        | bool b => simp [PyJson.jsRead] at hread
        | int n => simp [PyJson.jsRead] at hread
        | float x => simp [PyJson.jsRead] at hread
        | str s => simp [PyJson.jsRead] at hread
      simp only [Option.bind_eq_bind, Option.bind_eq_some_iff, Option.pure_def] at hparse
      obtain ⟨⟨t', m'⟩, hmigrate, hparse⟩ := hparse
      have haccepted : (FetchResult.ok t' rev' m' : FetchResult) = .ok t rev' m := by
        dsimp only at hparse
        split_ifs at hparse
        · cases Option.some.inj hparse
        · obtain ⟨known, -, hparse⟩ := Option.bind_eq_some_iff.mp hparse
          split_ifs at hparse
          · cases Option.some.inj hparse
          · split at hparse
            · split_ifs at hparse
              · cases Option.some.inj hparse
              · cases Option.some.inj hparse
                rfl
            · cases Option.some.inj hparse
      obtain ⟨rfl, -, rfl⟩ := FetchResult.ok.inj haccepted
      exact ⟨xs, edges, hx, hmigrate⟩
    · cases hparse

/-- The upgrade of an upgraded template is that template. -/
theorem upgradeTemplate_idem (d : PyDict) : upgradeTemplate (upgradeTemplate d) = upgradeTemplate d := by
  have hcurrent : ∀ d : PyDict, d.get? "version" = some (.int canvasTemplateVersion) → upgradeTemplate d = d := by
    intro d hd
    unfold upgradeTemplate outdated
    rw [hd, if_neg (by decide)]
  by_cases hold : outdated d = true
  · refine hcurrent _ ?_
    unfold upgradeTemplate
    rw [if_pos hold]
    dsimp only
    split
    · rw [PyDict.get?_set_ne _ (by decide), PyDict.get?_set_self]
    · rw [PyDict.get?_set_self]
  · have hsame : upgradeTemplate d = d := if_neg hold
    rw [hsame, hsame]

/-- The runtime's entry config is the one the operator sees, an empty one where there is
none to see. -/
theorem upgrades_agree {f : Frontend} {stored : PyDict} {rev rev' : PyStr} {t : StoredTemplate} {m : Bool} {v : ℤ}
    (hversion : stored.get? "version" = some (.int v)) (hold : v = 1 ∨ v = 2 ∨ v = 3)
    (hcool : (storedConfig (some stored) .entry).get? cooldownKey ≠ some (.bool false))
    (h : fetchStored f stored rev = .ok t rev' m) :
    PyJson.jsEntries (sectionConfig (some stored) .entry) = objectOr (entryConfig t) ∧
      upgradeTemplate (upgradeTemplate stored) = upgradeTemplate stored ∧ migrate f t = some (t, false) := by
  obtain ⟨nodes, edges, hnodes, hmigrate⟩ := fetchStored_ok h
  have hread : (stored.get? "version").map PyJson.jsRead = some (jsNum v) := by
    have hsmall : v.natAbs ≤ 2 ^ 53 := by omega
    rw [hversion, Option.map_some, PyJson.jsRead, jsDouble, if_pos hsmall]
    rfl
  obtain ⟨hcurrent, rest, hrest, hfind⟩ := migrate_old hread (by exact_mod_cast hold) hmigrate
  refine ⟨?_, upgradeTemplate_idem stored, migrate_current f hcurrent⟩
  have hstored : templateNodes stored = nodes := by rw [templateNodes, hnodes]
  have hfound := findOfType_migrated (by simpa [storedConfig, hstored] using hcool) hrest
  have hup : outdated stored = true := by
    rw [outdated, hversion]
    rcases hold with rfl | rfl | rfl <;> decide
  have hruntime : sectionConfig (some stored) .entry = nodesConfig (nodes.map upgradeNode) .entry := by
    show nodesConfig (templateNodes (upgradeTemplate stored)) .entry = _
    rw [templateNodes_upgrade, if_pos hup, hstored]
  rw [hruntime, entryConfig, hfind, hfound, Option.join_some, nodesConfig]
  cases (nodes.map upgradeNode).findSome? (sectionNode .entry) with
  | none => rfl
  | some d =>
    rw [Option.map_some, Option.bind_some, jsOptGet, jsGet_obj, Option.join_some, get?_jsEntries, objectOr_jsRead]
    rfl

/-- A template of version 3 with one entry node. -/
def entryCanvas (config : PyJson) : PyDict :=
  [(PyStr.of "version", .int 3),
   (PyStr.of "nodes", .arr [.obj [(PyStr.of "sectionType", jsText "entry"), (PyStr.of "config", config)]]),
   (PyStr.of "edges", .arr [])]

def plainFrontend : Frontend := ⟨fun _ => some (jsNum 0), .obj []⟩

theorem upgrades_agree_sample :
    PyJson.jsEntries
        (sectionConfig (some (entryCanvas (.obj [(PyStr.of cooldownKey, .int 0)]))) .entry) =
      [(PyStr.of cooldownKey, jsNum 60)] :=
  (@upgrades_agree plainFrontend (entryCanvas (.obj [(PyStr.of cooldownKey, .int 0)])) (PyStr.of "r") (PyStr.of "r")
    ⟨some (jsNum 4), none, [.obj [(PyStr.of "sectionType", jsText "entry"),
      (PyStr.of "config", .obj [(PyStr.of cooldownKey, jsNum 60)])]], []⟩ true 3 rfl (.inr (.inr rfl))
    (fun hfalse => by cases (show some (PyJson.int 0) = some (.bool false) from hfalse)) rfl).1

/-- A config that is a list is none to the runtime. -/
theorem upgrades_differ :
    (∃ t m, fetchStored plainFrontend (entryCanvas (.arr [])) (PyStr.of "r") = .ok t (PyStr.of "r") m ∧
      entryConfig t = some (.arr [])) ∧ sectionConfig (some (entryCanvas (.arr []))) .entry = [] :=
  ⟨⟨⟨some (jsNum 4), none, [.obj [(PyStr.of "sectionType", jsText "entry"), (PyStr.of "config", .arr [])]], []⟩, true,
    rfl, rfl⟩, rfl⟩

end OpenPoly
