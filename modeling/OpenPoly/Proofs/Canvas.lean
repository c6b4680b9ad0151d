import OpenPoly.Spec.Canvas

/-! The upgrade of a template from before version 4, section by section. -/

namespace OpenPoly

theorem PyStr.of_injective {s t : String} (h : PyStr.of s = PyStr.of t) : s = t := by
  have hchars : s.toList = t.toList := (List.map_injective_iff.mpr fun _ _ hc => PyChar.char.inj hc) h
  exact String.toList_injective hchars

/-- The value of an entry replaced, its key kept. -/
theorem find?_map_value {key key' : PyStr} {value : PyJson} (l : PyDict) :
    ((l.map fun kv => if kv.1 = key then (kv.1, value) else kv).find? fun kv => kv.1 = key') =
      (l.find? fun kv => kv.1 = key').map fun kv => if kv.1 = key then (kv.1, value) else kv := by
  rw [List.find?_map]
  refine congrArg (Option.map _) (congrArg (List.find? · l) (funext fun kv => ?_))
  show decide ((if kv.1 = key then (kv.1, value) else kv).1 = key') = _
  split_ifs <;> rfl

theorem PyDict.get?_set_self (d : PyDict) (key : String) (value : PyJson) :
    (d.set key value).get? key = some value := by
  unfold PyDict.set PyDict.assign PyDict.get?
  by_cases hany : d.any (fun kv => kv.1 = PyStr.of key) = true
  · rw [if_pos hany, ← List.map_reverse, find?_map_value]
    obtain ⟨kv, hmem, hkey⟩ := List.any_eq_true.mp hany
    cases hfind : d.reverse.find? fun kv => kv.1 = PyStr.of key with
    | none => exact (List.find?_eq_none.mp hfind kv (List.mem_reverse.mpr hmem) hkey).elim
    | some kv' =>
      have hkey' : kv'.1 = PyStr.of key := by simpa using List.find?_some hfind
      simp [hkey']
  · rw [if_neg hany, List.reverse_append]
    simp

theorem PyDict.get?_set_ne (d : PyDict) {key key' : String} (hne : key' ≠ key) (value : PyJson) :
    (d.set key value).get? key' = d.get? key' := by
  have hkeys : PyStr.of key ≠ PyStr.of key' := fun h => hne (PyStr.of_injective h.symm)
  unfold PyDict.set PyDict.assign PyDict.get?
  by_cases hany : d.any (fun kv => kv.1 = PyStr.of key) = true
  · rw [if_pos hany, ← List.map_reverse, find?_map_value]
    cases hfind : d.reverse.find? fun kv => kv.1 = PyStr.of key' with
    | none => rfl
    | some kv =>
      have hkey : kv.1 = PyStr.of key' := by simpa using List.find?_some hfind
      simp [hkey, hkeys.symm]
  · rw [if_neg hany, List.reverse_append]
    simp [hkeys]

theorem isText_name {x : PyJson} {s s' : SectionType} (h : x.isText s.name = true)
    (h' : x.isText s'.name = true) : s = s' := by
  cases x with
  | str t =>
    have hname : s.name = s'.name :=
      PyStr.of_injective ((of_decide_eq_true h).symm.trans (of_decide_eq_true h'))
    revert hname
    cases s <;> cases s' <;> decide
  | _ => cases h

/-- A node is of one type. -/
theorem sectionNode_unique {s s' : SectionType} {node : PyJson} (hne : s ≠ s')
    (h : (sectionNode s' node).isSome = true) : sectionNode s node = none := by
  cases node with
  | obj d =>
    simp only [sectionNode] at h ⊢
    by_cases hs' : (PyDict.get? d "sectionType").any (·.isText s'.name) = true
    · refine if_neg fun hs => hne ?_
      cases hget : PyDict.get? d "sectionType" with
      | none => simp [hget] at hs
      | some x =>
        rw [hget] at hs hs'
        exact isText_name hs hs'
    · rw [if_neg hs'] at h
      cases h
  | _ => rfl

/-- A node keeps its type where its config is set. -/
theorem sectionNode_set {s : SectionType} {node : PyJson} {d : PyDict} (h : sectionNode s node = some d)
    (config : PyJson) : (sectionNode s (.obj (d.set "config" config))).isSome = true := by
  cases node with
  | obj d' =>
    simp only [sectionNode, Option.ite_none_right_eq_some, Option.some.injEq] at h
    obtain ⟨htype, rfl⟩ := h
    simp only [sectionNode, PyDict.get?_set_ne d' (show "sectionType" ≠ "config" by decide) config]
    rw [if_pos htype]
    rfl
  | _ => cases h

/-- The upgrade touches entry nodes alone, and leaves each the entry node it is. -/
theorem sectionNode_upgradeNode {s : SectionType} (hne : s ≠ .entry) (node : PyJson) :
    sectionNode s (upgradeNode node) = sectionNode s node := by
  unfold upgradeNode
  cases hnode : sectionNode .entry node with
  | none => rfl
  | some entry =>
    have hbefore : sectionNode s node = none := sectionNode_unique hne (by rw [hnode]; rfl)
    dsimp only
    split
    · rename_i config _
      by_cases hlift : ((PyDict.get? config cooldownKey).any fun x => x.number = some (.fin 0)) = true
      · rw [if_pos hlift, hbefore]
        exact sectionNode_unique hne (sectionNode_set hnode _)
      · rw [if_neg hlift]
    · rfl

theorem nodesConfig_upgrade {s : SectionType} (hne : s ≠ .entry) (nodes : List PyJson) :
    nodesConfig (nodes.map upgradeNode) s = nodesConfig nodes s := by
  unfold nodesConfig
  have hsame : (nodes.map upgradeNode).findSome? (sectionNode s) = nodes.findSome? (sectionNode s) := by
    rw [List.findSome?_map]
    exact congrArg (List.findSome? · nodes) (funext (sectionNode_upgradeNode hne))
  rw [hsame]

theorem templateNodes_upgrade (template : PyDict) :
    templateNodes (upgradeTemplate template) =
      if outdated template then (templateNodes template).map upgradeNode else templateNodes template := by
  unfold upgradeTemplate
  by_cases hold : outdated template = true
  · rw [if_pos hold, if_pos hold]
    have hversion : (template.set "version" (.int canvasTemplateVersion)).get? "nodes" = template.get? "nodes" :=
      PyDict.get?_set_ne _ (by decide) _
    unfold templateNodes
    cases hnodes : template.get? "nodes" with
    | none => simp [hversion, hnodes]
    | some x =>
      cases x with
      | arr nodes => simp [PyDict.get?_set_self]
      | _ => simp [hversion, hnodes]
  · rw [if_neg hold, if_neg hold]

/-- The runtime reads what is stored, but for the entry of a template from before
version 4. -/
theorem sectionConfig_stored {template : Option PyDict} {s : SectionType}
    (h : s ≠ .entry ∨ template.any outdated = false) : sectionConfig template s = storedConfig template s := by
  cases template with
  | none => rfl
  | some template =>
    show nodesConfig (templateNodes (upgradeTemplate template)) s = nodesConfig (templateNodes template) s
    rw [templateNodes_upgrade]
    by_cases hold : outdated template = true
    · rw [if_pos hold]
      refine nodesConfig_upgrade (h.resolve_right fun hnew => ?_) _
      exact Bool.false_ne_true (hnew.symm.trans hold)
    · rw [if_neg hold]

theorem pyEq_isEmpty {d d' : PyDict} (h : d.pyEq d' = true) : d.isEmpty = d'.isEmpty := by
  have hnil : ∀ d : PyDict, d.isEmpty = decide (d.size = 0) := by
    intro d
    cases d with
    | nil => rfl
    | cons kv d =>
      have hkey : kv.1 ∈ ((kv :: d).map Prod.fst).dedup := List.mem_dedup.mpr (List.mem_cons_self ..)
      have hpos : 0 < PyDict.size (kv :: d) := List.length_pos_of_mem hkey
      simp [hpos.ne']
  simp only [PyDict.pyEq, PyJson.pyEq, Bool.decide_and, Bool.and_eq_true, decide_eq_true_eq] at h
  rw [hnil, hnil, h.1]

end OpenPoly
