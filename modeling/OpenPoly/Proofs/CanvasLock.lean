import OpenPoly.Lib.Run
import OpenPoly.Proofs.JsonDecode
import OpenPoly.Proofs.JsonDump
import OpenPoly.Spec.CanvasLock

/-! The optimistic lock of the canvas: what a PUT is accepted over, and what a refused
one leaves. -/

namespace OpenPoly

open Transition

variable {api : CanvasApi} {p : CanvasPut} {file : CanvasFile} {template current : PyDict}

theorem sortItems_eq (xs : List PyJson) : PyJson.sortItems xs = xs.map PyJson.sortKeys := by
  induction xs with
  | nil => rfl
  | cons x xs ih => rw [PyJson.sortItems, ih, List.map_cons]

theorem sortEntries_eq (d : PyDict) : PyJson.sortEntries d = d.map fun kv => (kv.1, kv.2.sortKeys) := by
  induction d with
  | nil => rfl
  | cons kv d ih => rw [PyJson.sortEntries, ih, List.map_cons]

/-- A decoded value stays one where its keys are sorted. -/
theorem fits_sortKeys {depth : ℕ} {x : PyJson} (h : Fits depth x) : Fits depth x.sortKeys := by
  induction depth generalizing x with
  | zero =>
    cases x with
    | arr xs => exact h.elim
    | obj d => exact h.elim
    | _ => exact h
  | succ depth ih =>
    cases x with
    | arr xs =>
      rw [PyJson.sortKeys, sortItems_eq]
      intro y hy
      obtain ⟨x, hx, rfl⟩ := List.mem_map.mp hy
      exact ih (h x hx)
    | obj d =>
      rw [PyJson.sortKeys, sortEntries_eq]
      have hperm := List.perm_insertionSort keyLe (d.map fun kv => (kv.1, kv.2.sortKeys))
      refine ⟨(hperm.map Prod.fst).nodup_iff.mpr ?_, fun kv hkv => ?_⟩
      · rw [List.map_map]
        exact h.1
      · obtain ⟨kv', hkv', rfl⟩ := List.mem_map.mp (hperm.subset hkv)
        exact ⟨(h.2 kv' hkv').1, ih (h.2 kv' hkv').2⟩
    | _ => exact h

/-- One canonical text is the text of one content. -/
theorem canonicalText_injective {depth : ℕ} {x y : PyJson} (hx : Fits depth x) (hy : Fits depth y)
    (h : canonicalText x = canonicalText y) : x.sortKeys = y.sortKeys :=
  encode_injective compact (fits_sortKeys hx) (fits_sortKeys hy) h

theorem fits_withoutRev {depth : ℕ} (h : Fits depth (.obj template)) : Fits depth (.obj (withoutRev template)) := by
  cases depth with
  | zero => exact h.elim
  | succ depth =>
    exact ⟨h.1.sublist (List.filter_sublist.map Prod.fst), fun kv hkv => h.2 kv (List.mem_of_mem_filter hkv)⟩

/-- What is saved is what is read. -/
theorem loadTemplate_saved (h : Fits api.maxDepth (.obj template)) :
    api.loadTemplate true (savedFile template) = .ok (some template) := by
  have hread : jsonDecode api.maxDepth (dumpText (.obj template)) = .ok (.obj template) :=
    jsonDecode_encode indented h 0
  simp [CanvasApi.loadTemplate, savedFile, hread]

theorem loadTemplate_unreadable : api.loadTemplate false file = .ok none := by
  cases file <;> rfl

/-- A PUT that reads the file, or finds none that holds a template, knows what is stored. -/
theorem loadTemplate_stored {readable : Bool} {found : Option PyDict}
    (h : api.loadTemplate readable file = .ok found) (hread : api.stored file = none ∨ readable = true) :
    found = api.stored file := by
  cases readable with
  | true => rw [CanvasApi.stored, h]; rfl
  | false =>
    rw [loadTemplate_unreadable] at h
    rw [← Except.ok.inj h]
    exact (hread.resolve_right Bool.false_ne_true).symm

theorem loadTemplate_fits {readable : Bool} (h : api.loadTemplate readable file = .ok (some template)) :
    Fits api.maxDepth (.obj template) := by
  cases readable with
  | false => rw [loadTemplate_unreadable] at h; cases h
  | true =>
    cases file with
    | absent => cases h
    | undecodable => cases h
    | text s =>
      unfold CanvasApi.loadTemplate at h
      rw [if_pos rfl] at h
      dsimp only at h
      cases hdecode : jsonDecode api.maxDepth s with
      | error e =>
        rw [hdecode] at h
        dsimp only at h
        split_ifs at h <;> cases h
      | ok x =>
        rw [hdecode] at h
        cases x with
        | obj d =>
          cases h
          exact jsonDecode_fits hdecode
        | _ => cases h

theorem stored_fits (h : api.stored file = some template) : Fits api.maxDepth (.obj template) := by
  rw [CanvasApi.stored, Option.join_eq_some_iff] at h
  cases hload : api.loadTemplate true file with
  | error e => rw [hload] at h; cases h
  | ok found =>
    rw [hload] at h
    exact loadTemplate_fits (hload.trans (congrArg _ (Option.some.inj h)))

theorem refusal_refused (api : CanvasApi) (status : ℕ) (detail : PyJson) :
    (api.refusal status detail).accepted = false := by
  unfold CanvasApi.refusal
  split_ifs <;> rfl

theorem incoming_ok (h : api.incoming p = .ok template) : Fits api.maxDepth (.obj template) := by
  unfold CanvasApi.incoming at h
  split at h
  · cases h
  · rename_i body hbody
    split_ifs at h
    split at h
    · split_ifs at h
      rw [← Except.ok.inj h]
      exact fits_withoutRev (jsonDecode_fits hbody)
    · cases h

theorem incoming_error {a : CanvasAnswer} (h : api.incoming p = .error a) : a.accepted = false := by
  unfold CanvasApi.incoming at h
  split at h
  · rw [← Except.error.inj h]; rfl
  · split_ifs at h
    · rw [← Except.error.inj h]; rfl
    · split at h
      · split_ifs at h
        · rw [← Except.error.inj h]; exact refusal_refused ..
        · rw [← Except.error.inj h]; exact refusal_refused ..
      · rw [← Except.error.inj h]; rfl

theorem lockCheck_refused {ifMatch : Option String} {found : Option PyDict} {a : CanvasAnswer}
    (h : api.lockCheck ifMatch found = some a) : a.accepted = false := by
  unfold CanvasApi.lockCheck at h
  split at h
  · split_ifs at h
    rw [← Option.some.inj h]
    exact refusal_refused ..
  · dsimp only at h
    split at h
    · rw [← Option.some.inj h]
      exact refusal_refused ..
    · split_ifs at h
      rw [← Option.some.inj h]
      exact refusal_refused ..

/-- The lock lets a PUT through over a template it names, or over any with the wildcard. -/
theorem lockCheck_passed {ifMatch : Option String} (h : api.lockCheck ifMatch (some current) = none) :
    ifMatch = some "*" ∨ ifMatch = some (api.computeRev current) := by
  unfold CanvasApi.lockCheck at h
  cases ifMatch with
  | none => simp at h
  | some m =>
    have hpassed : ¬(m ≠ "*" ∧ m ≠ api.computeRev current) := by simpa using h
    rw [not_and_or, not_not, not_not] at hpassed
    exact hpassed.imp (congrArg some) (congrArg some)

/-- What a PUT has passed that comes to its save. -/
theorem toSave_ok (h : api.toSave p file = .ok template) :
    Fits api.maxDepth (.obj template) ∧
      ∃ found, api.loadTemplate p.readable file = .ok found ∧ api.lockCheck p.ifMatch found = none := by
  unfold CanvasApi.toSave at h
  obtain ⟨incoming, hincoming, h⟩ := Results.except_bind_ok h
  obtain ⟨found, hfound, h⟩ := Results.except_bind_ok h
  cases hload : api.loadTemplate p.readable file with
  | error e => rw [hload] at hfound; cases hfound
  | ok found' =>
    rw [hload] at hfound
    obtain rfl : found' = found := Except.ok.inj hfound
    unfold CanvasApi.lockedSave at h
    split at h
    · cases h
    · rename_i hlock
      split at h
      · cases h
      · cases h
        exact ⟨incoming_ok hincoming, _, rfl, hlock⟩

theorem toSave_error {a : CanvasAnswer} (h : api.toSave p file = .error a) : a.accepted = false := by
  unfold CanvasApi.toSave at h
  cases hincoming : api.incoming p with
  | error a' =>
    rw [hincoming] at h
    rw [← Except.error.inj h]
    exact incoming_error hincoming
  | ok incoming =>
    rw [hincoming] at h
    cases hload : api.loadTemplate p.readable file with
    | error e =>
      rw [hload] at h
      rw [← Except.error.inj h]
      rfl
    | ok found =>
      rw [hload] at h
      replace h : api.lockedSave p incoming found = .error a := h
      unfold CanvasApi.lockedSave at h
      cases hlock : api.lockCheck p.ifMatch found with
      | some refusal =>
        rw [hlock] at h
        rw [← Except.error.inj h]
        exact lockCheck_refused hlock
      | none =>
        rw [hlock] at h
        dsimp only at h
        split at h
        · rw [← Except.error.inj h]
          exact refusal_refused ..
        · cases h

theorem incoming_decoded (hdecode : jsonDecode api.maxDepth p.body = .ok (.obj template))
    (hauthorized : p.authorized = true) (hshape : templateShaped template = true) :
    api.incoming p = .ok (withoutRev template) := by
  have hversion : (PyDict.get? template "version").any (·.toInt?.isSome) = true := by
    unfold templateShaped at hshape
    exact (Bool.and_eq_true _ _ ▸ hshape).1
  simp [CanvasApi.incoming, hdecode, hauthorized, hversion, hshape]

theorem toSave_locked {found : Option PyDict} (hincoming : api.incoming p = .ok template)
    (hload : api.loadTemplate p.readable file = .ok found) :
    api.toSave p file = api.lockedSave p template found := by
  unfold CanvasApi.toSave
  rw [hincoming, hload]
  rfl

/-- A PUT of a template's own text that the lock lets through. -/
theorem toSave_passed {found : Option PyDict} (hfits : Fits api.maxDepth (.obj template))
    (hshape : templateShaped template = true) (hbody : p.body = dumpText (.obj template))
    (hauthorized : p.authorized = true) (hsave : p.saveError = none)
    (hload : api.loadTemplate p.readable file = .ok found) (hlock : api.lockCheck p.ifMatch found = none) :
    api.toSave p file = .ok (withoutRev template) := by
  have hdecode : jsonDecode api.maxDepth p.body = .ok (.obj template) := by
    rw [hbody]
    exact jsonDecode_encode indented hfits 0
  rw [toSave_locked (incoming_decoded hdecode hauthorized hshape) hload, CanvasApi.lockedSave, hlock, hsave]

theorem get?_errorDetail (error message : String) (more : PyDict) :
    PyDict.get? ((PyStr.of "error", .str (PyStr.of error)) :: (PyStr.of "message", .str (PyStr.of message)) :: more)
      "template" = PyDict.get? more "template" := by
  have herror : PyStr.of "error" ≠ PyStr.of "template" := by decide
  have hmessage : PyStr.of "message" ≠ PyStr.of "template" := by decide
  unfold PyDict.get?
  simp [List.find?_append, herror, hmessage]

theorem refusal_given {status : ℕ} {error message : String} {more : PyDict}
    (h : (api.refusal status (errorDetail error message more)).given = some template) :
    PyDict.get? more "template" = some (.obj template) := by
  unfold CanvasApi.refusal at h
  split_ifs at h
  · simp only [CanvasAnswer.given, errorDetail, get?_errorDetail] at h
    split at h
    · rename_i heq
      rw [heq, Option.some.inj h]
    · cases h
  · cases h

theorem answer_given (h : (api.answer template).given = some current) : current = template := by
  unfold CanvasApi.answer at h
  dsimp only at h
  split_ifs at h
  · exact (Option.some.inj h).symm
  · cases h

theorem incoming_given {a : CanvasAnswer} (h : api.incoming p = .error a) : a.given = none := by
  have hbare : ∀ error message, (api.refusal 400 (errorDetail error message [])).given = none := by
    intro error message
    by_contra hgiven
    obtain ⟨d, hd⟩ := Option.ne_none_iff_exists'.mp hgiven
    have hnil := refusal_given hd
    cases hnil
  unfold CanvasApi.incoming at h
  split at h
  · rw [← Except.error.inj h]; rfl
  · split_ifs at h
    · rw [← Except.error.inj h]; rfl
    · split at h
      · split_ifs at h
        · rw [← Except.error.inj h]; exact hbare ..
        · rw [← Except.error.inj h]; exact hbare ..
      · rw [← Except.error.inj h]; rfl

/-- A refused PUT is given the stored template or none. -/
theorem lockCheck_given {ifMatch : Option String} {found : Option PyDict} {a : CanvasAnswer}
    (h : api.lockCheck ifMatch found = some a) (hgiven : a.given = some template) : found = some template := by
  unfold CanvasApi.lockCheck at h
  split at h
  · split_ifs at h
    rw [← Option.some.inj h] at hgiven
    have hmore := refusal_given hgiven
    simp [PyDict.get?] at hmore
  · rename_i current
    dsimp only at h
    split at h
    · rw [← Option.some.inj h] at hgiven
      have hmore := refusal_given hgiven
      have hkey : PyStr.of "current_rev" ≠ PyStr.of "template" := by decide
      simp [PyDict.get?, hkey] at hmore
    · split_ifs at h
      rw [← Option.some.inj h] at hgiven
      have hmore := refusal_given hgiven
      rw [show current = template by simpa [PyDict.get?] using hmore]

theorem toSave_given {a : CanvasAnswer} (h : api.toSave p file = .error a) (hgiven : a.given = some template) :
    Fits api.maxDepth (.obj template) := by
  unfold CanvasApi.toSave at h
  cases hincoming : api.incoming p with
  | error a' =>
    rw [hincoming] at h
    rw [← Except.error.inj h, incoming_given hincoming] at hgiven
    cases hgiven
  | ok incoming =>
    rw [hincoming] at h
    cases hload : api.loadTemplate p.readable file with
    | error e =>
      rw [hload] at h
      rw [← Except.error.inj h] at hgiven
      cases hgiven
    | ok found =>
      rw [hload] at h
      replace h : api.lockedSave p incoming found = .error a := h
      unfold CanvasApi.lockedSave at h
      cases hlock : api.lockCheck p.ifMatch found with
      | some refusal =>
        rw [hlock] at h
        rw [← Except.error.inj h] at hgiven
        rw [lockCheck_given hlock hgiven] at hload
        exact loadTemplate_fits hload
      | none =>
        rw [hlock] at h
        dsimp only at h
        split at h
        · rw [← Except.error.inj h] at hgiven
          have hmore := refusal_given hgiven
          cases hmore
        · cases h

theorem getTemplate_given {readable : Bool} (h : (api.getTemplate readable file).given = some template) :
    Fits api.maxDepth (.obj template) := by
  unfold CanvasApi.getTemplate at h
  split at h
  · cases h
  · have hmore := refusal_given h
    cases hmore
  · rename_i hload
    rw [answer_given h]
    exact loadTemplate_fits hload

theorem putTemplate_given (h : (api.putTemplate p file).2.given = some template) :
    Fits api.maxDepth (.obj template) := by
  unfold CanvasApi.putTemplate at h
  split at h
  · rename_i hsave
    exact toSave_given hsave h
  · rename_i hsave
    rw [answer_given h]
    exact (toSave_ok hsave).1

/-- A template is saved only where its response serializes or nothing changes, and over
a stored template only with the wildcard, or where the file is read and the author has
been given the content the revision it sends is of. -/
def CanvasHost.guard (api : CanvasApi) (h : CanvasHost) : CanvasCall → Prop
  | .get .. => True
  | .put client p => ∀ template, api.toSave p h.file = .ok template →
      (api.renders (withRev template (api.computeRev template)) = true ∨ h.file = savedFile template) ∧
        (p.ifMatch = some "*" ∨ api.stored h.file = none ∨
          p.readable = true ∧ ∃ d ∈ h.reads client, p.ifMatch = some (api.computeRev d))

structure CanvasHost.LockKept (api : CanvasApi) (h : CanvasHost) (client : ℕ) (p : CanvasPut) : Prop where
  named : (api.putTemplate p h.file).2.accepted = true → p.ifMatch ≠ some "*" →
    ∀ current, api.stored h.file = some current → p.ifMatch = some (api.computeRev current)
  refused : (api.putTemplate p h.file).2.accepted = false → (api.putTemplate p h.file).1 = h.file
  read : (api.putTemplate p h.file).2.accepted = true → p.ifMatch ≠ some "*" →
    ∀ current, api.stored h.file = some current →
      ∃ d ∈ h.reads client, (PyJson.obj d).sortKeys = (PyJson.obj current).sortKeys

structure CanvasHost.Inv (api : CanvasApi) (h : CanvasHost) : Prop where
  fits : ∀ client, ∀ d ∈ h.reads client, Fits api.maxDepth (.obj d)
  confirmed : ∀ rev, h.confirmed = some rev → ∃ template, h.file = savedFile template ∧
    Fits api.maxDepth (.obj template) ∧ api.answer template = .ok template rev

theorem answer_renders (h : api.renders (withRev template (api.computeRev template)) = true) :
    api.answer template = .ok template (api.computeRev template) := if_pos h

theorem accepted_rev? {a : CanvasAnswer} (h : a.accepted = false) : a.rev? = none := by
  cases a with
  | ok d rev => cases h
  | error status detail => rfl

theorem told_fits {h : CanvasHost} (hfits : ∀ c, ∀ d ∈ h.reads c, Fits api.maxDepth (.obj d)) {client : ℕ}
    {a : CanvasAnswer} (ha : ∀ d, a.given = some d → Fits api.maxDepth (.obj d)) :
    ∀ c, ∀ d ∈ (h.told client a).reads c, Fits api.maxDepth (.obj d) := by
  intro c d hd
  by_cases hc : c = client
  · subst hc
    rw [show (h.told c a).reads c = a.given.toList ++ h.reads c from Function.update_self ..] at hd
    rcases List.mem_append.mp hd with hd | hd
    · exact ha d (by simpa using hd)
    · exact hfits c d hd
  · rw [show (h.told client a).reads c = h.reads c from Function.update_of_ne hc ..] at hd
    exact hfits c d hd

/-- One guarded call. -/
theorem inv_step {h : CanvasHost} {call : CanvasCall} (hinv : h.Inv api) (hguard : h.guard api call) :
    (h.step api call).Inv api := by
  cases call with
  | get client readable => exact ⟨told_fits hinv.fits fun d hd => getTemplate_given hd, hinv.confirmed⟩
  | put client p =>
    refine ⟨told_fits hinv.fits fun d hd => putTemplate_given hd, fun rev hrev => ?_⟩
    show ∃ template, (api.putTemplate p h.file).1 = savedFile template ∧ _
    replace hrev : ((api.putTemplate p h.file).2.rev?.or h.confirmed) = some rev := hrev
    unfold CanvasApi.putTemplate at hrev ⊢
    cases hsave : api.toSave p h.file with
    | error a =>
      simp only [hsave, accepted_rev? (toSave_error hsave), Option.none_or] at hrev
      exact hinv.confirmed rev hrev
    | ok template =>
      simp only [hsave] at hrev ⊢
      by_cases hrenders : api.renders (withRev template (api.computeRev template)) = true
      · rw [answer_renders hrenders] at hrev
        cases hrev
        exact ⟨template, rfl, (toSave_ok hsave).1, answer_renders hrenders⟩
      · -- answered with an error: the guard says that the file is the one there was
        have hsame := (hguard template hsave).1.resolve_left hrenders
        have hanswer : api.answer template = .error 500 none := if_neg hrenders
        rw [hanswer] at hrev
        rw [← hsame]
        exact hinv.confirmed rev hrev

theorem lockKept_of_guard (hinj : Function.Injective api.sha256) {h : CanvasHost} {client : ℕ}
    (hinv : h.Inv api) (hguard : h.guard api (.put client p)) : h.LockKept api client p := by
  have hnamed : (api.putTemplate p h.file).2.accepted = true → p.ifMatch ≠ some "*" →
      ∀ current, api.stored h.file = some current → p.ifMatch = some (api.computeRev current) ∧
        ∃ d ∈ h.reads client, p.ifMatch = some (api.computeRev d) := by
    intro haccepted hwild current hcurrent
    unfold CanvasApi.putTemplate at haccepted
    cases hsave : api.toSave p h.file with
    | error a =>
      simp only [hsave] at haccepted
      exact absurd haccepted (by rw [toSave_error hsave]; exact Bool.false_ne_true)
    | ok template =>
      obtain ⟨-, found, hload, hlock⟩ := toSave_ok hsave
      have hover := (hguard template hsave).2.resolve_left hwild
      obtain ⟨hreadable, hread⟩ := hover.resolve_left (by rw [hcurrent]; exact Option.some_ne_none _)
      obtain rfl := loadTemplate_stored hload (.inr hreadable)
      rw [hcurrent] at hlock
      exact ⟨(lockCheck_passed hlock).resolve_left hwild, hread⟩
  refine ⟨fun ha hw current hc => (hnamed ha hw current hc).1, fun hrefused => ?_, fun ha hw current hc => ?_⟩
  · unfold CanvasApi.putTemplate at hrefused ⊢
    cases hsave : api.toSave p h.file with
    | error a => rfl
    | ok template =>
      simp only [hsave] at hrefused ⊢
      refine ((hguard template hsave).1.resolve_left fun hrenders => ?_).symm
      rw [answer_renders hrenders] at hrefused
      cases hrefused
  · obtain ⟨hrev, d, hd, hsent⟩ := hnamed ha hw current hc
    have htext : canonicalText (.obj d) = canonicalText (.obj current) :=
      hinj (Option.some.inj (hsent.symm.trans hrev))
    exact ⟨d, hd, canonicalText_injective (hinv.fits client d hd) (stored_fits hc) htext⟩

/-- In a run whose calls all meet the guard, every PUT keeps the lock, and the revision
an accepted one returned is the one a GET reports until the next. -/
theorem canvas_lock {api : CanvasApi} (hinj : Function.Injective api.sha256) {file : CanvasFile}
    {calls : List CanvasCall} {h : CanvasHost}
    (run : Run (guarded (CanvasHost.guard api) fun s c t => t = s.step api c) { file := file } calls h) :
    (∀ client p, h.guard api (.put client p) → h.LockKept api client p) ∧
      ∀ rev, h.confirmed = some rev → ∃ template, api.getTemplate true h.file = .ok template rev := by
  have hinv : h.Inv api := by
    refine run.invariant (fun s c t hs hstep => ?_) ⟨nofun, nofun⟩
    obtain ⟨hguard, rfl⟩ := hstep
    exact inv_step hs hguard
  refine ⟨fun client p hguard => lockKept_of_guard hinj hinv hguard, fun rev hrev => ?_⟩
  obtain ⟨template, hfile, hfits, hanswer⟩ := hinv.confirmed rev hrev
  refine ⟨template, ?_⟩
  rw [CanvasApi.getTemplate, hfile, loadTemplate_saved hfits]
  exact hanswer

mutual

/-- The response can show the value: it has a text in UTF-8, and no number without a literal. -/
def PyJson.shown : PyJson → Bool
  | .float (.fin _) => true
  | .float _ => false
  | .str s => s.encodable
  | .arr xs => PyJson.shownItems xs
  | .obj d => PyJson.shownEntries d
  | _ => true

def PyJson.shownItems : List PyJson → Bool
  | [] => true
  | x :: xs => x.shown && PyJson.shownItems xs

def PyJson.shownEntries : List (PyStr × PyJson) → Bool
  | [] => true
  | (k, x) :: d => k.encodable && x.shown && PyJson.shownEntries d

end

def plainApi : CanvasApi := ⟨3, id, PyJson.shown⟩

/-- A template of version 4 without nodes. -/
def emptyCanvas (more : PyDict) : PyDict :=
  (PyStr.of "version", .int 4) :: (PyStr.of "nodes", .arr []) :: more

theorem unpaired_of (s : String) : Unpaired (PyStr.of s) := by
  unfold PyStr.of
  induction s.toList with
  | nil => trivial
  | cons c cs ih => exact ⟨.inr (.inr ⟨c, rfl⟩), fun h => Bool.false_ne_true h.1, ih⟩

theorem fits_emptyCanvas {more : PyDict} (hkeys : ((emptyCanvas more).map Prod.fst).Nodup)
    (hmore : ∀ kv ∈ more, Unpaired kv.1 ∧ Fits 2 kv.2) : Fits 3 (.obj (emptyCanvas more)) := by
  refine ⟨hkeys, fun kv hkv => ?_⟩
  rcases List.mem_cons.mp hkv with rfl | hkv
  · exact ⟨unpaired_of _, (show (Nat.toDigits 10 4).length ≤ maxIntDigits by decide)⟩
  rcases List.mem_cons.mp hkv with rfl | hkv
  · exact ⟨unpaired_of _, nofun⟩
  · exact hmore kv hkv

def zoomed (zoom : ℤ) : PyDict := emptyCanvas [(PyStr.of "zoom", .int zoom)]

theorem fits_zoomed (zoom : ℤ) (h : (Nat.toDigits 10 zoom.natAbs).length ≤ maxIntDigits) :
    Fits 3 (.obj (zoomed zoom)) :=
  fits_emptyCanvas (show ([PyStr.of "version", PyStr.of "nodes", PyStr.of "zoom"] : List PyStr).Nodup by decide)
    fun kv hkv => by
    rw [List.mem_singleton.mp hkv]
    exact ⟨unpaired_of _, h⟩

theorem zoomed_renders (zoom : ℤ) (rev : String) : plainApi.renders (withRev (zoomed zoom) rev) = true := by
  have hset : withRev (zoomed zoom) rev = .obj (zoomed zoom ++ [(PyStr.of "rev", .str (PyStr.of rev))]) := rfl
  show (withRev (zoomed zoom) rev).shown = true
  rw [hset]
  simp [zoomed, emptyCanvas, PyJson.shown, PyJson.shownItems, PyJson.shownEntries]

def zoomPut (zoom : ℤ) (ifMatch : Option String) (readable : Bool) : CanvasPut where
  body := dumpText (.obj (zoomed zoom))
  ifMatch := ifMatch
  readable := readable

theorem zoomPut_saves {zoom : ℤ} (h : (Nat.toDigits 10 zoom.natAbs).length ≤ maxIntDigits)
    {ifMatch : Option String} {readable : Bool} {found : Option PyDict}
    (hload : plainApi.loadTemplate readable file = .ok found) (hlock : plainApi.lockCheck ifMatch found = none) :
    plainApi.toSave (zoomPut zoom ifMatch readable) file = .ok (zoomed zoom) ∧
      plainApi.putTemplate (zoomPut zoom ifMatch readable) file =
        (savedFile (zoomed zoom), .ok (zoomed zoom) (plainApi.computeRev (zoomed zoom))) := by
  have hsave : plainApi.toSave (zoomPut zoom ifMatch readable) file = .ok (zoomed zoom) :=
    @toSave_passed plainApi (zoomPut zoom ifMatch readable) file _ _ (fits_zoomed zoom h) rfl rfl rfl rfl hload hlock
  refine ⟨hsave, ?_⟩
  rw [CanvasApi.putTemplate, hsave]
  exact congrArg _ (answer_renders (zoomed_renders zoom _))

/-- A template with half a surrogate pair, which JSON can escape and UTF-8 cannot hold. -/
def unpairedCanvas : PyDict := emptyCanvas [(PyStr.of "name", .str [.surrogate 0xD800])]

def unpairedPut : CanvasPut where
  body := dumpText (.obj unpairedCanvas)
  ifMatch := none

/-- While the system refuses to open the stored template, a PUT that names no revision
replaces it; and a PUT whose response does not serialize is answered with an error after
its template was saved. -/
theorem canvas_lock_broken :
    (plainApi.stored (savedFile (zoomed 1)) = some (zoomed 1) ∧
      (plainApi.putTemplate (zoomPut 2 none false) (savedFile (zoomed 1))).2.accepted = true ∧
      (plainApi.putTemplate (zoomPut 2 none false) (savedFile (zoomed 1))).1 = savedFile (zoomed 2) ∧
      zoomed 1 ≠ zoomed 2) ∧
    (plainApi.putTemplate unpairedPut .absent).2.accepted = false ∧
      (plainApi.putTemplate unpairedPut .absent).1 ≠ .absent := by
  constructor
  · have hput := (@zoomPut_saves (savedFile (zoomed 1)) 2 (by decide) none false none loadTemplate_unreadable rfl).2
    rw [hput, CanvasApi.stored, loadTemplate_saved (fits_zoomed 1 (by decide))]
    exact ⟨rfl, rfl, rfl, by simp [zoomed, emptyCanvas]⟩
  · have hfits : Fits 3 (.obj unpairedCanvas) := fits_emptyCanvas (by decide) fun kv hkv => by
      rw [List.mem_singleton.mp hkv]
      exact ⟨unpaired_of _, .inl rfl, by decide, trivial⟩
    have hsave : plainApi.toSave unpairedPut .absent = .ok (withoutRev unpairedCanvas) :=
      @toSave_passed plainApi unpairedPut .absent _ none hfits rfl rfl rfl rfl rfl rfl
    have hrenders : ∀ rev, plainApi.renders (withRev (withoutRev unpairedCanvas) rev) = false := fun rev => rfl
    unfold CanvasApi.putTemplate
    simp [hsave, CanvasApi.answer, hrenders, CanvasAnswer.accepted, savedFile]

theorem lockCheck_own (template : PyDict) :
    plainApi.lockCheck (some (plainApi.computeRev template)) (some template) = none := by
  unfold CanvasApi.lockCheck
  dsimp only
  rw [if_neg]
  exact fun h => h.2 rfl

/-- A client that was given the stored template replaces it under its revision. -/
theorem zoomed_replaced {h : CanvasHost} {client : ℕ} {old new : ℤ} (hfile : h.file = savedFile (zoomed old))
    (hread : zoomed old ∈ h.reads client) (hold : (Nat.toDigits 10 old.natAbs).length ≤ maxIntDigits)
    (hnew : (Nat.toDigits 10 new.natAbs).length ≤ maxIntDigits) :
    let c := CanvasCall.put client (zoomPut new (some (plainApi.computeRev (zoomed old))) true)
    h.guard plainApi c ∧ (h.step plainApi c).file = savedFile (zoomed new) ∧
      zoomed new ∈ (h.step plainApi c).reads client ∧
      (h.step plainApi c).confirmed = some (plainApi.computeRev (zoomed new)) := by
  obtain ⟨hsave, hput⟩ := @zoomPut_saves h.file new hnew (some (plainApi.computeRev (zoomed old))) true _
    (hfile ▸ loadTemplate_saved (fits_zoomed old hold)) (lockCheck_own _)
  refine ⟨?_, ?_, ?_, ?_⟩
  · intro template hok
    rw [hsave] at hok
    cases hok
    exact ⟨.inl (zoomed_renders new _), .inr (.inr ⟨rfl, zoomed old, hread, rfl⟩)⟩
  · simp only [CanvasHost.step, hput, CanvasHost.told]
  · simp [CanvasHost.step, hput, CanvasHost.told, CanvasAnswer.given]
  · simp only [CanvasHost.step, hput, CanvasHost.told, CanvasAnswer.rev?, Option.some_or]

def seenHost : CanvasHost :=
  (({ file := .absent } : CanvasHost).step plainApi (.put 0 (zoomPut 1 none true))).step plainApi (.get 1 true)

theorem seenHost_run : Run (guarded (CanvasHost.guard plainApi) fun s c t => t = s.step plainApi c)
    { file := .absent } [.put 0 (zoomPut 1 none true), .get 1 true] seenHost := by
  have hfirst := (@zoomPut_saves .absent 1 (by decide) none true none rfl rfl).1
  have hguard : CanvasHost.guard plainApi { file := .absent } (.put 0 (zoomPut 1 none true)) := by
    intro template h
    rw [hfirst] at h
    cases h
    exact ⟨.inl (zoomed_renders 1 _), .inr (.inl rfl)⟩
  exact (Run.single ⟨hguard, rfl⟩).snoc ⟨trivial, rfl⟩

theorem seenHost_seen : seenHost.file = savedFile (zoomed 1) ∧ zoomed 1 ∈ seenHost.reads 1 := by
  have hput := (@zoomPut_saves .absent 1 (by decide) none true none rfl rfl).2
  have hget : plainApi.getTemplate true (savedFile (zoomed 1)) =
      .ok (zoomed 1) (plainApi.computeRev (zoomed 1)) := by
    rw [CanvasApi.getTemplate, loadTemplate_saved (fits_zoomed 1 (by decide))]
    exact answer_renders (zoomed_renders 1 _)
  unfold seenHost
  simp only [CanvasHost.step, hput, CanvasHost.told, hget, CanvasAnswer.given, Option.toList_some,
    Function.update_self]
  exact ⟨trivial, List.mem_append_left _ (List.mem_singleton_self _)⟩

/-- It replaces it under its revision, and may replace its own under the revision it was
answered. -/
theorem canvas_lock_sample : ∃ h : CanvasHost,
    h.LockKept plainApi 1 (zoomPut 3 (some (plainApi.computeRev (zoomed 2))) true) ∧
      (plainApi.putTemplate (zoomPut 3 (some (plainApi.computeRev (zoomed 2))) true) h.file).2.accepted = true ∧
      ∃ template, plainApi.getTemplate true h.file = .ok template (plainApi.computeRev (zoomed 2)) := by
  obtain ⟨hfile, hread⟩ := seenHost_seen
  obtain ⟨hguard, hfile', hread', hconfirmed⟩ := @zoomed_replaced seenHost 1 1 2 hfile hread (by decide) (by decide)
  have hguard' := (@zoomed_replaced _ 1 2 3 hfile' hread' (by decide) (by decide)).1
  have hrun := seenHost_run.snoc ⟨hguard, rfl⟩
  have hload := @loadTemplate_saved plainApi (zoomed 2) (fits_zoomed 2 (by decide))
  rw [← hfile'] at hload
  have hput := (@zoomPut_saves _ 3 (by decide) _ true _ hload (lockCheck_own (zoomed 2))).2
  obtain ⟨hkept, hreported⟩ := canvas_lock Function.injective_id hrun
  refine ⟨_, hkept 1 _ hguard', ?_, hreported _ hconfirmed⟩
  rw [hput]
  rfl

end OpenPoly
