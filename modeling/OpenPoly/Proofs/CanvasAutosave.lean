import OpenPoly.Lib.Run
import OpenPoly.Proofs.CanvasLock
import OpenPoly.Spec.CanvasAutosave

/-! A tab that alone writes the canvas: when its saves conflict with nothing, and when
"saved" means what it says. -/

namespace OpenPoly

open Transition

variable {τ ρ : Type} {sync : CanvasSync τ ρ} {s s' : CanvasTab τ ρ}

theorem put_accepted [DecidableEq ρ] {stored : Option τ} {ifMatch : Option ρ} (h : ifMatch = stored.map sync.rev) (template : τ) :
    sync.put stored ifMatch template = (some template, .ok (sync.rev template)) := by
  subst h
  cases stored with
  | none => rfl
  | some current => exact if_pos rfl

theorem put_refused [DecidableEq ρ] {stored : Option τ} {ifMatch : Option ρ} (h : ifMatch ≠ stored.map sync.rev) (template : τ) :
    (sync.put stored ifMatch template).1 = stored := by
  cases stored with
  | none =>
    cases ifMatch with
    | none => exact absurd rfl h
    | some rev => rfl
  | some current =>
    cases ifMatch with
    | none => rfl
    | some rev =>
      have hne : rev ≠ sync.rev current := fun heq => h (congrArg some heq)
      show (if rev = sync.rev current then _ else _ : Option τ × PutAnswer τ ρ).1 = _
      rw [if_neg hne]

def fileOf : Option PyDict → CanvasFile
  | none => .absent
  | some template => savedFile template

def PutAnswer.rev? : PutAnswer τ ρ → Option ρ
  | .ok rev => some rev
  | _ => none

theorem loadTemplate_fileOf {api : CanvasApi} {stored : Option PyDict}
    (hstored : ∀ d ∈ stored, Fits api.maxDepth (.obj d)) : api.loadTemplate true (fileOf stored) = .ok stored := by
  cases stored with
  | none => rfl
  | some d => exact loadTemplate_saved (hstored d rfl)

/-- The route does what the tab's server does, where the file can be read and written and
the response serializes. -/
theorem putTemplate_sync {api : CanvasApi} {p : CanvasPut} {template : PyDict} {stored : Option PyDict}
    {parse : PyDict → Adopted PyDict} (hstored : ∀ d ∈ stored, Fits api.maxDepth (.obj d))
    (hdecode : jsonDecode api.maxDepth p.body = .ok (.obj template)) (hshape : templateShaped template = true)
    (hrev : withoutRev template = template) (hauthorized : p.authorized = true) (hreadable : p.readable = true)
    (hsave : p.saveError = none) (hplain : ∀ m ∈ p.ifMatch, m ≠ "*" ∧ m ≠ "")
    (hrenders : api.renders (withRev template (api.computeRev template)) = true) :
    (api.putTemplate p (fileOf stored)).1 =
        fileOf ((⟨api.computeRev, parse⟩ : CanvasSync PyDict String).put stored p.ifMatch template).1 ∧
      (api.putTemplate p (fileOf stored)).2.rev? =
        ((⟨api.computeRev, parse⟩ : CanvasSync PyDict String).put stored p.ifMatch template).2.rev? := by
  have hincoming := incoming_decoded hdecode hauthorized hshape
  rw [hrev] at hincoming
  have hlocked := toSave_locked hincoming (hreadable ▸ loadTemplate_fileOf hstored)
  have haccepted : api.lockCheck p.ifMatch stored = none →
      api.putTemplate p (fileOf stored) = (savedFile template, .ok template (api.computeRev template)) := by
    intro hlock
    rw [CanvasApi.putTemplate, hlocked, CanvasApi.lockedSave, hlock, hsave]
    exact congrArg _ (answer_renders hrenders)
  have hrefused : ∀ a, api.lockCheck p.ifMatch stored = some a →
      (api.putTemplate p (fileOf stored)).1 = fileOf stored ∧ (api.putTemplate p (fileOf stored)).2.rev? = none := by
    intro a hlock
    rw [CanvasApi.putTemplate, hlocked, CanvasApi.lockedSave, hlock]
    exact ⟨rfl, accepted_rev? (lockCheck_refused hlock)⟩
  cases stored with
  | none =>
    cases hmatch : p.ifMatch with
    | none =>
      rw [haccepted (by rw [hmatch]; rfl)]
      exact ⟨rfl, rfl⟩
    | some m =>
      obtain ⟨hwild, hempty⟩ := hplain m hmatch
      exact hrefused _ (by
        rw [hmatch]
        simp only [CanvasApi.lockCheck, Option.all_some, hwild, hempty, or_self, decide_false, Bool.false_eq_true,
          if_false]
        rfl)
  | some current =>
    cases hmatch : p.ifMatch with
    | none => exact hrefused _ (by rw [hmatch]; rfl)
    | some m =>
      obtain ⟨hwild, -⟩ := hplain m hmatch
      by_cases hm : m = api.computeRev current
      · rw [haccepted (by rw [hmatch]; simp [CanvasApi.lockCheck, hm]),
          put_accepted (show some m = (some current).map api.computeRev from congrArg some hm)]
        exact ⟨rfl, rfl⟩
      · have hput : (⟨api.computeRev, parse⟩ : CanvasSync PyDict String).put (some current) (some m) template =
            (some current, .stale (some current)) := if_neg hm
        rw [hput]
        exact hrefused _ (by
          rw [hmatch]
          simp only [CanvasApi.lockCheck, ne_eq, hwild, hm, not_false_iff, and_self, if_true]
          rfl)

/-- The timer fires only when no save is under way, and without a revision only where no
template is stored; no accepted save is lost; the bootstrap's answer comes with no save
under way, while the server still holds what was read, and with no edit pending it is a
template the frontend takes over as it is. -/
def CanvasTab.guard (sync : CanvasSync τ ρ) (s : CanvasTab τ ρ) : TabEvent τ → Prop
  | .fire => s.saves = [] ∧ (s.serverRev = none → s.server = none)
  | .lose i => ∀ save ∈ s.saves[i]?, ∀ rev, save.answer ≠ some (.ok rev)
  | .handleOrphan i => ∀ save ∈ s.orphans[i]?, save.ifMatch ≠ s.server.map sync.rev
  | .answerFetch => ∀ stored, s.fetch = .handled stored → stored = s.server ∧ s.saves = [] ∧
      (s.status = .saved → s.timer = false → ∃ template, stored = some template ∧ sync.parse template = .ok template)
  | _ => True

/-- The revision the tab knows is the server's, if it knows one. -/
def CanvasTab.Knows (sync : CanvasSync τ ρ) (s : CanvasTab τ ρ) : Prop :=
  s.serverRev = none ∨ s.serverRev = s.server.map sync.rev

/-- No save is under way, and "saved" is true. -/
def CanvasTab.Idle (sync : CanvasSync τ ρ) (s : CanvasTab τ ρ) : Prop :=
  s.saves = [] ∧ s.Knows sync ∧
    (s.fetch = .over → s.status = .saved → s.timer = false → s.server = some s.template)

/-- How a save under way stands to the server. -/
def CanvasTab.Backs (sync : CanvasSync τ ρ) (s : CanvasTab τ ρ) (save : Save τ ρ) : Prop :=
  (save.answer = none ∧ save.ifMatch = s.server.map sync.rev ∧ s.Knows sync) ∨
    (save.answer = some (.ok (sync.rev save.template)) ∧ s.server = some save.template) ∨
    ((save.answer = some .unauthorized ∨ save.answer = some .failed) ∧ s.Knows sync)

/-- One save is under way, of what the tab shows unless an edit is pending. -/
def CanvasTab.Saving (sync : CanvasSync τ ρ) (s : CanvasTab τ ρ) : Prop :=
  ∃ save, s.saves = [save] ∧ (s.timer = false → s.template = save.template) ∧ s.Backs sync save

structure CanvasTab.Inv (sync : CanvasSync τ ρ) (s : CanvasTab τ ρ) : Prop where
  calm : s.conflict = none
  saves : s.Idle sync ∨ s.Saving sync

/-- An event about a save is about the one under way. -/
theorem CanvasTab.Inv.save (h : s.Inv sync) {i : ℕ} {save : Save τ ρ} (hi : s.saves[i]? = some save) :
    i = 0 ∧ s.saves = [save] ∧ (s.timer = false → s.template = save.template) ∧ s.Backs sync save := by
  rcases h.saves with ⟨hnone, -⟩ | ⟨save', hone, htemplate, hbacks⟩
  · rw [hnone] at hi
    cases hi
  · rw [hone] at hi
    cases i with
    | zero =>
      obtain rfl := Option.some.inj hi
      exact ⟨rfl, hone, htemplate, hbacks⟩
    | succ i => cases hi

theorem CanvasTab.Inv.idle (h : s.Inv sync) (hnone : s.saves = []) : s.Idle sync := by
  rcases h.saves with hidle | ⟨save, hone, -⟩
  · exact hidle
  · rw [hnone] at hone
    cases hone

theorem inv_edit (h : s.Inv sync) (template : τ) :
    ({ s with template := template } : CanvasTab τ ρ).scheduleAutosave.Inv sync := by
  have hedit : ({ s with template := template } : CanvasTab τ ρ).scheduleAutosave =
      { s with template := template, status := .saving, timer := true } := by
    simp [CanvasTab.scheduleAutosave, h.calm]
  rw [hedit]
  refine ⟨h.calm, h.saves.imp (fun hidle => ?_) fun hsaving => ?_⟩
  · exact ⟨hidle.1, hidle.2.1, fun _ _ ht => absurd ht (by simp)⟩
  · obtain ⟨save, hone, -, hbacks⟩ := hsaving
    exact ⟨save, hone, fun ht => absurd ht (by simp), hbacks⟩

theorem inv_fire (h : s.Inv sync) (hnone : s.saves = []) (hfirst : s.serverRev = none → s.server = none) :
    ({ s with timer := false, saves := s.saves ++ [⟨s.template, s.serverRev, none⟩] } : CanvasTab τ ρ).Inv sync := by
  have hknows : s.Knows sync := (h.idle hnone).2.1
  have hrev : s.serverRev = s.server.map sync.rev := by
    rcases hknows with hunknown | hrev
    · rw [hunknown, hfirst hunknown]
      rfl
    · exact hrev
  exact ⟨h.calm, .inr ⟨_, by rw [hnone]; rfl, fun _ => rfl, .inl ⟨rfl, hrev, hknows⟩⟩⟩

theorem inv_handle [DecidableEq ρ] (h : s.Inv sync) {i : ℕ} {template : τ} {ifMatch : Option ρ}
    (hi : s.saves[i]? = some ⟨template, ifMatch, none⟩) (how : Handling) :
    ({ s with
        server := (s.handled sync ⟨template, ifMatch, none⟩ how).1
        saves := s.saves.set i ⟨template, ifMatch, some (s.handled sync ⟨template, ifMatch, none⟩ how).2⟩ } :
      CanvasTab τ ρ).Inv sync := by
  obtain ⟨rfl, hone, htemplate, hbacks⟩ := h.save hi
  rw [hone]
  refine ⟨h.calm, .inr ⟨_, rfl, htemplate, ?_⟩⟩
  rcases hbacks with ⟨-, hmatch, hknows⟩ | ⟨hok, -⟩ | ⟨hno, -⟩
  · cases how with
    | checked =>
      have hput : s.handled sync ⟨template, ifMatch, none⟩ .checked = (some template, .ok (sync.rev template)) :=
        put_accepted hmatch template
      rw [hput]
      exact .inr (.inl ⟨rfl, rfl⟩)
    | unauthorized => exact .inr (.inr ⟨.inl rfl, hknows⟩)
    | failed => exact .inr (.inr ⟨.inr rfl, hknows⟩)
  · cases hok
  · rcases hno with hno | hno <;> cases hno

theorem inv_answer (h : s.Inv sync) {i : ℕ} {template : τ} {ifMatch : Option ρ} {answer : PutAnswer τ ρ}
    (hi : s.saves[i]? = some ⟨template, ifMatch, some answer⟩) :
    (({ s with saves := s.saves.eraseIdx i } : CanvasTab τ ρ).answered sync answer).Inv sync := by
  obtain ⟨rfl, hone, htemplate, hbacks⟩ := h.save hi
  have herased : s.saves.eraseIdx 0 = [] := by rw [hone]; rfl
  rw [herased]
  rcases hbacks with ⟨hnone, -⟩ | ⟨hok, hserver⟩ | ⟨hno, hknows⟩
  · cases hnone
  · obtain rfl : answer = .ok (sync.rev template) := Option.some.inj hok
    refine ⟨h.calm, .inl ⟨rfl, .inr ?_, fun _ _ ht => ?_⟩⟩
    · show some (sync.rev template) = s.server.map sync.rev
      rw [hserver]
      rfl
    · show s.server = some s.template
      rw [hserver, htemplate ht]
  · rcases hno with hno | hno
    · obtain rfl : answer = .unauthorized := Option.some.inj hno
      exact ⟨h.calm, .inl ⟨rfl, hknows, fun _ hs => by cases hs⟩⟩
    · obtain rfl : answer = .failed := Option.some.inj hno
      exact ⟨h.calm, .inl ⟨rfl, hknows, fun _ hs => by cases hs⟩⟩

theorem inv_lose (h : s.Inv sync) {i : ℕ} {save : Save τ ρ} (hi : s.saves[i]? = some save)
    (hkept : ∀ rev, save.answer ≠ some (.ok rev)) (orphans : List (Save τ ρ)) :
    ({ s with saves := s.saves.eraseIdx i, orphans := orphans, status := .offline } : CanvasTab τ ρ).Inv sync := by
  obtain ⟨rfl, hone, -, hbacks⟩ := h.save hi
  have herased : s.saves.eraseIdx 0 = [] := by rw [hone]; rfl
  rw [herased]
  have hknows : s.Knows sync := by
    rcases hbacks with ⟨-, -, hknows⟩ | ⟨hok, -⟩ | ⟨-, hknows⟩
    · exact hknows
    · exact absurd hok (hkept _)
    · exact hknows
  exact ⟨h.calm, .inl ⟨rfl, hknows, fun _ hs => by cases hs⟩⟩

theorem inv_fetched (h : s.Inv sync) {stored : Option τ} (hstored : stored = s.server) (hnone : s.saves = [])
    (hquiet : s.status = .saved → s.timer = false →
      ∃ template, stored = some template ∧ sync.parse template = .ok template) : (s.fetched sync stored).Inv sync := by
  have hknows : s.Knows sync := (h.idle hnone).2.1
  unfold CanvasTab.fetched
  cases stored with
  | none =>
    refine ⟨h.calm, .inl ⟨hnone, .inl rfl, fun _ hs ht => ?_⟩⟩
    obtain ⟨template, heq, -⟩ := hquiet hs ht
    cases heq
  | some stored =>
    dsimp only
    have hkept : ∀ {a : Adopted τ}, s.status = .saved → s.timer = false → (∀ t, a ≠ .ok t) → sync.parse stored ≠ a := by
      rintro a hs ht hne rfl
      obtain ⟨template, heq, hsame⟩ := hquiet hs ht
      rw [← Option.some.inj heq] at hsame
      exact hne _ hsame
    split
    · rename_i template hparse
      refine ⟨h.calm, .inl ⟨hnone, .inr ?_, fun _ hs ht => ?_⟩⟩
      · show some (sync.rev stored) = s.server.map sync.rev
        rw [← hstored]
        rfl
      · obtain ⟨template', heq, hsame⟩ := hquiet hs ht
        obtain rfl := Option.some.inj heq
        rw [hparse] at hsame
        show s.server = some template
        rw [← hstored, Adopted.ok.inj hsame]
    · rename_i hparse
      refine ⟨h.calm, .inl ⟨hnone, hknows, fun _ hs ht => absurd hparse (hkept hs ht nofun)⟩⟩
    · rename_i hparse
      refine ⟨h.calm, .inl ⟨hnone, hknows, fun _ hs ht => absurd hparse (hkept hs ht nofun)⟩⟩
    · exact ⟨h.calm, .inl ⟨hnone, hknows, fun _ hs => by cases hs⟩⟩

/-- One guarded event. -/
theorem tabInv_step [DecidableEq ρ] {e : TabEvent τ} (h : s.Inv sync) (hguard : s.guard sync e) (hstep : s.step sync e = some s') :
    s'.Inv sync := by
  cases e with
  | edit template =>
    rw [← Option.some.inj hstep]
    exact inv_edit h template
  | fire =>
    simp only [CanvasTab.step, Option.ite_none_right_eq_some, Option.some.injEq] at hstep
    rw [← hstep.2]
    exact inv_fire h hguard.1 hguard.2
  | handle i how =>
    simp only [CanvasTab.step] at hstep
    split at hstep
    · rename_i hi
      rw [← Option.some.inj hstep]
      exact inv_handle h hi how
    · cases hstep
  | handleOrphan i =>
    simp only [CanvasTab.step] at hstep
    split at hstep
    · rename_i save hi
      have hsame : (s.handled sync save .checked).1 = s.server := put_refused (hguard save hi) save.template
      rw [← Option.some.inj hstep, hsame]
      exact ⟨h.calm, h.saves⟩
    · cases hstep
  | answer i =>
    simp only [CanvasTab.step] at hstep
    split at hstep
    · rename_i hi
      rw [← Option.some.inj hstep]
      exact inv_answer h hi
    · cases hstep
  | lose i =>
    simp only [CanvasTab.step] at hstep
    split at hstep
    · rename_i hi
      rw [← Option.some.inj hstep]
      exact inv_lose h hi (hguard _ hi) _
    · cases hstep
  | handleFetch =>
    simp only [CanvasTab.step] at hstep
    split at hstep
    · rw [← Option.some.inj hstep]
      refine ⟨h.calm, h.saves.imp (fun hidle => ⟨hidle.1, hidle.2.1, fun hover => ?_⟩) id⟩
      cases hover
    · cases hstep
  | answerFetch =>
    simp only [CanvasTab.step] at hstep
    split at hstep
    · rename_i stored hfetch
      obtain ⟨hstored, hnone, hquiet⟩ := hguard stored hfetch
      rw [← Option.some.inj hstep]
      exact inv_fetched h hstored hnone hquiet
    · cases hstep
  | loseFetch =>
    simp only [CanvasTab.step] at hstep
    split at hstep
    · cases hstep
    · rw [← Option.some.inj hstep]
      exact ⟨h.calm, h.saves.imp (fun hidle => ⟨hidle.1, hidle.2.1, fun _ hs => by cases hs⟩) id⟩

/-- In a run whose events all meet the guard, the tab that alone writes comes to no
conflict, and where nothing is pending "saved" is true. -/
theorem autosave_keeps [DecidableEq ρ] (sync : CanvasSync τ ρ) {server : Option τ} {template : τ} {events : List (TabEvent τ)}
    {s : CanvasTab τ ρ}
    (run : Run (guarded (CanvasTab.guard sync) fun s e s' => s.step sync e = some s')
      { server := server, template := template } events s) :
    s.conflict = none ∧
      (s.status = .saved → s.timer = false → s.saves = [] → s.fetch = .over → s.server = some s.template) := by
  have hinv : s.Inv sync := by
    refine run.invariant (fun s e s' hs hstep => tabInv_step hs hstep.1 hstep.2) ⟨rfl, .inl ⟨rfl, .inl rfl, fun h => ?_⟩⟩
    cases h
  exact ⟨hinv.calm, fun hstatus htimer hnone hover => (hinv.idle hnone).2.2 hover hstatus htimer⟩

def plainSync : CanvasSync ℕ ℕ := ⟨id, .ok⟩

/-- The stored template is taken over, edited and saved. -/
theorem autosave_keeps_sample :
    ∃ s : CanvasTab ℕ ℕ, s.conflict = none ∧ s.server = some 2 ∧ s.server = some s.template := by
  let s₀ : CanvasTab ℕ ℕ := { server := some 1, template := 0 }
  let s₁ : CanvasTab ℕ ℕ := { s₀ with fetch := .handled (some 1) }
  let s₂ : CanvasTab ℕ ℕ := { s₀ with fetch := .over, template := 1, serverRev := some 1 }
  let s₃ : CanvasTab ℕ ℕ := { s₂ with template := 2, status := .saving, timer := true }
  let s₄ : CanvasTab ℕ ℕ := { s₃ with timer := false, saves := [⟨2, some 1, none⟩] }
  let s₅ : CanvasTab ℕ ℕ := { s₄ with server := some 2, saves := [⟨2, some 1, some (.ok 2)⟩] }
  let s₆ : CanvasTab ℕ ℕ := { s₅ with saves := [], status := .saved, serverRev := some 2 }
  have hfetch : CanvasTab.guard plainSync s₁ .answerFetch := by
    intro stored h
    obtain rfl : some 1 = stored := Fetch.handled.inj h
    exact ⟨rfl, rfl, fun _ _ => ⟨1, rfl, rfl⟩⟩
  have hfire : CanvasTab.guard plainSync s₃ .fire := ⟨rfl, fun h => by cases h⟩
  let Steps : List (TabEvent ℕ) → CanvasTab ℕ ℕ → Prop :=
    Run (guarded (CanvasTab.guard plainSync) fun s e s' => s.step plainSync e = some s') s₀
  have h₁ : Steps [.handleFetch] s₁ := .snoc .nil ⟨trivial, rfl⟩
  have h₂ : Steps [.handleFetch, .answerFetch] s₂ := h₁.snoc ⟨hfetch, rfl⟩
  have h₃ : Steps [.handleFetch, .answerFetch, .edit 2] s₃ := h₂.snoc ⟨trivial, rfl⟩
  have h₄ : Steps [.handleFetch, .answerFetch, .edit 2, .fire] s₄ := h₃.snoc ⟨hfire, rfl⟩
  have h₅ : Steps [.handleFetch, .answerFetch, .edit 2, .fire, .handle 0 .checked] s₅ := h₄.snoc ⟨trivial, rfl⟩
  have h₆ : Steps [.handleFetch, .answerFetch, .edit 2, .fire, .handle 0 .checked, .answer 0] s₆ :=
    h₅.snoc ⟨trivial, rfl⟩
  have hkeeps := autosave_keeps plainSync h₆
  exact ⟨s₆, hkeeps.1, rfl, hkeeps.2 rfl rfl rfl rfl⟩

/-- Two saves share a revision: the second meets the first's template. -/
theorem overlapping_saves_conflict :
    ((([.handleFetch, .answerFetch, .edit 2, .fire, .edit 3, .fire, .handle 0 .checked, .handle 1 .checked, .answer 0,
      .answer 0] : List (TabEvent ℕ)).foldlM (CanvasTab.step plainSync)
        ({ server := some 1, template := 0 } : CanvasTab ℕ ℕ)).bind CanvasTab.conflict) = some 2 := by
  decide +kernel

end OpenPoly
