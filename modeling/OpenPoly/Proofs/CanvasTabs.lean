import OpenPoly.Lib.Run
import OpenPoly.Spec.CanvasTabs

/-! No save of any tab replaces a template the tab has not seen, in any interleaving of
edits, requests lost or late, and conflicts resolved; only `keep_mine` does. -/

namespace OpenPoly

open Transition

variable {τ ρ : Type} {sync : CanvasSync τ ρ} {seen seen' : List τ} {save : Save τ ρ} {s s' : TabSession τ ρ}
  {server server' : Option τ}

def SeenRev (sync : CanvasSync τ ρ) (seen : List τ) (rev : ρ) : Prop := ∃ template ∈ seen, sync.rev template = rev

theorem SeenRev.mono {rev : ρ} (hsub : seen ⊆ seen') (h : SeenRev sync seen rev) : SeenRev sync seen' rev := by
  obtain ⟨template, hmem, hrev⟩ := h
  exact ⟨template, hsub hmem, hrev⟩

/-- A save of a template the tab sent, against a revision it has seen. -/
structure SaveSeen (sync : CanvasSync τ ρ) (seen : List τ) (save : Save τ ρ) : Prop where
  template : save.template ∈ seen
  ifMatch : ∀ rev, save.ifMatch = some rev → SeenRev sync seen rev
  answer : ∀ rev, save.answer = some (.ok rev) → SeenRev sync seen rev

theorem SaveSeen.mono (hsub : seen ⊆ seen') (h : SaveSeen sync seen save) : SaveSeen sync seen' save where
  template := hsub h.template
  ifMatch rev hrev := (h.ifMatch rev hrev).mono hsub
  answer rev hrev := (h.answer rev hrev).mono hsub

/-- Every revision the tab goes by is that of a template it has seen. -/
structure TabSession.Sighted (sync : CanvasSync τ ρ) (s : TabSession τ ρ) : Prop where
  serverRev : ∀ rev, s.tab.serverRev = some rev → SeenRev sync s.seen rev
  saves : ∀ save ∈ s.tab.saves, SaveSeen sync s.seen save
  orphans : ∀ save ∈ s.tab.orphans, SaveSeen sync s.seen save
  forces : ∀ force ∈ s.forces, force.1 ∈ s.seen ∧ ∀ rev, force.2 = some (.ok rev) → SeenRev sync s.seen rev

def Overwrites (sync : CanvasSync τ ρ) (seen : List τ) (server server' : Option τ) : Prop :=
  server' ≠ server → ∀ current, server = some current → SeenRev sync seen (sync.rev current)

theorem overwrites_refl : Overwrites sync seen server server := fun hne => absurd rfl hne

/-- A session whose tab goes on as before, but for what its saves and its revision become. -/
theorem TabSession.Sighted.of (h : s.Sighted sync) (hseen : s.seen ⊆ s'.seen) (hforces : s'.forces = s.forces)
    (hrev : ∀ rev, s'.tab.serverRev = some rev → SeenRev sync s'.seen rev)
    (hsaves : ∀ save ∈ s'.tab.saves, save ∈ s.tab.saves ∨ SaveSeen sync s'.seen save)
    (horphans : ∀ save ∈ s'.tab.orphans, save ∈ s.tab.orphans ∨ SaveSeen sync s'.seen save) :
    s'.Sighted sync where
  serverRev := hrev
  saves save hsave := (hsaves save hsave).elim (fun hold => (h.saves save hold).mono hseen) id
  orphans save hsave := (horphans save hsave).elim (fun hold => (h.orphans save hold).mono hseen) id
  forces force hforce := by
    rw [hforces] at hforce
    obtain ⟨htemplate, hanswer⟩ := h.forces force hforce
    exact ⟨hseen htemplate, fun rev hrev => (hanswer rev hrev).mono hseen⟩

theorem TabSession.Sighted.rev_mono (h : s.Sighted sync) (hseen : s.seen ⊆ seen) :
    ∀ rev, s.tab.serverRev = some rev → SeenRev sync seen rev := fun rev hrev => (h.serverRev rev hrev).mono hseen

section
variable [DecidableEq ρ]

theorem handled_overwrites (tab : CanvasTab τ ρ) (h : SaveSeen sync seen save) (how : Handling) :
    Overwrites sync seen tab.server (tab.handled sync save how).1 := by
  cases how with
  | unauthorized => exact overwrites_refl
  | failed => exact overwrites_refl
  | checked =>
    intro hne current hcurrent
    unfold CanvasTab.handled CanvasSync.put at hne
    dsimp only at hne
    rw [hcurrent] at hne
    cases hmatch : save.ifMatch with
    | none =>
      rw [hmatch] at hne
      exact absurd rfl hne
    | some rev =>
      rw [hmatch] at hne
      dsimp only at hne
      by_cases hrev : rev = sync.rev current
      · exact hrev ▸ h.ifMatch rev hmatch
      · rw [if_neg hrev] at hne
        exact absurd rfl hne

theorem handled_rev {tab : CanvasTab τ ρ} {how : Handling} {rev : ρ}
    (h : (tab.handled sync save how).2 = .ok rev) : sync.rev save.template = rev := by
  cases how with
  | unauthorized => cases h
  | failed => cases h
  | checked =>
    unfold CanvasTab.handled CanvasSync.put at h
    dsimp only at h
    split at h
    · cases h
      rfl
    · cases h
    · cases h
    · split_ifs at h
      · cases h
        rfl

end

theorem answered_rev {tab : CanvasTab τ ρ} {answer : PutAnswer τ ρ} {rev : ρ}
    (h : (tab.answered sync answer).serverRev = some rev) : tab.serverRev = some rev ∨ answer = .ok rev := by
  cases answer with
  | ok rev' =>
    cases h
    exact .inr rfl
  | stale current =>
    cases current with
    | none => exact .inl h
    | some current =>
      simp only [CanvasTab.answered] at h
      cases hparse : sync.parse current <;> rw [hparse] at h <;> exact .inl h
  | required => exact .inl h
  | unauthorized => exact .inl h
  | failed => exact .inl h

theorem answered_saves (sync : CanvasSync τ ρ) (tab : CanvasTab τ ρ) (answer : PutAnswer τ ρ) :
    (tab.answered sync answer).saves = tab.saves ∧ (tab.answered sync answer).orphans = tab.orphans ∧
      (tab.answered sync answer).server = tab.server := by
  cases answer with
  | stale current =>
    cases current with
    | none => exact ⟨rfl, rfl, rfl⟩
    | some current =>
      simp only [CanvasTab.answered]
      cases sync.parse current <;> exact ⟨rfl, rfl, rfl⟩
  | _ => exact ⟨rfl, rfl, rfl⟩

variable {tab : CanvasTab τ ρ}

/-- What a step of the tab alone keeps: its sessions stay sighted, and it replaces on the
server only what was seen. -/
structure TabKeeps (sync : CanvasSync τ ρ) (s : TabSession τ ρ) (server : Option τ) (tab : CanvasTab τ ρ)
    (sights : List τ) : Prop where
  sighted : ∀ theirs, TabSession.Sighted sync { s with tab := tab, theirs := theirs, seen := sights ++ s.seen }
  overwrites : Overwrites sync s.seen server tab.server

theorem edit_keeps (h : s.Sighted sync) (template : τ) :
    TabKeeps sync s server ({ s.tab with server := server, template := template } : CanvasTab τ ρ).scheduleAutosave
      [] := by
  unfold CanvasTab.scheduleAutosave
  split_ifs <;> exact ⟨fun _ => h.of (List.Subset.refl _) rfl h.serverRev (fun _ hsave => .inl hsave)
    fun _ hsave => .inl hsave, overwrites_refl⟩

/-- A tab whose saves and revision stay as they are. -/
theorem quiet_keeps (h : s.Sighted sync) (hserver : tab.server = server) (hrev : tab.serverRev = s.tab.serverRev)
    (hsaves : tab.saves = s.tab.saves) (horphans : tab.orphans = s.tab.orphans) :
    TabKeeps sync s server tab [] := by
  refine ⟨fun _ => h.of (List.Subset.refl _) rfl ?_ ?_ ?_, hserver ▸ overwrites_refl⟩
  · intro rev hrev'
    exact h.serverRev rev (hrev ▸ hrev')
  · intro save hsave
    exact .inl (hsaves ▸ hsave)
  · intro save hsave
    exact .inl (horphans ▸ hsave)

section
variable [DecidableEq ρ]

theorem fire_keeps (h : s.Sighted sync)
    (hstep : ({ s.tab with server := server } : CanvasTab τ ρ).step sync .fire = some tab) :
    TabKeeps sync s server tab [s.tab.template] := by
  simp only [CanvasTab.step] at hstep
  split_ifs at hstep
  cases hstep
  have hseen : s.seen ⊆ [s.tab.template] ++ s.seen := List.subset_append_right _ _
  refine ⟨fun _ => h.of hseen rfl (h.rev_mono hseen) ?_ (fun _ hsave => .inl hsave), overwrites_refl⟩
  intro save hsave
  rcases List.mem_append.mp hsave with hold | hnew
  · exact .inl hold
  · rw [List.mem_singleton.mp hnew]
    exact .inr ⟨List.mem_cons_self, h.rev_mono hseen, nofun⟩

theorem handle_keeps (h : s.Sighted sync) {i : ℕ} {how : Handling}
    (hstep : ({ s.tab with server := server } : CanvasTab τ ρ).step sync (.handle i how) = some tab) :
    TabKeeps sync s server tab [] := by
  simp only [CanvasTab.step] at hstep
  split at hstep
  · next template ifMatch hi =>
    have hsaved := h.saves _ (List.mem_of_getElem? hi)
    cases hstep
    refine ⟨fun _ => h.of (List.Subset.refl _) rfl h.serverRev ?_ (fun _ hsave => .inl hsave),
      handled_overwrites { s.tab with server := server } hsaved how⟩
    intro save hsave
    rcases List.mem_or_eq_of_mem_set hsave with hold | rfl
    · exact .inl hold
    · refine .inr ⟨hsaved.template, hsaved.ifMatch, ?_⟩
      intro rev hanswer
      exact ⟨template, hsaved.template, handled_rev (Option.some.inj hanswer)⟩
  · cases hstep

theorem handleOrphan_keeps (h : s.Sighted sync) {i : ℕ}
    (hstep : ({ s.tab with server := server } : CanvasTab τ ρ).step sync (.handleOrphan i) = some tab) :
    TabKeeps sync s server tab [] := by
  simp only [CanvasTab.step] at hstep
  split at hstep
  · next orphan hi =>
    have horphan := h.orphans _ (List.mem_of_getElem? hi)
    cases hstep
    refine ⟨fun _ => h.of (List.Subset.refl _) rfl h.serverRev (fun _ hsave => .inl hsave) ?_,
      handled_overwrites { s.tab with server := server } horphan .checked⟩
    intro save hsave
    exact .inl (List.mem_of_mem_eraseIdx hsave)
  · cases hstep

theorem answer_keeps (h : s.Sighted sync) {i : ℕ}
    (hstep : ({ s.tab with server := server } : CanvasTab τ ρ).step sync (.answer i) = some tab) :
    TabKeeps sync s server tab [] := by
  simp only [CanvasTab.step] at hstep
  split at hstep
  · next template ifMatch answer hi =>
    have hsaved := h.saves _ (List.mem_of_getElem? hi)
    cases hstep
    obtain ⟨hsaves, horphans, hserver⟩ :=
      answered_saves sync { s.tab with server := server, saves := s.tab.saves.eraseIdx i } answer
    refine ⟨fun _ => h.of (List.Subset.refl _) rfl ?_ ?_ ?_, hserver ▸ overwrites_refl⟩
    · intro rev hrev
      rcases answered_rev hrev with hold | rfl
      · exact h.serverRev rev hold
      · exact hsaved.answer rev rfl
    · intro save hsave
      rw [hsaves] at hsave
      exact .inl (List.mem_of_mem_eraseIdx hsave)
    · intro save hsave
      rw [horphans] at hsave
      exact .inl hsave
  · cases hstep

theorem lose_keeps (h : s.Sighted sync) {i : ℕ}
    (hstep : ({ s.tab with server := server } : CanvasTab τ ρ).step sync (.lose i) = some tab) :
    TabKeeps sync s server tab [] := by
  simp only [CanvasTab.step] at hstep
  split at hstep
  · next lost hi =>
    have hlost := h.saves _ (List.mem_of_getElem? hi)
    cases hstep
    refine ⟨fun _ => h.of (List.Subset.refl _) rfl h.serverRev ?_ ?_, overwrites_refl⟩
    · intro save hsave
      exact .inl (List.mem_of_mem_eraseIdx hsave)
    · intro save hsave
      dsimp only at hsave
      split_ifs at hsave
      · rcases List.mem_append.mp hsave with hold | hnew
        · exact .inl hold
        · rw [List.mem_singleton.mp hnew]
          exact .inr hlost
      · exact .inl hsave
  · cases hstep

theorem answerFetch_keeps (h : s.Sighted sync)
    (hstep : ({ s.tab with server := server } : CanvasTab τ ρ).step sync .answerFetch = some tab) :
    TabKeeps sync s server tab (s.sights sync .answerFetch) := by
  simp only [CanvasTab.step] at hstep
  split at hstep
  · next stored hfetch =>
    replace hfetch : s.tab.fetch = .handled stored := hfetch
    cases hstep
    unfold TabSession.sights
    simp only [hfetch]
    cases stored with
    | none =>
      refine ⟨fun _ => h.of (List.Subset.refl _) rfl nofun (fun _ hsave => .inl hsave) fun _ hsave => .inl hsave,
        overwrites_refl⟩
    | some stored =>
      simp only [CanvasTab.fetched]
      cases sync.parse stored with
      | ok template =>
        have hseen : s.seen ⊆ [stored] ++ s.seen := List.subset_append_right _ _
        refine ⟨fun _ => h.of hseen rfl ?_ (fun _ hsave => .inl hsave) fun _ hsave => .inl hsave, overwrites_refl⟩
        rintro r ⟨rfl⟩
        exact ⟨stored, List.mem_cons_self, rfl⟩
      | incompatible => exact quiet_keeps h rfl rfl rfl rfl
      | rejected => exact quiet_keeps h rfl rfl rfl rfl
      | unreadable => exact quiet_keeps h rfl rfl rfl rfl
  · cases hstep

theorem handleFetch_keeps (h : s.Sighted sync)
    (hstep : ({ s.tab with server := server } : CanvasTab τ ρ).step sync .handleFetch = some tab) :
    TabKeeps sync s server tab [] := by
  simp only [CanvasTab.step] at hstep
  split at hstep <;> cases hstep
  exact quiet_keeps h rfl rfl rfl rfl

theorem loseFetch_keeps (h : s.Sighted sync)
    (hstep : ({ s.tab with server := server } : CanvasTab τ ρ).step sync .loseFetch = some tab) :
    TabKeeps sync s server tab [] := by
  simp only [CanvasTab.step] at hstep
  split at hstep <;> cases hstep
  exact quiet_keeps h rfl rfl rfl rfl

/-- What one step of a tab does to its session. -/
theorem sighted_tabStep {e : TabEvent τ} (h : s.Sighted sync)
    (hstep : s.tabStep sync server e = some (server', s')) :
    s'.Sighted sync ∧ s.seen ⊆ s'.seen ∧ Overwrites sync s.seen server server' := by
  obtain ⟨tab, htab, heq⟩ := Option.map_eq_some_iff.mp hstep
  obtain ⟨rfl, rfl⟩ := Prod.mk.inj heq
  have hkeeps : TabKeeps sync s server tab (s.sights sync e) := by
    cases e with
    | edit template =>
      cases htab
      exact edit_keeps h template
    | fire => exact fire_keeps h htab
    | handle i how => exact handle_keeps h htab
    | handleOrphan i => exact handleOrphan_keeps h htab
    | answer i => exact answer_keeps h htab
    | lose i => exact lose_keeps h htab
    | handleFetch => exact handleFetch_keeps h htab
    | answerFetch => exact answerFetch_keeps h htab
    | loseFetch => exact loseFetch_keeps h htab
  exact ⟨hkeeps.sighted _, List.subset_append_right _ _, hkeeps.overwrites⟩

end

theorem forced_rev {template : τ} {how : Handling} {rev : ρ} (h : (forced sync server template how).2 = .ok rev) :
    sync.rev template = rev := by
  cases how with
  | checked =>
    cases h
    rfl
  | unauthorized => cases h
  | failed => cases h

/-- A session with fewer forced PUTs under way. -/
theorem TabSession.Sighted.settle (h : s.Sighted sync) (hseen : s'.seen = s.seen)
    (hrev : ∀ rev, s'.tab.serverRev = some rev → SeenRev sync s.seen rev) (hsaves : s'.tab.saves = s.tab.saves)
    (horphans : s'.tab.orphans = s.tab.orphans) (hforces : s'.forces ⊆ s.forces) : s'.Sighted sync where
  serverRev rev hrev' := hseen ▸ hrev rev hrev'
  saves save hsave := hseen ▸ h.saves save (hsaves ▸ hsave)
  orphans save hsave := hseen ▸ h.orphans save (horphans ▸ hsave)
  forces force hforce := hseen ▸ h.forces force (hforces hforce)

theorem forceAnswered_settles (h : s.Sighted sync) {answer : PutAnswer τ ρ}
    (hanswer : ∀ rev, answer = .ok rev → SeenRev sync s.seen rev) : (s.forceAnswered answer).Sighted sync := by
  cases answer with
  | ok rev =>
    refine h.settle rfl ?_ rfl rfl (List.Subset.refl _)
    rintro rev' ⟨rfl⟩
    exact hanswer rev rfl
  | _ => exact h.settle rfl h.serverRev rfl rfl (List.Subset.refl _)

theorem takeTheirs_sighted (h : s.Sighted sync) (htake : s.takeTheirs sync = some s') :
    s'.Sighted sync ∧ s.seen ⊆ s'.seen := by
  unfold TabSession.takeTheirs at htake
  split at htake
  · next template stored _ _ =>
    cases htake
    have hseen : s.seen ⊆ stored :: s.seen := List.subset_cons_self _ _
    refine ⟨h.of hseen rfl ?_ (fun _ hsave => .inl hsave) fun _ hsave => .inl hsave, hseen⟩
    rintro rev ⟨rfl⟩
    exact ⟨stored, List.mem_cons_self, rfl⟩
  · cases htake

theorem keepMine_sighted (h : s.Sighted sync) (hkeep : s.keepMine = some s') :
    s'.Sighted sync ∧ s.seen ⊆ s'.seen := by
  unfold TabSession.keepMine at hkeep
  split_ifs at hkeep
  cases hkeep
  have hseen : s.seen ⊆ s.tab.template :: s.seen := List.subset_cons_self _ _
  refine ⟨⟨h.rev_mono hseen, fun save hsave => (h.saves save hsave).mono hseen,
    fun save hsave => (h.orphans save hsave).mono hseen, ?_⟩, hseen⟩
  intro force hforce
  rcases List.mem_append.mp hforce with hold | hnew
  · obtain ⟨htemplate, hanswer⟩ := h.forces force hold
    exact ⟨hseen htemplate, fun rev hrev => (hanswer rev hrev).mono hseen⟩
  · rw [List.mem_singleton.mp hnew]
    exact ⟨List.mem_cons_self, nofun⟩

section
variable [DecidableEq ρ]

theorem handleForce_sighted (h : s.Sighted sync) {i : ℕ} {how : Handling}
    (hstep : s.step sync server (.handleForce i how) = some (server', s')) :
    s'.Sighted sync ∧ s.seen ⊆ s'.seen := by
  simp only [TabSession.step] at hstep
  split at hstep
  · next template hi =>
    have hmem : (template, none) ∈ s.forces := List.mem_of_getElem? hi
    have htemplate : template ∈ s.seen := (h.forces _ hmem).1
    cases hstep
    refine ⟨⟨h.serverRev, h.saves, h.orphans, ?_⟩, List.Subset.refl _⟩
    intro force hforce
    rcases List.mem_or_eq_of_mem_set hforce with hold | rfl
    · exact h.forces force hold
    · exact ⟨htemplate, fun rev hrev => ⟨template, htemplate, forced_rev (Option.some.inj hrev)⟩⟩
  · cases hstep

/-- The answer of a forced PUT leaves the server as it is. -/
theorem answerForce_sighted (h : s.Sighted sync) {i : ℕ}
    (hstep : s.step sync server (.answerForce i) = some (server', s')) :
    s'.Sighted sync ∧ s.seen ⊆ s'.seen ∧ server' = server := by
  simp only [TabSession.step] at hstep
  split at hstep
  · next template answer hi =>
    have hmem : (template, some answer) ∈ s.forces := List.mem_of_getElem? hi
    cases hstep
    have hleft : TabSession.Sighted sync { s with forces := s.forces.eraseIdx i } :=
      h.settle rfl h.serverRev rfl rfl fun _ hforce => List.mem_of_mem_eraseIdx hforce
    refine ⟨forceAnswered_settles hleft ?_, ?_, rfl⟩
    · rintro rev rfl
      exact (h.forces _ hmem).2 rev rfl
    · cases answer <;> exact List.Subset.refl _
  · cases hstep

theorem loseForce_sighted (h : s.Sighted sync) {i : ℕ}
    (hstep : s.step sync server (.loseForce i) = some (server', s')) :
    s'.Sighted sync ∧ s.seen ⊆ s'.seen ∧ server' = server := by
  simp only [TabSession.step] at hstep
  split at hstep
  · cases hstep
    exact ⟨h.settle rfl h.serverRev rfl rfl fun _ hforce => List.mem_of_mem_eraseIdx hforce, List.Subset.refl _, rfl⟩
  · cases hstep

end

/-- What one event does to a session, and to the template it finds on the server. -/
theorem sighted_step [DecidableEq ρ] {e : SessionEvent τ} (h : s.Sighted sync)
    (hstep : s.step sync server e = some (server', s')) :
    s'.Sighted sync ∧ s.seen ⊆ s'.seen ∧ (e.forces = false → Overwrites sync s.seen server server') := by
  cases e with
  | tab e =>
    obtain ⟨hsighted, hseen, hover⟩ := sighted_tabStep h hstep
    exact ⟨hsighted, hseen, fun _ => hover⟩
  | dismiss =>
    simp only [TabSession.step] at hstep
    split_ifs at hstep
    cases hstep
    exact ⟨h.settle rfl h.serverRev rfl rfl (List.Subset.refl _), List.Subset.refl _, fun _ => overwrites_refl⟩
  | takeTheirs =>
    obtain ⟨session, htake, heq⟩ := Option.map_eq_some_iff.mp hstep
    cases heq
    obtain ⟨hsighted, hseen⟩ := takeTheirs_sighted h htake
    exact ⟨hsighted, hseen, fun _ => overwrites_refl⟩
  | keepMine =>
    obtain ⟨session, hkeep, heq⟩ := Option.map_eq_some_iff.mp hstep
    cases heq
    obtain ⟨hsighted, hseen⟩ := keepMine_sighted h hkeep
    exact ⟨hsighted, hseen, fun _ => overwrites_refl⟩
  | handleForce i how =>
    obtain ⟨hsighted, hseen⟩ := handleForce_sighted h hstep
    exact ⟨hsighted, hseen, nofun⟩
  | handleLostForce i =>
    simp only [TabSession.step] at hstep
    split at hstep
    · cases hstep
      exact ⟨h.settle rfl h.serverRev rfl rfl (List.Subset.refl _), List.Subset.refl _, nofun⟩
    · cases hstep
  | answerForce i =>
    obtain ⟨hsighted, hseen, rfl⟩ := answerForce_sighted h hstep
    exact ⟨hsighted, hseen, fun _ => overwrites_refl⟩
  | loseForce i =>
    obtain ⟨hsighted, hseen, rfl⟩ := loseForce_sighted h hstep
    exact ⟨hsighted, hseen, fun _ => overwrites_refl⟩

section
variable [DecidableEq ρ] {w w' : CanvasWorld τ ρ} {k : ℕ} {e : SessionEvent τ}

abbrev TabsRun (sync : CanvasSync τ ρ) (start : CanvasWorld τ ρ) (es : List (ℕ × SessionEvent τ))
    (w : CanvasWorld τ ρ) : Prop :=
  Run (fun w e w' => CanvasWorld.step sync w e.1 e.2 = some w') start es w

theorem world_step (h : w.step sync k e = some w') :
    ∃ session, (w.tabs k).step sync w.server e = some (w'.server, session) ∧
      w'.tabs = Function.update w.tabs k session := by
  obtain ⟨⟨server, session⟩, hstep, rfl⟩ := Option.map_eq_some_iff.mp h
  exact ⟨session, hstep, rfl⟩

theorem sighted_run {server : Option τ} {drafts : ℕ → τ} {es : List (ℕ × SessionEvent τ)}
    (h : TabsRun sync (CanvasWorld.start server drafts) es w) : ∀ k, (w.tabs k).Sighted sync := by
  have hkept : ∀ (w : CanvasWorld τ ρ) (e : ℕ × SessionEvent τ) (w' : CanvasWorld τ ρ),
      (∀ k, (w.tabs k).Sighted sync) → CanvasWorld.step sync w e.1 e.2 = some w' →
      ∀ k, (w'.tabs k).Sighted sync := by
    intro w e w' hw hstep k
    obtain ⟨session, hsession, htabs⟩ := world_step hstep
    rw [htabs]
    by_cases hk : k = e.1
    · subst hk
      rw [Function.update_self]
      exact (sighted_step (hw e.1) hsession).1
    · rw [Function.update_of_ne hk]
      exact hw k
  have hinv := Run.invariant hkept h
  exact hinv fun k => ⟨nofun, List.forall_mem_nil _, List.forall_mem_nil _, List.forall_mem_nil _⟩

/-- Whatever the tabs did before, a save that replaces a template on the server comes from a
tab that has seen the template replaced: it took it over, or sent it. Only the operator's
`keep_mine` is not held to this. The revision is a hash: of the templates the tab has seen,
none but the one replaced has its revision. -/
theorem tabs_overwrite_seen {server : Option τ} {drafts : ℕ → τ}
    {es : List (ℕ × SessionEvent τ)} (hrun : TabsRun sync (CanvasWorld.start server drafts) es w)
    (hstep : w.step sync k e = some w') (hforces : e.forces = false) (hchange : w'.server ≠ w.server)
    {current : τ} (hcurrent : w.server = some current)
    (hhash : ∀ x ∈ (w.tabs k).seen, sync.rev x = sync.rev current → x = current) :
    current ∈ (w.tabs k).seen := by
  obtain ⟨session, hsession, -⟩ := world_step hstep
  obtain ⟨-, -, hover⟩ := sighted_step (sighted_run hrun k) hsession
  obtain ⟨template, hmem, hrev⟩ := hover hforces hchange current hcurrent
  exact hhash template hmem hrev ▸ hmem

/-- Two tabs take over a template, and save. The second is refused, takes over the first's
and edits again. -/
def twoTabs : List (ℕ × SessionEvent ℕ) :=
  [(0, .tab .handleFetch), (0, .tab .answerFetch), (1, .tab .handleFetch), (1, .tab .answerFetch),
    (0, .tab (.edit 2)), (0, .tab .fire), (1, .tab (.edit 3)), (1, .tab .fire), (0, .tab (.handle 0 .checked)),
    (1, .tab (.handle 0 .checked)), (1, .tab (.answer 0)), (1, .takeTheirs), (1, .tab (.edit 4)), (1, .tab .fire)]

def numbered : CanvasSync ℕ ℕ := ⟨id, .ok⟩

def CanvasWorld.after (es : List (ℕ × SessionEvent ℕ)) : Option (CanvasWorld ℕ ℕ) :=
  es.foldlM (fun w e => w.step numbered e.1 e.2) (CanvasWorld.start (some 1) fun _ => 0)

theorem tabs_overwrite_seen_sample : ∃ w w' : CanvasWorld ℕ ℕ,
    TabsRun numbered (CanvasWorld.start (some 1) fun _ => 0) twoTabs w ∧
      w.step numbered 1 (.tab (.handle 0 .checked)) = some w' ∧ w.server = some 2 ∧ 2 ∈ (w.tabs 1).seen := by
  have hsome : (CanvasWorld.after twoTabs).isSome = true := by decide +kernel
  obtain ⟨w, hw⟩ := Option.isSome_iff_exists.mp hsome
  have hlast : ((CanvasWorld.after twoTabs).bind fun w => w.step numbered 1 (.tab (.handle 0 .checked))).isSome =
      true := by decide +kernel
  obtain ⟨w', hw'⟩ := Option.isSome_iff_exists.mp hlast
  have hservers : ((CanvasWorld.after twoTabs).bind CanvasWorld.server,
      ((CanvasWorld.after twoTabs).bind fun w => w.step numbered 1 (.tab (.handle 0 .checked))).bind
        CanvasWorld.server) = (some 2, some 4) := by decide +kernel
  rw [hw'] at hservers
  rw [hw] at hw' hservers
  obtain ⟨hbefore, hafter⟩ := Prod.mk.inj hservers
  replace hbefore : w.server = some 2 := hbefore
  replace hafter : w'.server = some 4 := hafter
  have hrun : TabsRun numbered (CanvasWorld.start (some 1) fun _ => 0) twoTabs w := run_foldlM _ hw
  have hchange : w'.server ≠ w.server := by
    rw [hbefore, hafter]
    decide
  exact ⟨w, w', hrun, hw', hbefore, tabs_overwrite_seen hrun hw' rfl hchange hbefore fun _ _ hrev => hrev⟩

/-- A third tab saves while the second's dialog is open: `keep_mine` replaces what the
second has not seen. -/
theorem keep_mine_overwrites_unseen :
    ((CanvasWorld.after (twoTabs.take 11 ++ [(2, .tab .handleFetch), (2, .tab .answerFetch), (2, .tab (.edit 5)),
        (2, .tab .fire), (2, .tab (.handle 0 .checked)), (1, .keepMine)])).map fun w =>
          (w.server, (w.tabs 1).seen)) = some (some 5, [3, 3, 1]) ∧
      ((CanvasWorld.after (twoTabs.take 11 ++ [(2, .tab .handleFetch), (2, .tab .answerFetch), (2, .tab (.edit 5)),
        (2, .tab .fire), (2, .tab (.handle 0 .checked)), (1, .keepMine), (1, .handleForce 0 .checked)])).bind
          CanvasWorld.server) = some 3 := by
  decide +kernel

end

end OpenPoly
