import OpenPoly.Proofs.Poller

/-! The hook over the poller: its poller runs as `schedulePoll` does, and only the call
that started last writes its state, never one of an effect that was cleaned up. -/

namespace OpenPoly

open Transition

variable {T : Type} {e e' : PollEffect T} {ev : EffectEvent T} {w : Option (Except String T)}

def PollEffect.Numbered (e : PollEffect T) : Prop :=
  e.latestRun = e.calls.length ∧ ∀ (i : ℕ) (c : Refresh T), e.calls[i]? = some c → c.run = i + 1

/-- The poller is one `schedulePoll` has come to after the first kick. -/
def PollEffect.Polls (e : PollEffect T) : Prop :=
  ∃ es, Run (fun p e q => p.step e = some q) {} (PollEvent.kick true true :: es) e.poller

@[simp] theorem settle_run (outcome : Except String T) (c : Refresh T) : (c.settle outcome).run = c.run := rfl

@[simp] theorem onAbort_run (k : ℕ) (reason : String) (c : Refresh T) : (c.onAbort k reason).run = c.run := by
  unfold Refresh.onAbort
  split_ifs <;> rfl

/-- Calls changed in place keep their numbers. -/
theorem numbered_map {calls : List (Refresh T)} (h : e.Numbered) (hlatest : e'.latestRun = e.latestRun)
    (hcalls : e'.calls = calls) (hlen : calls.length = e.calls.length)
    (hrun : ∀ (i : ℕ) (c : Refresh T), calls[i]? = some c → ∃ old, e.calls[i]? = some old ∧ c.run = old.run) :
    e'.Numbered := by
  subst hcalls
  refine ⟨by rw [hlatest, h.1, hlen], ?_⟩
  intro i c hc
  obtain ⟨old, hold, heq⟩ := hrun i c hc
  rw [heq]
  exact h.2 i old hold

theorem modify_kept {f : Refresh T → Refresh T} (hf : ∀ c, (f c).run = c.run) (calls : List (Refresh T)) (k : ℕ) :
    ∀ (i : ℕ) (c : Refresh T), (calls.modify k f)[i]? = some c → ∃ old, calls[i]? = some old ∧ c.run = old.run := by
  intro i c hc
  obtain ⟨old, hold, ⟨-, rfl⟩ | ⟨-, rfl⟩⟩ := Indexed.of_modify hc
  · exact ⟨old, hold, hf old⟩
  · exact ⟨_, hold, rfl⟩

theorem abort_length (e : PollEffect T) (k : ℕ) (reason : String) :
    (e.abort k reason).length = e.calls.length := by
  unfold PollEffect.abort
  split_ifs
  · exact List.length_map _
  · rfl

theorem abort_kept (e : PollEffect T) (k : ℕ) (reason : String) :
    ∀ (i : ℕ) (c : Refresh T), (e.abort k reason)[i]? = some c → ∃ old, e.calls[i]? = some old ∧ c.run = old.run := by
  intro i c hc
  unfold PollEffect.abort at hc
  split_ifs at hc
  · rw [List.getElem?_map] at hc
    obtain ⟨old, hold, rfl⟩ := Option.map_eq_some_iff.mp hc
    exact ⟨old, hold, onAbort_run k reason old⟩
  · exact ⟨c, hc, rfl⟩

theorem numbered_append (h : e.Numbered) {c : Refresh T} (hrun : c.run = e.latestRun + 1)
    (hlatest : e'.latestRun = e.latestRun + 1) (hcalls : e'.calls = e.calls ++ [c]) : e'.Numbered := by
  refine ⟨by rw [hlatest, hcalls, h.1, List.length_append]; rfl, ?_⟩
  intro i d hd
  rw [hcalls] at hd
  rcases Indexed.of_snoc hd with hd | ⟨hi, rfl⟩
  · exact h.2 i d hd
  · rw [hrun, h.1, hi]

/-- What a step makes of an effect. -/
structure EffectStepped (e e' : PollEffect T) (ev : EffectEvent T) (w : Option (Except String T)) : Prop where
  poller : e'.poller = e.poller ∨ ∃ pe, e.poller.step pe = some e'.poller
  cancelled : e'.cancelled = e.cancelled
  numbered : e.Numbered → e'.Numbered
  /-- Only the call that started last writes, and none after the cleanup. -/
  writes : w ≠ none → e.Numbered → e.cancelled = false ∧ ∃ i, ev = .resumed i ∧ i + 1 = e.calls.length

theorem effect_stepped (h : e.step ev = some (e', w)) : EffectStepped e e' ev w := by
  cases ev with
  | visibilityChange visible =>
    obtain ⟨-, heq⟩ := Option.ite_none_left_eq_some.mp h
    cases heq
    refine ⟨?_, rfl, fun hn => hn, fun hw => absurd rfl hw⟩
    cases visible with
    | false => exact .inl rfl
    | true => exact .inr ⟨.kick false true, rfl⟩
  | fired timer visible =>
    obtain ⟨p, hp, heq⟩ := Option.map_eq_some_iff.mp h
    cases heq
    exact ⟨.inr ⟨_, hp⟩, rfl, fun hn => hn, fun hw => absurd rfl hw⟩
  | begun k =>
    obtain ⟨p, hp, heq⟩ := Option.map_eq_some_iff.mp h
    cases heq
    exact ⟨.inr ⟨_, hp⟩, rfl, fun hn => numbered_append hn rfl rfl rfl, fun hw => absurd rfl hw⟩
  | fetched i outcome =>
    cases h
    exact ⟨.inl rfl, rfl,
      fun hn => numbered_map hn rfl rfl (List.length_modify ..) (modify_kept (settle_run outcome) e.calls i),
      fun hw => absurd rfl hw⟩
  | expired k reason =>
    obtain ⟨p, hp, heq⟩ := Option.map_eq_some_iff.mp h
    cases heq
    exact ⟨.inr ⟨_, hp⟩, rfl,
      fun hn => numbered_map hn rfl rfl (abort_length e k reason) (abort_kept e k reason),
      fun hw => absurd rfl hw⟩
  | resumed i =>
    unfold PollEffect.step at h
    dsimp only at h
    split at h
    · rename_i run signal outcome hc
      obtain ⟨p, hp, heq⟩ := Option.map_eq_some_iff.mp h
      cases heq
      refine ⟨.inr ⟨_, hp⟩, rfl, fun hn => numbered_map hn rfl rfl (List.length_modify ..)
        (modify_kept (by exact fun _ => rfl) e.calls i), ?_⟩
      intro hw hn
      have hstale : e.cancelled = false ∧ run = e.latestRun := by simpa using hw
      have hrun : run = i + 1 := hn.2 i _ hc
      exact ⟨hstale.1, i, rfl, by rw [← hrun, hstale.2, hn.1]⟩
    · cases h
  | finished k =>
    obtain ⟨p, hp, heq⟩ := Option.map_eq_some_iff.mp h
    cases heq
    exact ⟨.inr ⟨_, hp⟩, rfl, fun hn => hn, fun hw => absurd rfl hw⟩

theorem EffectStepped.polls (h : EffectStepped e e' ev w) (hp : e.Polls) : e'.Polls := by
  obtain ⟨es, hrun⟩ := hp
  rcases h.poller with heq | ⟨pe, hstep⟩
  · exact ⟨es, heq ▸ hrun⟩
  · exact ⟨es ++ [pe], by simpa using hrun.snoc hstep⟩

theorem start_polls : (PollEffect.start : PollEffect T).Polls := ⟨[], Run.single rfl⟩

theorem start_numbered : (PollEffect.start : PollEffect T).Numbered := ⟨rfl, by simp [PollEffect.start]⟩

theorem cleanup_polls (h : e.Polls) (reason : String) : (e.cleanup reason).Polls := by
  obtain ⟨es, hrun⟩ := h
  have hstop : e.poller.step .stop = some (e.cleanup reason).poller := rfl
  exact ⟨es ++ [.stop], by simpa using hrun.snoc hstop⟩

theorem cleanup_numbered (h : e.Numbered) (reason : String) : (e.cleanup reason).Numbered := by
  cases hc : e.poller.current with
  | none => simpa [PollEffect.cleanup, PollEffect.Numbered, hc] using h
  | some k =>
    exact numbered_map h rfl (by simp [PollEffect.cleanup, hc]) (abort_length e k reason) (abort_kept e k reason)

variable {s t : UsePoll T} {he : HookEvent T} {es : List (HookEvent T)}

/-- The effects, newest first: all but the newest of a mounted hook are cleaned up. -/
structure UsePoll.Good (s : UsePoll T) : Prop where
  effects : ∀ e ∈ s.effects, e.Polls ∧ e.Numbered
  older : ∀ e ∈ s.effects.tail, e.cancelled = true
  unmounted : s.mounted = false → ∀ e ∈ s.effects, e.cancelled = true

theorem mount_good : (UsePoll.mount : UsePoll T).Good where
  effects := by
    intro e he
    cases List.mem_singleton.mp he
    exact ⟨start_polls, start_numbered⟩
  older := by
    intro e he
    cases he
  unmounted := nofun

/-- An effect that goes on is the newest of a mounted hook. -/
theorem UsePoll.Good.newest (h : s.Good) {j : ℕ} (hj : s.effects[j]? = some e) (hc : e.cancelled = false) :
    j = 0 ∧ s.mounted = true := by
  constructor
  · cases j with
    | zero => rfl
    | succ j =>
      have htail : s.effects.tail[j]? = some e := by rwa [List.getElem?_tail]
      have hold := h.older e (List.mem_of_getElem? htail)
      rw [hc] at hold
      cases hold
  · by_contra hm
    have hold := h.unmounted (by simpa using hm) e (List.mem_of_getElem? hj)
    rw [hc] at hold
    cases hold

theorem apply_effects (s : UsePoll T) (j : ℕ) (e : PollEffect T) (w : Option (Except String T)) :
    (s.apply j e w).effects = s.effects.set j e := by
  cases w <;> rfl

theorem apply_mounted (s : UsePoll T) (j : ℕ) (e : PollEffect T) (w : Option (Except String T)) :
    (s.apply j e w).mounted = s.mounted := by
  cases w <;> rfl

theorem apply_good (h : s.Good) {j : ℕ} (hj : s.effects[j]? = some e) (hstep : EffectStepped e e' ev w) :
    (s.apply j e' w).Good where
  effects := by
    intro x hx
    rw [apply_effects] at hx
    have hold := h.effects e (List.mem_of_getElem? hj)
    rcases List.mem_or_eq_of_mem_set hx with hx | rfl
    · exact h.effects x hx
    · exact ⟨hstep.polls hold.1, hstep.numbered hold.2⟩
  older := by
    intro x hx
    rw [apply_effects] at hx
    obtain ⟨newest, rest, heq⟩ := List.exists_cons_of_ne_nil (List.ne_nil_of_mem (List.mem_of_getElem? hj))
    have hrest : ∀ y ∈ rest, y.cancelled = true := by simpa [heq] using h.older
    rw [heq] at hj hx
    cases j with
    | zero => exact hrest x hx
    | succ j =>
      rcases List.mem_or_eq_of_mem_set hx with hx | rfl
      · exact hrest x hx
      · exact hstep.cancelled.trans (hrest e (List.mem_of_getElem? hj))
  unmounted := by
    intro hm x hx
    rw [apply_mounted] at hm
    rw [apply_effects] at hx
    rcases List.mem_or_eq_of_mem_set hx with hx | rfl
    · exact h.unmounted hm x hx
    · exact hstep.cancelled.trans (h.unmounted hm e (List.mem_of_getElem? hj))

/-- After the newest effect's cleanup, every effect is cancelled. -/
theorem cleanup_effects (h : s.Good) (reason : String) :
    ∀ e ∈ s.effects.modifyHead (PollEffect.cleanup reason), (e.Polls ∧ e.Numbered) ∧ e.cancelled = true := by
  intro x hx
  cases heq : s.effects with
  | nil =>
    rw [heq] at hx
    cases hx
  | cons e rest =>
    rw [heq] at hx
    rcases List.mem_cons.mp hx with rfl | hx
    · have hold := h.effects e (heq ▸ List.mem_cons_self)
      exact ⟨⟨cleanup_polls hold.1 reason, cleanup_numbered hold.2 reason⟩, rfl⟩
    · exact ⟨h.effects x (heq ▸ List.mem_cons_of_mem e hx), h.older x (by rw [heq]; exact hx)⟩

theorem hook_good (h : s.Good) (hstep : s.step he = some t) : t.Good := by
  cases he with
  | effect j ev =>
    obtain ⟨⟨e', w⟩, hbind, rfl⟩ := Option.map_eq_some_iff.mp hstep
    obtain ⟨e, hj, heff⟩ := Option.bind_eq_some_iff.mp hbind
    exact apply_good h hj (effect_stepped heff)
  | rerun reason =>
    obtain ⟨hm, heq⟩ := Option.ite_none_right_eq_some.mp hstep
    cases heq
    have hclean := cleanup_effects h reason
    refine ⟨?_, fun e he => (hclean e he).2, fun hm' => ?_⟩
    · intro e he
      rcases List.mem_cons.mp he with rfl | he
      · exact ⟨start_polls, start_numbered⟩
      · exact (hclean e he).1
    · rw [hm] at hm'
      cases hm'
  | unmount reason =>
    obtain ⟨-, heq⟩ := Option.ite_none_right_eq_some.mp hstep
    cases heq
    have hclean := cleanup_effects h reason
    exact ⟨fun e he => (hclean e he).1, fun e he => (hclean e (List.mem_of_mem_tail he)).2,
      fun _ e he => (hclean e he).2⟩

theorem hook_good_run (h : Run (fun s e t => s.step e = some t) UsePoll.mount es s) : s.Good :=
  h.invariant (fun _ _ _ => hook_good) mount_good

/-- The step is that of the newest effect's last call, in a mounted hook. -/
def UsePoll.LatestResumes (s : UsePoll T) (he : HookEvent T) : Prop :=
  s.mounted = true ∧ ∃ e, s.effects.head? = some e ∧ e.cancelled = false ∧
    ∃ i, he = .effect 0 (.resumed i) ∧ i + 1 = e.calls.length

theorem write_latest (h : s.Good) (hstep : s.step he = some t) :
    t.view = s.view ∧ t.writes = s.writes ∨ s.LatestResumes he := by
  cases he with
  | effect j ev =>
    obtain ⟨⟨e', w⟩, hbind, rfl⟩ := Option.map_eq_some_iff.mp hstep
    obtain ⟨e, hj, heff⟩ := Option.bind_eq_some_iff.mp hbind
    cases w with
    | none => exact .inl ⟨rfl, rfl⟩
    | some outcome =>
      have hold := h.effects e (List.mem_of_getElem? hj)
      obtain ⟨hc, i, rfl, hi⟩ := (effect_stepped heff).writes (Option.some_ne_none _) hold.2
      obtain ⟨rfl, hm⟩ := h.newest hj hc
      exact .inr ⟨hm, e, by rwa [List.head?_eq_getElem?], hc, i, rfl, hi⟩
  | rerun reason =>
    obtain ⟨-, heq⟩ := Option.ite_none_right_eq_some.mp hstep
    cases heq
    exact .inl ⟨rfl, rfl⟩
  | unmount reason =>
    obtain ⟨-, heq⟩ := Option.ite_none_right_eq_some.mp hstep
    cases heq
    exact .inl ⟨rfl, rfl⟩

theorem unmounted_step (h : s.Good) (hm : s.mounted = false) (hstep : s.step he = some t) :
    t.mounted = false ∧ t.view = s.view ∧ t.writes = s.writes := by
  have hkept : t.view = s.view ∧ t.writes = s.writes := by
    rcases write_latest h hstep with hkept | hlatest
    · exact hkept
    · rw [hlatest.1] at hm
      cases hm
  refine ⟨?_, hkept⟩
  cases he with
  | effect j ev =>
    obtain ⟨⟨e', w⟩, -, rfl⟩ := Option.map_eq_some_iff.mp hstep
    exact (apply_mounted _ _ _ _).trans hm
  | rerun reason =>
    obtain ⟨hm', -⟩ := Option.ite_none_right_eq_some.mp hstep
    rw [hm] at hm'
    cases hm'
  | unmount reason =>
    obtain ⟨-, heq⟩ := Option.ite_none_right_eq_some.mp hstep
    cases heq
    rfl

theorem unmounted_run (h : s.Good) (hm : s.mounted = false) (hrun : Run (fun s e t => s.step e = some t) s es t) :
    t.Good ∧ t.mounted = false ∧ t.view = s.view ∧ t.writes = s.writes := by
  induction hrun with
  | nil => exact ⟨h, hm, rfl, rfl⟩
  | snoc _ hstep ih =>
    obtain ⟨hgood, hmounted, hview, hwrites⟩ := ih
    obtain ⟨hm', hview', hwrites'⟩ := unmounted_step hgood hmounted hstep
    exact ⟨hook_good hgood hstep, hm', hview'.trans hview, hwrites'.trans hwrites⟩

/-- What a hook's state is written by, and the pollers it comes from. -/
structure UsePoll.Safe (s : UsePoll T) : Prop where
  latest : ∀ he t, s.step he = some t → t.view = s.view ∧ t.writes = s.writes ∨ s.LatestResumes he
  unmounted : s.mounted = false → ∀ es t, Run (fun s e t => s.step e = some t) s es t →
    t.view = s.view ∧ t.writes = s.writes
  pollers : ∀ e ∈ s.effects, e.Polls

theorem hook_safe (h : s.Good) : s.Safe where
  latest := fun _ _ hstep => write_latest h hstep
  unmounted := fun hm _ _ hrun => (unmounted_run h hm hrun).2.2
  pollers := fun e he => (h.effects e he).1

theorem polls_safe {events : List PollEvent} {p : Poller} (hp : Run (fun p e q => p.step e = some q) {} events p)
    (hs : Run (fun s e t => s.step e = some t) UsePoll.mount es s) : p.Safe events ∧ s.Safe :=
  ⟨safe_run hp, hook_safe (hook_good_run hs)⟩

/-- A fetch still out at its deadline: the timeout is shown, and the fetch of the next run
after it, not the late one. -/
theorem polls_safe_sample :
    ∃ (p : Poller) (s : UsePoll ℕ),
      p.Safe [.kick true true, .begun 0, .expired 0, .finished 0, .fired 0 true] ∧ p.current = some 1 ∧
      s.Safe ∧ s.view = ⟨some 7, .ready, none⟩ ∧ s.writes = 2 := by
  let events : List (HookEvent ℕ) :=
    [.effect 0 (.begun 0), .effect 0 (.expired 0 "timeout"), .effect 0 (.resumed 0), .effect 0 (.finished 0),
      .effect 0 (.fired 0 true), .effect 0 (.begun 1), .effect 0 (.fetched 0 (.ok 3)),
      .effect 0 (.fetched 1 (.ok 7)), .effect 0 (.resumed 1)]
  have hp : [PollEvent.kick true true, .begun 0, .expired 0, .finished 0, .fired 0 true].foldlM Poller.step {} =
      some ⟨some 0, 1, [], some 1, false,
        [{ begun := true, aborted := true, deadline := false, finished := true }, {}]⟩ := by decide
  have hview : (events.foldlM UsePoll.step UsePoll.mount).map (fun s => (s.view, s.writes)) =
      some (⟨some 7, .ready, none⟩, 2) := by decide
  obtain ⟨s, hs, heq⟩ := Option.map_eq_some_iff.mp hview
  have hsafe := polls_safe (run_foldlM _ hp) (run_foldlM _ hs)
  exact ⟨_, s, hsafe.1, rfl, hsafe.2, congrArg Prod.fst heq, congrArg Prod.snd heq⟩

end OpenPoly
