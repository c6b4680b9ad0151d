import OpenPoly.Lib.Run
import OpenPoly.Proofs.Canvas
import OpenPoly.Spec.CanvasReload

/-! Whether the reloads an edited canvas starts bring every section to the template
on disk: each change is still to be picked up by a reload under way, or in force. -/

namespace OpenPoly

open Transition

variable {κ : Type} {classes : ConfigClasses κ} {configs : NewsConfigs PyDict} {m m' : CanvasProcess κ}

/-- All of the process that a rebuilt section leaves as it was. -/
def CanvasProcess.frame (m : CanvasProcess κ) :=
  (m.persisted, m.newsMaxAge, m.news, m.market, m.pollFailed, m.joining, m.waiters, m.tasks, m.operatorStopped)

/-- The sections of the list are built anew where their node has changed. -/
structure Rebuilt (classes : ConfigClasses κ) (t : ReloadTask) (l : List SectionType)
    (m m' : CanvasProcess κ) : Prop where
  frame : m'.frame = m.frame
  errors : m'.buildError = false → m.buildError = false
  built : m'.buildError = false → ∀ s ∈ l, t.differs s = true →
    m'.sections s = canvasConfig classes m.persisted s
  kept : ∀ s, s ∉ l ∨ t.differs s = false → m'.sections s = m.sections s

theorem rebuild_rebuilt (classes : ConfigClasses κ) (fails : SectionType → Bool) (t : ReloadTask)
    (m : CanvasProcess κ) (s : SectionType) : Rebuilt classes t [s] m (m.rebuild classes fails t s) := by
  unfold CanvasProcess.rebuild
  by_cases hdiff : t.differs s = true
  · rw [if_pos hdiff]
    by_cases hfail : fails s = true
    · rw [if_pos hfail]
      exact ⟨rfl, nofun, nofun, fun _ _ => rfl⟩
    · rw [if_neg hfail]
      refine ⟨rfl, id, fun _ s' hs' _ => ?_, fun s' hs' => ?_⟩
      · obtain rfl := List.mem_singleton.mp hs'
        exact Function.update_self ..
      · refine Function.update_of_ne ?_ ..
        rintro rfl
        rcases hs' with hs' | hs'
        · exact hs' (List.mem_singleton_self s')
        · exact Bool.false_ne_true (hs'.symm.trans hdiff)
  · rw [if_neg hdiff]
    refine ⟨rfl, id, fun _ s' hs' hdiff' => ?_, fun _ _ => rfl⟩
    rw [List.mem_singleton.mp hs'] at hdiff'
    exact (hdiff hdiff').elim

theorem Rebuilt.persisted {t : ReloadTask} {l : List SectionType} (h : Rebuilt classes t l m m') :
    m'.persisted = m.persisted :=
  congrArg Prod.fst h.frame

/-- The sections of a list, one after the other. -/
theorem rebuilt_foldl (classes : ConfigClasses κ) (fails : SectionType → Bool) (t : ReloadTask)
    (l : List SectionType) (m : CanvasProcess κ) :
    Rebuilt classes t l m (l.foldl (CanvasProcess.rebuild classes fails t) m) := by
  induction l generalizing m with
  | nil => exact ⟨rfl, id, fun _ s hs => (List.not_mem_nil hs).elim, fun _ _ => rfl⟩
  | cons s l ih =>
    have hone := rebuild_rebuilt classes fails t m s
    have hrest := ih (m.rebuild classes fails t s)
    rw [List.foldl_cons]
    refine ⟨hrest.frame.trans hone.frame, fun he => hone.errors (hrest.errors he), fun he s' hs' hdiff => ?_,
      fun s' hs' => ?_⟩
    · by_cases hl : s' ∈ l
      · rw [hrest.built he s' hl hdiff, hone.persisted]
      · rw [hrest.kept s' (.inl hl)]
        rcases List.mem_cons.mp hs' with rfl | hs'
        · exact hone.built (hrest.errors he) s' (List.mem_singleton_self s') hdiff
        · exact (hl hs').elim
    · have hs'' : (s' ∉ l ∨ t.differs s' = false) ∧ (s' ∉ [s] ∨ t.differs s' = false) := by
        rcases hs' with hs' | hs'
        · rw [List.mem_cons, not_or] at hs'
          exact ⟨.inl hs'.2, .inl (by simpa using hs'.1)⟩
        · exact ⟨.inr hs', .inr hs'⟩
      exact (hrest.kept s' hs''.1).trans (hone.kept s' hs''.2)

def CanvasProcess.Pending (m : CanvasProcess κ) (s : SectionType) : Prop :=
  ∃ (i : ℕ) (t : ReloadTask), m.tasks[i]? = some t ∧ t.spawned = true ∧ t.differs s = true

def LockWaiter.task : LockWaiter κ → Option ℕ
  | .stop (.reload i) => some i
  | .stop .operator => none
  | .start i _ => some i

def CanvasProcess.Waiting (m : CanvasProcess κ) (i : ℕ) : Prop :=
  m.joining = some (.reload i) ∨ ∃ w ∈ m.waiters, w.task = some i

def CanvasProcess.Open (m : CanvasProcess κ) (s : SectionType) : Prop :=
  ∃ (i : ℕ) (t : ReloadTask), m.tasks[i]? = some t ∧ (t.spawned = true ∨ m.Waiting i) ∧ t.differs s = true

def CanvasProcess.InForce (classes : ConfigClasses κ) (m : CanvasProcess κ) (s : SectionType) : Prop :=
  m.sections s = canvasConfig classes m.persisted s

/-- The windows the news source and its client filter with. -/
def NewsManager.windows {κ : Type} (m : NewsManager κ) : List ℤ :=
  match m.source with
  | none => []
  | some source =>
    source.freshnessSeconds ::
      ((source.client.bind fun i => m.clients[i]?).map NewsClient.freshnessSeconds).toList

def CanvasProcess.window (classes : ConfigClasses κ) (m : CanvasProcess κ) : ℤ :=
  classes.freshnessSeconds (canvasConfig classes m.persisted .newsSource)

def CanvasProcess.NewsInForce (classes : ConfigClasses κ) (m : CanvasProcess κ) : Prop :=
  m.newsMaxAge = m.window classes ∧ ∀ w ∈ m.news.windows, w = m.window classes

theorem applyFreshness_windows {κ : Type} (configs : NewsConfigs κ) (m : NewsManager κ) (seconds : ℤ) :
    ∀ w ∈ (m.applyFreshness configs seconds).windows, w = seconds := by
  unfold NewsManager.applyFreshness NewsManager.windows
  cases hs : m.source with
  | none => simp [hs]
  | some source =>
    intro w hw
    rcases List.mem_cons.mp hw with rfl | hw
    · rfl
    · cases hi : source.client with
      | none => simp [hi] at hw
      | some i =>
        simp only [hi, Option.bind_some, Option.elim_some, List.getElem?_modify_eq, Option.map_map,
          Option.mem_toList, Option.map_eq_some_iff, Option.map_eq_map] at hw
        obtain ⟨c, -, rfl⟩ := hw
        rfl

/-- Where the restarts of the market source stand: one waits for the source's tasks
with other stops behind it; the source runs, with starts that will change nothing
and stops behind them; or it is between a stop and the first start that waits. A
config in force, or about to be, is the template's unless something is to come. -/
inductive MarketInv (classes : ConfigClasses κ) (m : CanvasProcess κ) : Prop
  | restarting (i : ℕ) (c : κ) : m.market = some c → m.joining = some (.reload i) →
      (∀ w ∈ m.waiters, ∃ j, w = .stop (.reload j)) → MarketInv classes m
  | running (c : κ) (starts stops : List (LockWaiter κ)) : m.market = some c → m.joining = none →
      m.waiters = starts ++ stops → (∀ w ∈ starts, ∃ j d, w = .start j d) →
      (∀ w ∈ stops, ∃ j, w = .stop (.reload j)) →
      stops ≠ [] ∨ m.Pending .marketSource ∨ c = canvasConfig classes m.persisted .marketSource →
      MarketInv classes m
  | between (j : ℕ) (c : κ) (stops starts : List (LockWaiter κ)) : m.market = none → m.joining = none →
      m.waiters = stops ++ .start j c :: starts → (∀ w ∈ stops, ∃ j, w = .stop (.reload j)) →
      (∀ w ∈ starts, ∃ j d, w = .start j d) →
      m.Pending .marketSource ∨ c = canvasConfig classes m.persisted .marketSource → MarketInv classes m

/-- A change of the template and the reloads alone. -/
theorem MarketInv.mono (h : MarketInv classes m) (hmarket : m'.market = m.market)
    (hjoining : m'.joining = m.joining) (hwaiters : m'.waiters = m.waiters)
    (hcome : ∀ c, m.Pending .marketSource ∨ c = canvasConfig classes m.persisted .marketSource →
      m'.Pending .marketSource ∨ c = canvasConfig classes m'.persisted .marketSource) :
    MarketInv classes m' := by
  cases h with
  | restarting i c hm hj hw =>
    exact .restarting i c (hmarket.trans hm) (hjoining.trans hj) (hwaiters ▸ hw)
  | running c starts stops hm hj hw hstarts hstops hc =>
    exact .running c starts stops (hmarket.trans hm) (hjoining.trans hj) (hwaiters.trans hw) hstarts hstops
      (hc.imp_right (hcome c))
  | between j c stops starts hm hj hw hstops hstarts hc =>
    exact .between j c stops starts (hmarket.trans hm) (hjoining.trans hj) (hwaiters.trans hw) hstops hstarts
      (hcome c hc)

/-- A reload joins the stops that wait. -/
theorem MarketInv.callStop (h : MarketInv classes m) (hmarket : m'.market = m.market)
    (hjoining : m'.joining = m.joining) (hwaiters : m'.waiters = m.waiters) (hrunning : m'.market.isSome)
    (i : ℕ) : MarketInv classes (m'.callStop (.reload i)) := by
  have hlast : ∀ {stops : List (LockWaiter κ)}, (∀ w ∈ stops, ∃ j, w = .stop (.reload j)) →
      ∀ w ∈ stops ++ [.stop (.reload i)], ∃ j, w = .stop (.reload j) := by
    intro stops hstops w hw
    rcases List.mem_append.mp hw with hw | hw
    · exact hstops w hw
    · exact ⟨i, List.mem_singleton.mp hw⟩
  unfold CanvasProcess.callStop CanvasProcess.lockFree
  cases h with
  | restarting i' c hm hj hw =>
    rw [if_neg (by simp [hjoining, hj])]
    exact .restarting i' c (hmarket.trans hm) (hjoining.trans hj) (hlast (hwaiters ▸ hw))
  | running c starts stops hm hj hw hstarts hstops hc =>
    by_cases hnone : m'.waiters = []
    · rw [if_pos (by simp [hjoining, hj, hnone])]
      refine .restarting i c (hmarket.trans hm) rfl fun w hw => ?_
      have hw : w ∈ m'.waiters := hw
      rw [hnone] at hw
      cases hw
    · rw [if_neg (by simp [hnone])]
      refine .running c starts (stops ++ [.stop (.reload i)]) (hmarket.trans hm) (hjoining.trans hj) ?_ hstarts
        (hlast hstops) (.inl (by simp))
      rw [← List.append_assoc]
      exact congrArg (· ++ [LockWaiter.stop (.reload i)]) (hwaiters.trans hw)
  | between j c stops starts hm _ _ _ _ _ =>
    rw [hmarket, hm] at hrunning
    cases hrunning

/-- The config the first of the starts that wait will start the source with. -/
def CanvasProcess.nextStart (m : CanvasProcess κ) : Option κ :=
  m.waiters.findSome? fun w =>
    match w with
    | .start _ config => some config
    | .stop _ => none

theorem nextStart_between {j : ℕ} {c : κ} {stops starts : List (LockWaiter κ)}
    (hw : m.waiters = stops ++ .start j c :: starts) (hstops : ∀ w ∈ stops, ∃ j, w = .stop (.reload j)) :
    m.nextStart = some c := by
  unfold CanvasProcess.nextStart
  rw [hw, List.findSome?_append]
  have hnone : stops.findSome? (fun w => match w with
      | .start _ config => some config
      | .stop _ => none) = none := by
    refine List.findSome?_eq_none_iff.mpr fun w hw => ?_
    obtain ⟨j, rfl⟩ := hstops w hw
    rfl
  rw [hnone]
  rfl

/-- Every section is the template's, or still to be picked up. -/
structure CanvasInv (classes : ConfigClasses κ) (m : CanvasProcess κ) : Prop where
  early : m.buildError = false → ∀ s ∈ orchestratorSections, m.InForce classes s ∨ m.Pending s
  news : m.NewsInForce classes ∨ m.Pending .newsSource
  later : m.buildError = false → ∀ s ∈ laterSections, m.InForce classes s ∨ m.Open s
  market : m.operatorStopped = false → MarketInv classes m

/-- The same of the sections while one reload is at work. -/
structure AtWork (classes : ConfigClasses κ) (m : CanvasProcess κ) (i : ℕ) : Prop where
  early : m.buildError = false → ∀ s ∈ orchestratorSections, m.InForce classes s ∨ m.Pending s
  news : m.NewsInForce classes ∨ m.Pending .newsSource
  later : m.buildError = false → ∀ s ∈ laterSections, m.InForce classes s ∨ m.Open s ∨
    ∃ t : ReloadTask, m.tasks[i]? = some t ∧ t.differs s = true

/-- What a rebuilt section leaves as it was, field by field. -/
theorem frame_eqs (h : m'.frame = m.frame) : m'.persisted = m.persisted ∧ m'.newsMaxAge = m.newsMaxAge ∧
    m'.news = m.news ∧ m'.market = m.market ∧ m'.pollFailed = m.pollFailed ∧ m'.joining = m.joining ∧
    m'.waiters = m.waiters ∧ m'.tasks = m.tasks ∧ m'.operatorStopped = m.operatorStopped := by
  simpa [CanvasProcess.frame] using h

theorem pending_of_tasks (htasks : m'.tasks = m.tasks) {s : SectionType} (h : m.Pending s) : m'.Pending s := by
  unfold CanvasProcess.Pending
  rw [htasks]
  exact h

theorem open_of_frame (h : m'.frame = m.frame) {s : SectionType} (ho : m.Open s) : m'.Open s := by
  obtain ⟨-, -, -, -, -, hjoining, hwaiters, htasks, -⟩ := frame_eqs h
  unfold CanvasProcess.Open CanvasProcess.Waiting
  rw [hjoining, hwaiters, htasks]
  exact ho

theorem MarketInv.of_frame (h : MarketInv classes m) (hframe : m'.frame = m.frame) : MarketInv classes m' := by
  obtain ⟨hpersisted, -, -, hmarket, -, hjoining, hwaiters, htasks, -⟩ := frame_eqs hframe
  refine h.mono hmarket hjoining hwaiters fun c hc => ?_
  rw [hpersisted]
  exact hc.imp_left (pending_of_tasks htasks)

theorem laterSections_disjoint : ∀ s ∈ orchestratorSections, s ∉ laterSections := by decide

/-- No reload is at work. -/
theorem AtWork.idle {i : ℕ} (h : AtWork classes m i) (hi : m.tasks[i]? = none)
    (hmarket : m.operatorStopped = false → MarketInv classes m) : CanvasInv classes m := by
  refine ⟨h.early, h.news, fun he s hs => ?_, hmarket⟩
  rcases h.later he s hs with hin | hopen | ⟨t, ht, -⟩
  · exact .inl hin
  · exact .inr hopen
  · rw [hi] at ht
    cases ht

theorem CanvasInv.atWork (h : CanvasInv classes m) (i : ℕ) : AtWork classes m i :=
  ⟨h.early, h.news, fun he s hs => (h.later he s hs).imp_right .inl⟩

/-- A reload that is through has built its sections. -/
theorem AtWork.finish {i : ℕ} (h : AtWork classes m i)
    (hmarket : m.operatorStopped = false → MarketInv classes m) (fails : SectionType → Bool) :
    CanvasInv classes (m.finish classes fails i) := by
  unfold CanvasProcess.finish
  cases hi : m.tasks[i]? with
  | none => exact h.idle hi hmarket
  | some t =>
    dsimp only
    have hbuilt := rebuilt_foldl classes fails t laterSections m
    generalize laterSections.foldl (CanvasProcess.rebuild classes fails t) m = m' at hbuilt ⊢
    obtain ⟨hpersisted, hage, hnews, -, -, -, -, htasks, hoperator⟩ := frame_eqs hbuilt.frame
    have hkept : ∀ s, s ∉ laterSections ∨ t.differs s = false → m.InForce classes s → m'.InForce classes s := by
      intro s hs hin
      unfold CanvasProcess.InForce
      rw [hbuilt.kept s hs, hpersisted]
      exact hin
    refine ⟨fun he s hs => ?_, ?_, fun he s hs => ?_, fun ho => ?_⟩
    · rcases h.early (hbuilt.errors he) s hs with hin | hpend
      · exact .inl (hkept s (.inl (laterSections_disjoint s hs)) hin)
      · exact .inr (pending_of_tasks htasks hpend)
    · rcases h.news with ⟨hmax, hwindows⟩ | hpend
      · refine .inl ⟨?_, ?_⟩
        · unfold CanvasProcess.window
          rw [hage, hpersisted]
          exact hmax
        · unfold CanvasProcess.window
          rw [hnews, hpersisted]
          exact hwindows
      · exact .inr (pending_of_tasks htasks hpend)
    · by_cases hdiff : t.differs s = true
      · refine .inl ?_
        unfold CanvasProcess.InForce
        rw [hbuilt.built he s hs hdiff, hpersisted]
      · have hsame : t.differs s = false := by simpa using hdiff
        rcases h.later (hbuilt.errors he) s hs with hin | hopen | ⟨t', ht', hdiff'⟩
        · exact .inl (hkept s (.inr hsame) hin)
        · exact .inr (open_of_frame hbuilt.frame hopen)
        · obtain rfl : t = t' := Option.some.inj (hi.symm.trans ht')
          exact (hdiff hdiff').elim
    · exact (hmarket (hoperator.symm.trans ho)).of_frame hbuilt.frame

/-- A reload that goes on waiting is still open. -/
theorem AtWork.waits {i : ℕ} (h : AtWork classes m i)
    (hmarket : m.operatorStopped = false → MarketInv classes m) (hwait : m.Waiting i) :
    CanvasInv classes m := by
  refine ⟨h.early, h.news, fun he s hs => ?_, hmarket⟩
  rcases h.later he s hs with hin | hopen | ⟨t, ht, hdiff⟩
  · exact .inl hin
  · exact .inr hopen
  · exact .inr ⟨i, t, ht, .inr hwait, hdiff⟩

/-- A change of the market source and its lock that takes at most the one reload off
the waiting. -/
theorem AtWork.pop {i : ℕ} (h : AtWork classes m i)
    (hsame : m'.persisted = m.persisted ∧ m'.sections = m.sections ∧ m'.newsMaxAge = m.newsMaxAge ∧
      m'.news = m.news ∧ m'.tasks = m.tasks ∧ m'.buildError = m.buildError)
    (hwait : ∀ j, m.Waiting j → m'.Waiting j ∨ j = i) : AtWork classes m' i := by
  obtain ⟨hpersisted, hsections, hage, hnews, htasks, herror⟩ := hsame
  have hin : ∀ s, m.InForce classes s → m'.InForce classes s := by
    intro s hin
    unfold CanvasProcess.InForce
    rw [hsections, hpersisted]
    exact hin
  refine ⟨fun he s hs => ?_, ?_, fun he s hs => ?_⟩
  · exact (h.early (herror ▸ he) s hs).imp (hin s) (pending_of_tasks htasks)
  · refine h.news.imp ?_ (pending_of_tasks htasks)
    unfold CanvasProcess.NewsInForce CanvasProcess.window
    rw [hage, hnews, hpersisted]
    exact id
  · rcases h.later (herror ▸ he) s hs with hforce | ⟨j, t, ht, hopen, hdiff⟩ | ⟨t, ht, hdiff⟩
    · exact .inl (hin s hforce)
    · have ht' : m'.tasks[j]? = some t := htasks ▸ ht
      rcases hopen with hspawned | hwaiting
      · exact .inr (.inl ⟨j, t, ht', .inl hspawned, hdiff⟩)
      · rcases hwait j hwaiting with hwaiting | rfl
        · exact .inr (.inl ⟨j, t, ht', .inr hwaiting, hdiff⟩)
        · exact .inr (.inr ⟨t, ht', hdiff⟩)
    · exact .inr (.inr ⟨t, htasks ▸ ht, hdiff⟩)

theorem CanvasInv.pop (h : CanvasInv classes m) {i : ℕ}
    (hsame : m'.persisted = m.persisted ∧ m'.sections = m.sections ∧ m'.newsMaxAge = m.newsMaxAge ∧
      m'.news = m.news ∧ m'.tasks = m.tasks ∧ m'.buildError = m.buildError)
    (hwait : ∀ j, m.Waiting j → m'.Waiting j ∨ j = i) : AtWork classes m' i :=
  (h.atWork i).pop hsame hwait

/-- A change of the lock alone, with every reload waiting that did. -/
theorem CanvasInv.keeps (h : CanvasInv classes m)
    (hsame : m'.persisted = m.persisted ∧ m'.sections = m.sections ∧ m'.newsMaxAge = m.newsMaxAge ∧
      m'.news = m.news ∧ m'.tasks = m.tasks ∧ m'.buildError = m.buildError)
    (hwait : ∀ j, m.Waiting j → m'.Waiting j) (hmarket : m'.operatorStopped = false → MarketInv classes m') :
    CanvasInv classes m' := by
  have hnone : m'.tasks[m'.tasks.length]? = none := List.getElem?_eq_none le_rfl
  exact (h.pop hsame fun j hj => .inl (hwait j hj)).idle hnone hmarket

/-- A reload whose `stop` has returned starts the source at once, or waits to. -/
theorem canvasInv_stopped (h : CanvasInv classes m) {i : ℕ} (fails : SectionType → Bool)
    (hsame : m'.persisted = m.persisted ∧ m'.sections = m.sections ∧ m'.newsMaxAge = m.newsMaxAge ∧
      m'.news = m.news ∧ m'.tasks = m.tasks ∧ m'.buildError = m.buildError)
    (hwait : ∀ j, m.Waiting j → m'.Waiting j ∨ j = i)
    (hmarket : m'.operatorStopped = false →
      MarketInv classes (if m'.waiters.isEmpty then
          { m' with market := some (canvasConfig classes m'.persisted .marketSource), pollFailed := false }
        else { m' with waiters := m'.waiters ++
          [.start i (canvasConfig classes m'.persisted .marketSource)] })) :
    CanvasInv classes (m'.stopped classes fails i) := by
  unfold CanvasProcess.stopped
  dsimp only
  by_cases hnone : m'.waiters.isEmpty = true
  · rw [if_pos hnone] at hmarket ⊢
    have hwork : AtWork classes ({ m' with
        market := some (canvasConfig classes m'.persisted .marketSource)
        pollFailed := false } : CanvasProcess κ) i :=
      h.pop hsame hwait
    exact hwork.finish hmarket fails
  · rw [if_neg hnone] at hmarket ⊢
    have hwork : AtWork classes ({ m' with waiters := m'.waiters ++
        [.start i (canvasConfig classes m'.persisted .marketSource)] } : CanvasProcess κ) i := by
      refine h.pop hsame fun j hj => (hwait j hj).imp_left fun hj => hj.imp_right ?_
      rintro ⟨w, hw, hwi⟩
      exact ⟨w, List.mem_append_left _ hw, hwi⟩
    exact hwork.waits hmarket (.inr ⟨.start i _, List.mem_append_right _ (List.mem_singleton_self _), rfl⟩)

theorem CanvasInv.joined (h : CanvasInv classes m) {i : ℕ} (fails : SectionType → Bool)
    (hj : m.joining = some (.reload i)) :
    CanvasInv classes (({ m with market := none, joining := none } : CanvasProcess κ).stopped classes fails i) := by
  refine canvasInv_stopped h fails ⟨rfl, rfl, rfl, rfl, rfl, rfl⟩ (fun j hwait => ?_) fun ho => ?_
  · rcases hwait with hwait | hwait
    · rw [hj] at hwait
      exact .inr (StopCaller.reload.inj (Option.some.inj hwait)).symm
    · exact .inl (.inr hwait)
  · cases h.market ho with
    | running c starts stops _ hnone _ _ _ _ =>
      rw [hj] at hnone
      cases hnone
    | between j c stops starts _ hnone _ _ _ _ =>
      rw [hj] at hnone
      cases hnone
    | restarting i' c hm hj' hw =>
      by_cases hnone : m.waiters.isEmpty = true
      · rw [if_pos hnone]
        exact .running _ [] [] rfl rfl (List.isEmpty_iff.mp hnone) nofun nofun (.inr (.inr rfl))
      · rw [if_neg hnone]
        exact .between i _ m.waiters [] rfl rfl rfl hw nofun (.inr rfl)

/-- The source's tasks have ended for an operator. -/
theorem CanvasInv.joinedOperator (h : CanvasInv classes m) (hj : m.joining = some .operator)
    (ho : m.operatorStopped = true) :
    CanvasInv classes ({ m with market := none, joining := none } : CanvasProcess κ) := by
  refine h.keeps ⟨rfl, rfl, rfl, rfl, rfl, rfl⟩ (fun j hwait => hwait.imp_left fun hwait => ?_)
    fun ho' => (Bool.false_ne_true (ho'.symm.trans ho)).elim
  rw [hj] at hwait
  cases hwait

/-- Who still waits when a stop at the head of the waiting gets the lock. -/
theorem waiting_pop {caller : StopCaller} {rest : List (LockWaiter κ)} (hj : m.joining = none)
    (hw : m.waiters = .stop caller :: rest) {j : ℕ} (h : m.Waiting j) :
    (∃ w ∈ rest, w.task = some j) ∨ caller = .reload j := by
  rcases h with h | ⟨w, hmem, hwj⟩
  · rw [hj] at h
    cases h
  · rw [hw] at hmem
    rcases List.mem_cons.mp hmem with rfl | hmem
    · cases caller with
      | operator => cases hwj
      | reload i => exact .inr (congrArg StopCaller.reload (Option.some.inj hwj))
    · exact .inl ⟨w, hmem, hwj⟩

/-- An operator's stop gets the lock, and waits for the source or finds it stopped. -/
theorem CanvasInv.grantOperator (h : CanvasInv classes m) {rest : List (LockWaiter κ)}
    (hj : m.joining = none) (hw : m.waiters = .stop .operator :: rest) (ho : m.operatorStopped = true)
    (joining : Option StopCaller) :
    CanvasInv classes ({ m with waiters := rest, joining := joining } : CanvasProcess κ) := by
  refine h.keeps ⟨rfl, rfl, rfl, rfl, rfl, rfl⟩ (fun j hwait => ?_)
    fun ho' => (Bool.false_ne_true (ho'.symm.trans ho)).elim
  rcases waiting_pop hj hw hwait with hmem | hcaller
  · exact .inr hmem
  · cases hcaller

/-- A reload's stop gets the lock of a source that runs. -/
theorem CanvasInv.grantRunning (h : CanvasInv classes m) {i : ℕ} {rest : List (LockWaiter κ)}
    (hj : m.joining = none) (hw : m.waiters = .stop (.reload i) :: rest) (hrunning : m.market.isSome) :
    CanvasInv classes ({ m with waiters := rest, joining := some (.reload i) } : CanvasProcess κ) := by
  have hwork : AtWork classes ({ m with waiters := rest, joining := some (.reload i) } : CanvasProcess κ) i := by
    refine h.pop ⟨rfl, rfl, rfl, rfl, rfl, rfl⟩ fun j hwait => ?_
    rcases waiting_pop hj hw hwait with hmem | hcaller
    · exact .inl (.inr hmem)
    · exact .inr (StopCaller.reload.inj hcaller).symm
  refine hwork.waits (fun ho => ?_) (.inl rfl)
  cases h.market ho with
  | restarting i' c _ hj' _ =>
    rw [hj] at hj'
    cases hj'
  | between j c stops starts hm _ _ _ _ _ =>
    rw [hm] at hrunning
    cases hrunning
  | running c starts stops hm _ hw' hstarts hstops _ =>
    rw [hw] at hw'
    cases starts with
    | cons w starts =>
      obtain ⟨j, d, rfl⟩ := hstarts w (List.mem_cons_self ..)
      cases hw'
    | nil =>
      refine .restarting i c hm rfl fun w hmem => hstops w ?_
      rw [show stops = _ from hw'.symm]
      exact List.mem_cons_of_mem _ hmem

/-- A reload's stop gets the lock of a source that another has stopped. -/
theorem CanvasInv.grantStopped (h : CanvasInv classes m) {i : ℕ} {rest : List (LockWaiter κ)}
    (fails : SectionType → Bool) (hj : m.joining = none) (hw : m.waiters = .stop (.reload i) :: rest)
    (hstopped : m.market = none) :
    CanvasInv classes (({ m with waiters := rest } : CanvasProcess κ).stopped classes fails i) := by
  refine canvasInv_stopped h fails ⟨rfl, rfl, rfl, rfl, rfl, rfl⟩ (fun j hwait => ?_) fun ho => ?_
  · rcases waiting_pop hj hw hwait with hmem | hcaller
    · exact .inl (.inr hmem)
    · exact .inr (StopCaller.reload.inj hcaller).symm
  · cases h.market ho with
    | restarting i' c _ hj' _ =>
      rw [hj] at hj'
      cases hj'
    | running c starts stops hm _ _ _ _ _ =>
      rw [hstopped] at hm
      cases hm
    | between j c stops starts hm _ hw' hstops hstarts hc =>
      rw [hw] at hw'
      cases stops with
      | nil => cases hw'
      | cons w stops =>
        obtain ⟨-, hrest⟩ := List.cons.inj hw'
        rw [if_neg (by simp [hrest])]
        refine .between j c stops
          (starts ++ [.start i (canvasConfig classes m.persisted .marketSource)]) hm hj ?_
          (fun w hmem => hstops w (List.mem_cons_of_mem _ hmem)) (fun w hmem => ?_) hc
        · show rest ++ _ = _
          rw [hrest, List.append_eq, List.append_assoc, List.cons_append]
        · rcases List.mem_append.mp hmem with hmem | hmem
          · exact hstarts w hmem
          · exact ⟨i, _, List.mem_singleton.mp hmem⟩

/-- The start at the head of the waiting gets the lock: it starts a stopped source. -/
theorem CanvasInv.grantStart (h : CanvasInv classes m) {i : ℕ} {config : κ} {rest : List (LockWaiter κ)}
    (fails : SectionType → Bool) (hj : m.joining = none) (hw : m.waiters = .start i config :: rest) :
    CanvasInv classes (({ m with
      waiters := rest
      market := some (m.market.getD config)
      pollFailed := m.market.isSome && m.pollFailed } : CanvasProcess κ).finish classes fails i) := by
  have hwork : AtWork classes ({ m with
      waiters := rest
      market := some (m.market.getD config)
      pollFailed := m.market.isSome && m.pollFailed } : CanvasProcess κ) i := by
    refine h.pop ⟨rfl, rfl, rfl, rfl, rfl, rfl⟩ fun j hwait => ?_
    rcases hwait with hwait | ⟨w, hmem, hwj⟩
    · rw [hj] at hwait
      cases hwait
    · rw [hw] at hmem
      rcases List.mem_cons.mp hmem with rfl | hmem
      · exact .inr (Option.some.inj hwj).symm
      · exact .inl (.inr ⟨w, hmem, hwj⟩)
  refine hwork.finish (fun ho => ?_) fails
  cases h.market ho with
  | restarting i' c _ hj' _ =>
    rw [hj] at hj'
    cases hj'
  | running c starts stops hm _ hw' hstarts hstops hc =>
    cases starts with
    | nil =>
      rw [hw] at hw'
      obtain ⟨j, hstop⟩ := hstops (.start i config) (by rw [show stops = _ from hw'.symm]; simp)
      cases hstop
    | cons w starts =>
      rw [hw] at hw'
      refine .running c starts stops ?_ hj (List.cons.inj hw').2
        (fun w hmem => hstarts w (List.mem_cons_of_mem _ hmem)) hstops hc
      show some (m.market.getD config) = _
      rw [hm]
      rfl
  | between j c stops starts hm _ hw' hstops hstarts hc =>
    cases stops with
    | cons w stops =>
      rw [hw] at hw'
      obtain ⟨j, hstop⟩ := hstops (.start i config) (by rw [(List.cons.inj hw').1]; simp)
      cases hstop
    | nil =>
      rw [hw] at hw'
      obtain ⟨hhead, hrest⟩ := List.cons.inj hw'
      cases hhead
      refine .running config starts [] ?_ hj (hrest.trans (List.append_nil starts).symm) hstarts nofun
        (.inr hc)
      show some (m.market.getD config) = _
      rw [hm]
      rfl

/-- Only an operator who has stopped the source waits for it. -/
theorem MarketInv.noOperator (h : MarketInv classes m) :
    m.joining ≠ some .operator ∧ .stop .operator ∉ m.waiters := by
  have hstop : ∀ {l : List (LockWaiter κ)}, (∀ w ∈ l, ∃ j, w = .stop (.reload j)) → .stop .operator ∉ l := by
    intro l hl hmem
    obtain ⟨j, hj⟩ := hl _ hmem
    cases hj
  have hstart : ∀ {l : List (LockWaiter κ)}, (∀ w ∈ l, ∃ j d, w = .start j d) → .stop .operator ∉ l := by
    intro l hl hmem
    obtain ⟨j, d, hj⟩ := hl _ hmem
    cases hj
  cases h with
  | restarting i c _ hj hw =>
    rw [hj]
    exact ⟨by simp, hstop hw⟩
  | running c starts stops _ hj hw hstarts hstops _ =>
    rw [hj, hw, List.mem_append, not_or]
    exact ⟨by simp, hstart hstarts, hstop hstops⟩
  | between j c stops starts _ hj hw hstops hstarts _ =>
    rw [hj, hw, List.mem_append, List.mem_cons, not_or, not_or]
    exact ⟨by simp, hstop hstops, by simp, hstart hstarts⟩

theorem CanvasInv.operator (h : CanvasInv classes m)
    (hop : m.joining = some .operator ∨ .stop .operator ∈ m.waiters) : m.operatorStopped = true := by
  by_contra hnot
  have hinv := (h.market (by simpa using hnot)).noOperator
  exact hop.elim hinv.1 hinv.2

/-- What a reload that has begun leaves to be picked up by others, or by itself. -/
theorem pending_begun {i : ℕ} {t : ReloadTask} (hi : m.tasks[i]? = some t)
    (htasks : m'.tasks = m.tasks.set i { t with spawned := false }) {s : SectionType}
    (h : m.Pending s) : m'.Pending s ∨ t.differs s = true := by
  obtain ⟨j, u, hu, hspawned, hdiff⟩ := h
  by_cases hij : i = j
  · subst hij
    rw [hi] at hu
    cases hu
    exact .inr hdiff
  · refine .inl ⟨j, u, ?_, hspawned, hdiff⟩
    rw [htasks, List.getElem?_set_ne hij]
    exact hu

theorem open_begun {i : ℕ} {t : ReloadTask} (hi : m.tasks[i]? = some t)
    (htasks : m'.tasks = m.tasks.set i { t with spawned := false })
    (hjoining : m'.joining = m.joining) (hwaiters : m'.waiters = m.waiters) {s : SectionType}
    (h : m.Open s) : m'.Open s ∨ ∃ u : ReloadTask, m'.tasks[i]? = some u ∧ u.differs s = true := by
  have hlt := (List.getElem?_eq_some_iff.mp hi).1
  obtain ⟨j, u, hu, hopen, hdiff⟩ := h
  by_cases hij : i = j
  · subst hij
    rw [hi] at hu
    cases hu
    refine .inr ⟨{ t with spawned := false }, ?_, hdiff⟩
    rw [htasks]
    simp [hlt]
  · refine .inl ⟨j, u, ?_, hopen.imp_right fun hwait => ?_, hdiff⟩
    · rw [htasks, List.getElem?_set_ne hij]
      exact hu
    · unfold CanvasProcess.Waiting
      rw [hjoining, hwaiters]
      exact hwait

theorem reloadNews_frame (classes : ConfigClasses κ) (configs : NewsConfigs PyDict) (t : ReloadTask)
    (m : CanvasProcess κ) :
    let m' := m.reloadNews classes configs t
    m'.persisted = m.persisted ∧ m'.sections = m.sections ∧ m'.market = m.market ∧
      m'.pollFailed = m.pollFailed ∧ m'.joining = m.joining ∧ m'.waiters = m.waiters ∧ m'.tasks = m.tasks ∧
      m'.operatorStopped = m.operatorStopped ∧ m'.buildError = m.buildError := by
  unfold CanvasProcess.reloadNews
  dsimp only
  split_ifs <;> exact ⟨rfl, rfl, rfl, rfl, rfl, rfl, rfl, rfl, rfl⟩

theorem reloadNews_news (classes : ConfigClasses κ) (configs : NewsConfigs PyDict) (t : ReloadTask)
    (m : CanvasProcess κ) :
    (t.differs .newsSource = true → (m.reloadNews classes configs t).NewsInForce classes) ∧
      (t.differs .newsSource = false → m.reloadNews classes configs t = m) := by
  unfold CanvasProcess.reloadNews
  refine ⟨fun hdiff => ?_, fun hdiff => if_neg (by simp [hdiff])⟩
  rw [if_pos hdiff]
  exact ⟨rfl, applyFreshness_windows configs m.news _⟩

theorem earlierSections_disjoint : ∀ s ∈ laterSections, s ∉ orchestratorSections := by decide

/-- The sections before the market source are built, and the rest is at work. -/
theorem CanvasInv.begin (h : CanvasInv classes m) {i : ℕ} {t : ReloadTask} (hi : m.tasks[i]? = some t)
    (configs : NewsConfigs PyDict) (fails : SectionType → Bool)
    (hm' : m' = (orchestratorSections.foldl (CanvasProcess.rebuild classes fails t)
      { m with tasks := m.tasks.set i { t with spawned := false } }).reloadNews classes configs t) :
    AtWork classes m' i := by
  have hbuilt := rebuilt_foldl classes fails t orchestratorSections
    { m with tasks := m.tasks.set i { t with spawned := false } }
  generalize orchestratorSections.foldl (CanvasProcess.rebuild classes fails t)
    { m with tasks := m.tasks.set i { t with spawned := false } } = m₂ at hbuilt hm'
  obtain ⟨hpersisted, hage, hnews, -, -, hjoining, hwaiters, htasks, -⟩ := frame_eqs hbuilt.frame
  have hframe := reloadNews_frame classes configs t m₂
  have hnews' := reloadNews_news classes configs t m₂
  rw [← hm'] at hframe hnews'
  obtain ⟨hpersisted', hsections', -, -, hjoining', hwaiters', htasks', -, herror'⟩ := hframe
  have htasks : m'.tasks = m.tasks.set i { t with spawned := false } := htasks'.trans htasks
  have hkept : ∀ s, s ∉ orchestratorSections ∨ t.differs s = false → m.InForce classes s →
      m'.InForce classes s := by
    intro s hs hin
    unfold CanvasProcess.InForce
    rw [hsections', hbuilt.kept s hs, hpersisted', hpersisted]
    exact hin
  refine ⟨fun he s hs => ?_, ?_, fun he s hs => ?_⟩
  · have he₂ : m₂.buildError = false := herror' ▸ he
    by_cases hdiff : t.differs s = true
    · refine .inl ?_
      unfold CanvasProcess.InForce
      rw [hsections', hbuilt.built he₂ s hs hdiff, hpersisted', hpersisted]
    · have hsame : t.differs s = false := by simpa using hdiff
      rcases h.early (hbuilt.errors he₂) s hs with hin | hpend
      · exact .inl (hkept s (.inr hsame) hin)
      · exact .inr ((pending_begun hi htasks hpend).resolve_right hdiff)
  · by_cases hdiff : t.differs .newsSource = true
    · exact .inl (hnews'.1 hdiff)
    · have hsame : m' = m₂ := hnews'.2 (by simpa using hdiff)
      rcases h.news with hin | hpend
      · refine .inl ?_
        unfold CanvasProcess.NewsInForce CanvasProcess.window
        rw [hsame, hage, hnews, hpersisted]
        exact hin
      · exact .inr ((pending_begun hi htasks hpend).resolve_right hdiff)
  · rcases h.later (hbuilt.errors (herror' ▸ he)) s hs with hin | hopen
    · exact .inl (hkept s (.inl (earlierSections_disjoint s hs)) hin)
    · exact .inr (open_begun hi htasks (hjoining'.trans hjoining) (hwaiters'.trans hwaiters) hopen)

/-- A reload that waits to stop the source. -/
theorem callStop_waiting (m : CanvasProcess κ) (i : ℕ) : (m.callStop (.reload i)).Waiting i := by
  unfold CanvasProcess.callStop
  split_ifs
  · exact .inl rfl
  · exact .inr ⟨.stop (.reload i), List.mem_append_right _ (List.mem_singleton_self _), rfl⟩

theorem callStop_keeps (m : CanvasProcess κ) (caller : StopCaller) {j : ℕ} (h : m.Waiting j) :
    (m.callStop caller).Waiting j := by
  unfold CanvasProcess.callStop
  by_cases hfree : m.lockFree = true
  · unfold CanvasProcess.lockFree at hfree
    simp only [Bool.and_eq_true, Option.isNone_iff_eq_none, List.isEmpty_iff] at hfree
    rcases h with h | ⟨w, hw, -⟩
    · rw [hfree.1] at h
      cases h
    · rw [hfree.2] at hw
      cases hw
  · rw [if_neg hfree]
    refine h.imp_right ?_
    rintro ⟨w, hw, hwj⟩
    exact ⟨w, List.mem_append_left _ hw, hwj⟩

theorem callStop_rest (m : CanvasProcess κ) (caller : StopCaller) :
    let m' := m.callStop caller
    m'.persisted = m.persisted ∧ m'.sections = m.sections ∧ m'.newsMaxAge = m.newsMaxAge ∧
      m'.news = m.news ∧ m'.tasks = m.tasks ∧ m'.operatorStopped = m.operatorStopped ∧
      m'.buildError = m.buildError := by
  unfold CanvasProcess.callStop
  dsimp only
  split_ifs <;> exact ⟨rfl, rfl, rfl, rfl, rfl, rfl, rfl⟩

def CanvasProcess.awaits (m : CanvasProcess κ) (s : SectionType) : Bool :=
  m.tasks.any fun t => t.spawned && t.differs s

theorem awaits_iff {s : SectionType} : m.awaits s = true ↔ m.Pending s := by
  unfold CanvasProcess.awaits CanvasProcess.Pending
  simp only [List.any_eq_true, Bool.and_eq_true, List.mem_iff_getElem?]
  constructor
  · rintro ⟨t, ⟨i, hi⟩, hspawned, hdiff⟩
    exact ⟨i, t, hi, hspawned, hdiff⟩
  · rintro ⟨i, t, hi, hspawned, hdiff⟩
    exact ⟨t, ⟨i, hi⟩, hspawned, hdiff⟩

/-- The section's stored config is the same, and its effective one is not. -/
def hides [DecidableEq κ] (classes : ConfigClasses κ) (old new : Option PyDict) (s : SectionType) : Bool :=
  (storedConfig old s).pyEq (storedConfig new s) && canvasConfig classes old s ≠ canvasConfig classes new s

def LockWaiter.stops : LockWaiter κ → Bool
  | .stop _ => true
  | .start _ _ => false

/-- The market source comes to the template's config without the reload: it runs and the
reload restarts it, it has that config, it is being stopped or waits to be, or it is
stopped and the first start that waits has that config. -/
def CanvasProcess.marketComes [DecidableEq κ] (classes : ConfigClasses κ) (m : CanvasProcess κ) : Bool :=
  match m.market with
  | none => m.nextStart = some (canvasConfig classes m.persisted .marketSource)
  | some config =>
    !m.pollFailed || config = canvasConfig classes m.persisted .marketSource || m.joining.isSome ||
      m.waiters.any LockWaiter.stops

/-- A reload finds the source running, has not to restart it, leaves it stopped for
the operator, or leaves it to come to the template's config, or to another reload. -/
def CanvasProcess.restarts [DecidableEq κ] (classes : ConfigClasses κ) (m : CanvasProcess κ) (task : ℕ)
    (t : ReloadTask) : Bool :=
  !t.differs .marketSource || m.operatorStopped || m.marketComes classes ||
    ({ m with tasks := m.tasks.set task { t with spawned := false } } : CanvasProcess κ).awaits .marketSource

def allSections : List SectionType :=
  [.newsSource, .marketSource, .embedding, .analyzer, .entry, .exit, .database]

/-- No PUT hides a change of a section that nothing else will look at; and a reload
can read the template it replaced, and sees to the market source. -/
def CanvasProcess.noticed [DecidableEq κ] (classes : ConfigClasses κ) (m : CanvasProcess κ) :
    CanvasEvent → Bool
  | .put body => allSections.all fun s =>
      !hides classes m.persisted (some (withoutRev body)) s || m.awaits s
  | .reload task _ =>
    match m.tasks[task]? with
    | some t => countable t.old && m.restarts classes task t
    | none => true
  | _ => true

/-- What is hidden, of configs equal to Python valid alike, is the entry's cooldown as
a template from before version 4 has it. -/
theorem hides_entry [DecidableEq κ] {old new : Option PyDict} {s : SectionType}
    (halike : ∀ s raw raw', PyDict.pyEq raw raw' = true → classes.validate s raw = classes.validate s raw')
    (h : hides classes old new s = true) :
    s = .entry ∧ (old.any outdated = true ∨ new.any outdated = true) := by
  unfold hides at h
  simp only [Bool.and_eq_true, ne_eq, decide_not, Bool.not_eq_true', decide_eq_false_iff_not] at h
  obtain ⟨hsame, hdiffers⟩ := h
  by_contra hnot
  refine hdiffers ?_
  have hstored : ∀ template, template = old ∨ template = new →
      sectionConfig template s = storedConfig template s := by
    intro template htemplate
    refine sectionConfig_stored ?_
    by_cases hentry : s = .entry
    · refine .inr ?_
      rcases htemplate with rfl | rfl <;> simp_all
    · exact .inl hentry
  unfold canvasConfig
  dsimp only
  rw [hstored old (.inl rfl), hstored new (.inr rfl), pyEq_isEmpty hsame, halike s _ _ hsame]

theorem mem_allSections (s : SectionType) : s ∈ allSections := by
  cases s <;> decide

theorem pending_put (template : PyDict) {s : SectionType} (h : m.Pending s) : (m.put template).Pending s := by
  obtain ⟨i, t, hi, hspawned, hdiff⟩ := h
  refine ⟨i, t, ?_, hspawned, hdiff⟩
  exact (List.getElem?_append_left (List.getElem?_eq_some_iff.mp hi).1).trans hi

theorem open_put (template : PyDict) {s : SectionType} (h : m.Open s) : (m.put template).Open s := by
  obtain ⟨i, t, hi, hopen, hdiff⟩ := h
  refine ⟨i, t, ?_, hopen, hdiff⟩
  exact (List.getElem?_append_left (List.getElem?_eq_some_iff.mp hi).1).trans hi

theorem Pending.open {s : SectionType} (h : m.Pending s) : m.Open s := by
  obtain ⟨i, t, hi, hspawned, hdiff⟩ := h
  exact ⟨i, t, hi, .inl hspawned, hdiff⟩

/-- A saved template changes a section's effective config only where a reload will
look at it. -/
theorem put_noticed [DecidableEq κ] {body : PyDict} (hnoticed : m.noticed classes (.put body) = true)
    (s : SectionType) :
    canvasConfig classes m.persisted s = canvasConfig classes (some (withoutRev body)) s ∨
      (m.put (withoutRev body)).Pending s := by
  have hs := List.all_eq_true.mp hnoticed s (mem_allSections s)
  simp only [Bool.or_eq_true, Bool.not_eq_true'] at hs
  rcases hs with hshown | hawaited
  · by_cases heq : (storedConfig m.persisted s).pyEq (storedConfig (some (withoutRev body)) s) = true
    · refine .inl ?_
      simpa [hides, heq] using hshown
    · refine .inr ⟨m.tasks.length, { old := m.persisted, new := withoutRev body }, ?_, rfl, ?_⟩
      · exact List.getElem?_concat_length
      · simpa [ReloadTask.differs] using heq
  · exact .inr (pending_put _ (awaits_iff.mp hawaited))

theorem CanvasInv.put [DecidableEq κ] (h : CanvasInv classes m) {body : PyDict}
    (hnoticed : m.noticed classes (.put body) = true) : CanvasInv classes (m.put (withoutRev body)) := by
  have hnew := put_noticed hnoticed
  have hforce : ∀ s, m.InForce classes s →
      (m.put (withoutRev body)).InForce classes s ∨ (m.put (withoutRev body)).Pending s :=
    fun s hin => (hnew s).imp_left hin.trans
  refine ⟨fun he s hs => ?_, ?_, fun he s hs => ?_, fun ho => ?_⟩
  · exact (h.early he s hs).elim (hforce s) fun hpend => .inr (pending_put _ hpend)
  · rcases h.news with ⟨hmax, hwindows⟩ | hpend
    · refine (hnew .newsSource).imp_left fun heq => ?_
      have hwindow : m.window classes = (m.put (withoutRev body)).window classes :=
        congrArg classes.freshnessSeconds heq
      exact ⟨hmax.trans hwindow, fun w hw => (hwindows w hw).trans hwindow⟩
    · exact .inr (pending_put _ hpend)
  · exact (h.later he s hs).elim (fun hin => (hforce s hin).imp_right Pending.open)
      fun hopen => .inr (open_put _ hopen)
  · refine (h.market ho).mono rfl rfl rfl fun c hc => ?_
    rcases hc with hpend | hc
    · exact .inl (pending_put _ hpend)
    · exact (hnew .marketSource).symm.imp_right hc.trans

theorem begun_frame (classes : ConfigClasses κ) (configs : NewsConfigs PyDict) {i : ℕ} {t : ReloadTask}
    (fails : SectionType → Bool)
    (hm' : m' = (orchestratorSections.foldl (CanvasProcess.rebuild classes fails t)
      { m with tasks := m.tasks.set i { t with spawned := false } }).reloadNews classes configs t) :
    m'.persisted = m.persisted ∧ m'.market = m.market ∧ m'.pollFailed = m.pollFailed ∧ m'.joining = m.joining ∧
      m'.waiters = m.waiters ∧ m'.tasks = m.tasks.set i { t with spawned := false } ∧
      m'.operatorStopped = m.operatorStopped := by
  have hbuilt := rebuilt_foldl classes fails t orchestratorSections
    { m with tasks := m.tasks.set i { t with spawned := false } }
  obtain ⟨hpersisted, -, -, hmarket, hpoll, hjoining, hwaiters, htasks, hoperator⟩ := frame_eqs hbuilt.frame
  obtain ⟨hpersisted', -, hmarket', hpoll', hjoining', hwaiters', htasks', hoperator', -⟩ :=
    reloadNews_frame classes configs t (orchestratorSections.foldl (CanvasProcess.rebuild classes fails t)
      { m with tasks := m.tasks.set i { t with spawned := false } })
  subst hm'
  exact ⟨hpersisted'.trans hpersisted, hmarket'.trans hmarket, hpoll'.trans hpoll, hjoining'.trans hjoining,
    hwaiters'.trans hwaiters, htasks'.trans htasks, hoperator'.trans hoperator⟩

/-- A reload that leaves the source alone leaves it, or a start that waits, with the
template's config, or to be followed by another. -/
theorem MarketInv.passed [DecidableEq κ] (h : MarketInv classes m) {i : ℕ} {t : ReloadTask}
    (hi : m.tasks[i]? = some t) (ho : m.operatorStopped = false) (hrestarts : m.restarts classes i t = true)
    (hpass : t.differs .marketSource = true → m.running = false) (hpersisted : m'.persisted = m.persisted)
    (hmarket : m'.market = m.market) (hjoining : m'.joining = m.joining) (hwaiters : m'.waiters = m.waiters)
    (htasks : m'.tasks = m.tasks.set i { t with spawned := false }) : MarketInv classes m' := by
  by_cases hdiff : t.differs .marketSource = true
  · have hnot := hpass hdiff
    have hcomes : m.marketComes classes = true ∨ m'.Pending .marketSource := by
      unfold CanvasProcess.restarts at hrestarts
      simp only [hdiff, ho, Bool.not_true, Bool.false_or, Bool.or_eq_true] at hrestarts
      exact hrestarts.imp_right fun hother => pending_of_tasks htasks (awaits_iff.mp hother)
    cases h with
    | restarting i' c hm hj hw =>
      exact .restarting i' c (hmarket.trans hm) (hjoining.trans hj) (hwaiters ▸ hw)
    | running c starts stops hm hj hw hstarts hstops hc =>
      refine .running c starts stops (hmarket.trans hm) (hjoining.trans hj) (hwaiters.trans hw) hstarts hstops ?_
      by_cases hne : stops = []
      · refine .inr (hcomes.symm.imp_right fun hcomes => ?_)
        have hfailed : m.pollFailed = true := by simpa [CanvasProcess.running, hm] using hnot
        have hnone : (starts ++ stops).any LockWaiter.stops = false := by
          rw [hne, List.append_nil, List.any_eq_false]
          intro w hw
          obtain ⟨j, d, rfl⟩ := hstarts w hw
          exact Bool.false_ne_true
        simp only [CanvasProcess.marketComes, hm, hfailed, hj, hw, hnone, Bool.not_true, Option.isSome_none,
          Bool.or_false, Bool.false_or, decide_eq_true_eq] at hcomes
        rw [hpersisted]
        exact hcomes
      · exact .inl hne
    | between j c stops starts hm hj hw hstops hstarts hc =>
      refine .between j c stops starts (hmarket.trans hm) (hjoining.trans hj) (hwaiters.trans hw) hstops
        hstarts (hcomes.symm.imp_right fun hcomes => ?_)
      have hnext := nextStart_between hw hstops
      simp only [CanvasProcess.marketComes, hm, hnext, Option.some.injEq, decide_eq_true_eq] at hcomes
      rw [hpersisted]
      exact hcomes
  · refine h.mono hmarket hjoining hwaiters fun c hc => ?_
    rw [hpersisted]
    exact hc.imp_left fun hpend => (pending_begun hi htasks hpend).resolve_right hdiff

theorem CanvasInv.reload [DecidableEq κ] (h : CanvasInv classes m) {i : ℕ} {t : ReloadTask}
    (hi : m.tasks[i]? = some t) (fails : SectionType → Bool) (hcount : countable t.old = true)
    (hrestarts : m.restarts classes i t = true) :
    CanvasInv classes (m.reload classes configs fails i t) := by
  unfold CanvasProcess.reload
  dsimp only
  rw [if_pos hcount]
  have hwork := h.begin hi configs fails rfl
  have hframe := begun_frame classes configs (m := m) (i := i) (t := t) fails rfl
  generalize (orchestratorSections.foldl (CanvasProcess.rebuild classes fails t)
    { m with tasks := m.tasks.set i { t with spawned := false } }).reloadNews classes configs t = m₁
    at hwork hframe ⊢
  obtain ⟨hpersisted, hmarket, hpoll, hjoining, hwaiters, htasks, hoperator⟩ := hframe
  by_cases hstop : (t.differs .marketSource && m₁.running) = true
  · rw [if_pos hstop]
    obtain ⟨hpersisted', hsections', hage', hnews', htasks', hoperator', herror'⟩ :=
      callStop_rest m₁ (.reload i)
    have hwork' := hwork.pop ⟨hpersisted', hsections', hage', hnews', htasks', herror'⟩
      fun j hj => .inl (callStop_keeps m₁ (.reload i) hj)
    refine hwork'.waits (fun ho => ?_) (callStop_waiting m₁ i)
    rw [hoperator', hoperator] at ho
    unfold CanvasProcess.running at hstop
    rw [Bool.and_eq_true, Bool.and_eq_true] at hstop
    exact (h.market ho).callStop hmarket hjoining hwaiters hstop.2.1 i
  · rw [if_neg hstop]
    refine hwork.finish (fun ho => ?_) fails
    rw [hoperator] at ho
    refine (h.market ho).passed hi ho hrestarts (fun hdiff => ?_) hpersisted hmarket hjoining hwaiters htasks
    simpa [CanvasProcess.running, hdiff, hmarket, hpoll] using hstop

/-- A poll says nothing of any config. -/
theorem CanvasInv.polled (h : CanvasInv classes m) (failed : Bool) :
    CanvasInv classes ({ m with pollFailed := failed } : CanvasProcess κ) :=
  h.keeps ⟨rfl, rfl, rfl, rfl, rfl, rfl⟩ (fun _ => id) fun ho =>
    (h.market ho).mono rfl rfl rfl fun _ => id

/-- An operator's stop says nothing of the sections. -/
theorem CanvasInv.operatorStop (h : CanvasInv classes m) :
    CanvasInv classes ({ m with operatorStopped := true } : CanvasProcess κ) ∧
      CanvasInv classes (({ m with operatorStopped := true } : CanvasProcess κ).callStop .operator) := by
  obtain ⟨hpersisted, hsections, hage, hnews, htasks, hoperator, herror⟩ :=
    callStop_rest ({ m with operatorStopped := true } : CanvasProcess κ) .operator
  refine ⟨h.keeps ⟨rfl, rfl, rfl, rfl, rfl, rfl⟩ (fun _ => id) nofun, ?_⟩
  refine h.keeps ⟨hpersisted, hsections, hage, hnews, htasks, herror⟩ (fun j => ?_) fun ho => ?_
  · exact callStop_keeps ({ m with operatorStopped := true } : CanvasProcess κ) .operator
  · rw [hoperator] at ho
    cases ho

def CanvasStep (classes : ConfigClasses κ) (configs : NewsConfigs PyDict) (m : CanvasProcess κ) (e : CanvasEvent)
    (m' : CanvasProcess κ) : Prop :=
  m.step classes configs e = some m'

theorem canvasInv_step [DecidableEq κ] {e : CanvasEvent} (h : CanvasInv classes m)
    (hnoticed : m.noticed classes e = true) (hstep : CanvasStep classes configs m e m') :
    CanvasInv classes m' := by
  unfold CanvasStep at hstep
  cases e with
  | put body =>
    simp only [CanvasProcess.step, Option.ite_none_right_eq_some, Option.some.injEq] at hstep
    obtain ⟨-, rfl⟩ := hstep
    exact h.put hnoticed
  | reload i fails =>
    cases hi : m.tasks[i]? with
    | none => simp [CanvasProcess.step, hi] at hstep
    | some t =>
      simp only [CanvasProcess.step, hi, Option.ite_none_right_eq_some, Option.some.injEq] at hstep
      obtain ⟨-, rfl⟩ := hstep
      simp only [CanvasProcess.noticed, hi, Bool.and_eq_true] at hnoticed
      exact h.reload hi fails hnoticed.1 hnoticed.2
  | joined fails =>
    cases hj : m.joining with
    | none => simp [CanvasProcess.step, hj] at hstep
    | some caller =>
      cases caller with
      | reload i =>
        simp only [CanvasProcess.step, hj, Option.some.injEq] at hstep
        subst hstep
        exact h.joined fails hj
      | operator =>
        simp only [CanvasProcess.step, hj, Option.some.injEq] at hstep
        subst hstep
        exact h.joinedOperator hj (h.operator (.inl hj))
  | grant fails =>
    cases hj : m.joining with
    | some caller => simp [CanvasProcess.step, hj] at hstep
    | none =>
      cases hw : m.waiters with
      | nil => simp [CanvasProcess.step, hj, hw] at hstep
      | cons w rest =>
        cases w with
        | start i config =>
          simp only [CanvasProcess.step, hj, hw, Option.some.injEq] at hstep
          subst hstep
          simpa only [hj] using h.grantStart fails hj hw
        | stop caller =>
          simp only [CanvasProcess.step, hj, hw] at hstep
          by_cases hrunning : m.market.isSome = true
          · rw [if_pos hrunning, Option.some.injEq] at hstep
            subst hstep
            cases caller with
            | reload i => exact h.grantRunning hj hw hrunning
            | operator =>
              exact h.grantOperator hj hw (h.operator (.inr (by simp [hw]))) _
          · rw [if_neg hrunning] at hstep
            cases caller with
            | reload i =>
              simp only [Option.some.injEq] at hstep
              subst hstep
              simpa only [hj] using h.grantStopped fails hj hw (by simpa using hrunning)
            | operator =>
              simp only [Option.some.injEq] at hstep
              subst hstep
              exact h.grantOperator hj hw (h.operator (.inr (by simp [hw]))) none
  | operatorStop =>
    simp only [CanvasProcess.step] at hstep
    split_ifs at hstep with hfree
    · obtain rfl := Option.some.inj hstep
      exact h.operatorStop.1
    · obtain rfl := Option.some.inj hstep
      exact h.operatorStop.2
  | polled ok =>
    simp only [CanvasProcess.step, Option.ite_none_right_eq_some, Option.some.injEq] at hstep
    obtain ⟨-, rfl⟩ := hstep
    exact h.polled _

/-- The process is at the template on disk, with no reload under way. -/
structure Converged (classes : ConfigClasses κ) (m : CanvasProcess κ) : Prop where
  sections : ∀ s ∈ orchestratorSections ++ laterSections, m.InForce classes s
  news : m.NewsInForce classes
  market : m.operatorStopped = false → m.market = some (canvasConfig classes m.persisted .marketSource)

def CanvasProcess.Settled (m : CanvasProcess κ) : Prop :=
  (∀ t ∈ m.tasks, t.spawned = false) ∧ ∀ i, ¬ m.Waiting i

/-- Built from the template on disk; a market source that does not run was stopped. -/
structure Booted (classes : ConfigClasses κ) (m : CanvasProcess κ) : Prop where
  converged : Converged classes m
  tasks : m.tasks = []
  joining : m.joining = none
  waiters : m.waiters = []

theorem Booted.inv (h : Booted classes m) : CanvasInv classes m := by
  refine ⟨fun _ s hs => .inl (h.converged.sections s (List.mem_append_left _ hs)), .inl h.converged.news,
    fun _ s hs => .inl (h.converged.sections s (List.mem_append_right _ hs)), fun ho => ?_⟩
  exact .running _ [] [] (h.converged.market ho) h.joining h.waiters nofun nofun (.inr (.inr rfl))

theorem CanvasProcess.Settled.not_pending (h : m.Settled) (s : SectionType) : ¬ m.Pending s := by
  rintro ⟨i, t, hi, hspawned, -⟩
  have hbegun := h.1 t (List.mem_of_getElem? hi)
  exact Bool.false_ne_true (hbegun.symm.trans hspawned)

theorem CanvasProcess.Settled.not_open (h : m.Settled) (s : SectionType) : ¬ m.Open s := by
  rintro ⟨i, t, hi, hspawned | hwait, hdiff⟩
  · exact h.not_pending s ⟨i, t, hi, hspawned, hdiff⟩
  · exact h.2 i hwait

/-- With no reload under way and none failed, all is in force. -/
theorem CanvasInv.converged (h : CanvasInv classes m) (hsettled : m.Settled) (he : m.buildError = false) :
    Converged classes m := by
  refine ⟨fun s hs => ?_, h.news.resolve_right (hsettled.not_pending _), fun ho => ?_⟩
  · rcases List.mem_append.mp hs with hs | hs
    · exact (h.early he s hs).resolve_right (hsettled.not_pending s)
    · exact (h.later he s hs).resolve_right (hsettled.not_open s)
  · cases h.market ho with
    | restarting i c _ hj _ => exact (hsettled.2 i (.inl hj)).elim
    | between j c stops starts _ _ hw _ _ _ =>
      exact (hsettled.2 j (.inr ⟨.start j c, by simp [hw], rfl⟩)).elim
    | running c starts stops hm _ hw _ hstops hc =>
      rcases hc with hne | hpend | rfl
      · obtain ⟨w, hmem⟩ := List.exists_mem_of_ne_nil stops hne
        obtain ⟨j, rfl⟩ := hstops w hmem
        exact (hsettled.2 j (.inr ⟨_, hw ▸ List.mem_append_right _ hmem, rfl⟩)).elim
      · exact (hsettled.not_pending _ hpend).elim
      · exact hm

/-- A process that has built its sections from the template, with no news source. -/
def CanvasProcess.boot (classes : ConfigClasses κ) (template : Option PyDict) : CanvasProcess κ where
  persisted := template
  sections := canvasConfig classes template
  newsMaxAge := classes.freshnessSeconds (canvasConfig classes template .newsSource)
  news := {}
  market := some (canvasConfig classes template .marketSource)

theorem booted_boot (classes : ConfigClasses κ) (template : Option PyDict) :
    Booted classes (CanvasProcess.boot classes template) :=
  ⟨⟨fun _ _ => rfl, ⟨rfl, nofun⟩, fun _ => rfl⟩, rfl, rfl, rfl⟩

def CanvasProcess.idle (m : CanvasProcess κ) : Bool :=
  m.tasks.all (fun t => !t.spawned) && m.joining.isNone && m.waiters.isEmpty

theorem CanvasProcess.settled_of_idle (h : m.idle = true) : m.Settled := by
  unfold CanvasProcess.idle at h
  simp only [Bool.and_eq_true, List.all_eq_true, Bool.not_eq_true', Option.isNone_iff_eq_none,
    List.isEmpty_iff] at h
  obtain ⟨⟨htasks, hjoining⟩, hwaiters⟩ := h
  refine ⟨htasks, fun i => ?_⟩
  rintro (hj | ⟨w, hw, -⟩)
  · rw [hjoining] at hj
    cases hj
  · rw [hwaiters] at hw
    cases hw

/-- The entry's cooldown, and of every other section the number of events to request. -/
def cooldownOrLimit : ConfigClasses ℤ where
  default s := if s = .entry then entryV1CooldownMinutes else 100
  validate s raw := ((raw.get? (if s = .entry then cooldownKey else "gamma_limit")).elim
    (some (if s = .entry then entryV1CooldownMinutes else 100)) PyJson.toInt?)
  freshnessSeconds seconds := seconds

def sectionJson (s : SectionType) (key : String) (value : ℤ) : PyJson :=
  .obj [(.of "sectionType", .str (.of s.name)), (.of "config", .obj [(.of key, .int value)])]

/-- A template with an entry and a market node. -/
def twoNodes (version cooldown limit : ℤ) : PyDict :=
  [(.of "version", .int version),
    (.of "nodes", .arr [sectionJson .entry cooldownKey cooldown,
      sectionJson .marketSource "gamma_limit" limit])]

def builds (_ : SectionType) : Bool := false

/-- A poll fails and the next does not, and the source is restarted on a new limit. -/
def limitRaised : List CanvasEvent :=
  [.polled false, .polled true, .put (twoNodes 4 0 200), .reload 0 builds, .joined builds, .polled true]

def anyConfig : NewsConfigs PyDict := ⟨fun _ => .ok 3600, fun d _ => d⟩

/-- The version is raised, and the cooldown of 0 is now the operator's own. -/
def versionRaised : List CanvasEvent := [.put (twoNodes 4 0 100), .reload 0 builds]

/-- Two reloads restart the source, and a third PUT comes while it is stopped. -/
def limitRaisedThrice : List CanvasEvent :=
  [.put (twoNodes 4 0 200), .reload 0 builds, .put (twoNodes 4 0 300), .reload 1 builds, .joined builds,
    .put (twoNodes 4 0 400), .reload 2 builds, .grant builds, .grant builds, .grant builds]

/-- The last poll has failed when the reload comes to the source. -/
def limitRaisedInError : List CanvasEvent :=
  [.polled false, .put (twoNodes 4 0 200), .reload 0 builds, .polled true]

end OpenPoly
