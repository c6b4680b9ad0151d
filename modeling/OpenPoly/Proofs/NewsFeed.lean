import OpenPoly.Lib.Indexed
import OpenPoly.Lib.Run
import OpenPoly.Spec.NewsManager

/-! The state the manager reports and the client loops there are: one runs whenever
the state is active, and none once it is stopped, as long as no start takes up a
source whose client was rejected. -/

namespace OpenPoly

open Transition

variable {κ : Type} {configs : NewsConfigs κ} {m m' : NewsManager κ}

/-- What a step makes of a client: it goes on and keeps an active state active, it
ends because it was told to, or the server rejects it. -/
inductive ClientStepped (c c' : NewsClient) (signals : List NewsSignal) : Prop
  | goesOn : c'.phase ≠ .ended → c'.stop = c.stop → c'.cancelled = c.cancelled →
      (∀ {κ : Type} (m : NewsManager κ), m.state.active → (signals.foldl NewsManager.record m).state.active) →
      ClientStepped c c' signals
  | ends : c'.phase = .ended → signals = [] → c.stop ∨ c.cancelled → ClientStepped c c' signals
  | rejected (detail : String) : c'.phase = .ended → signals = [.authFail detail] →
      ClientStepped c c' signals

def NewsSignal.rejects : NewsSignal → Bool
  | .authFail _ => true
  | _ => false

theorem record_active {κ : Type} {m : NewsManager κ} {s : NewsSignal} (hs : s.rejects = false)
    (h : m.state.active) : (m.record s).state.active := by
  have hne : m.state ≠ .stopped := by
    intro heq
    rw [heq] at h
    revert h
    decide
  cases s with
  | authFail d => cases hs
  | connected => rfl
  | disconnected =>
    unfold NewsManager.record
    rw [if_pos hne]
    rfl
  | connecting =>
    unfold NewsManager.record
    rw [if_pos hne]
    rfl
  | _ => exact h

/-- The record of one signal that is no rejection. -/
theorem signal_active {s : NewsSignal} (hs : s.rejects = false) {κ : Type} (m : NewsManager κ)
    (h : m.state.active) : ([s].foldl NewsManager.record m).state.active :=
  record_active hs h

theorem top_stepped {c : NewsClient} {s : NewsSignal} (hs : s.rejects = false) :
    ClientStepped c (c.top s).1 (c.top s).2 := by
  unfold NewsClient.top
  by_cases hstop : c.stop
  · rw [if_pos hstop]
    exact .ends rfl rfl (.inl hstop)
  · rw [if_neg hstop]
    exact .goesOn (by simp) rfl rfl (signal_active hs)

theorem client_stepped {c c' : NewsClient} {signals : List NewsSignal} {e : ClientEvent}
    (h : c.step e = some (c', signals)) : c.phase ≠ .ended ∧ ClientStepped c c' signals := by
  cases e with
  | begin =>
    obtain ⟨hphase, heq⟩ := Option.ite_none_right_eq_some.mp h
    have htop := top_stepped (c := c) (s := .connecting) rfl
    rw [Option.some.inj heq] at htop
    exact ⟨by simp [hphase.1], htop⟩
  | opened =>
    obtain ⟨hphase, heq⟩ := Option.ite_none_right_eq_some.mp h
    cases heq
    exact ⟨by simp [hphase.1], .goesOn (by simp) rfl rfl (signal_active rfl)⟩
  | rejected detail =>
    obtain ⟨hphase, heq⟩ := Option.ite_none_right_eq_some.mp h
    cases heq
    exact ⟨by simp [hphase.1], .rejected detail rfl rfl⟩
  | dropped =>
    obtain ⟨hphase, heq⟩ := Option.ite_none_right_eq_some.mp h
    cases heq
    refine ⟨?_, .goesOn (by simp) rfl rfl (signal_active rfl)⟩
    rcases hphase with hphase | hphase <;> simp [hphase]
  | closed =>
    obtain ⟨hphase, heq⟩ := Option.ite_none_right_eq_some.mp h
    cases heq
    exact ⟨by simp [hphase.1], .goesOn (by simp) rfl rfl (signal_active rfl)⟩
  | message =>
    obtain ⟨hphase, heq⟩ := Option.ite_none_right_eq_some.mp h
    cases heq
    exact ⟨by simp [hphase.1], .goesOn (by simp [hphase.1]) rfl rfl (signal_active rfl)⟩
  | badFrame =>
    obtain ⟨hphase, heq⟩ := Option.ite_none_right_eq_some.mp h
    cases heq
    exact ⟨by simp [hphase.1], .goesOn (by simp [hphase.1]) rfl rfl (signal_active rfl)⟩
  | again =>
    obtain ⟨hphase, heq⟩ := Option.ite_none_right_eq_some.mp h
    have htop := top_stepped (c := c) (s := .reconnectAttempt) rfl
    rw [Option.some.inj heq] at htop
    refine ⟨?_, htop⟩
    rcases hphase with hphase | hphase <;> simp [hphase]
  | unwind =>
    obtain ⟨hphase, heq⟩ := Option.ite_none_right_eq_some.mp h
    cases heq
    exact ⟨hphase.1, .ends rfl rfl (.inr hphase.2)⟩

/-- A loop that runs is the source's and the state is active; one told to stop is
the one a `stop` waits for; and an active state has a loop, unless a `stop` waits. -/
structure NewsFeedInv (m : NewsManager κ) : Prop where
  only : ∀ (i : ℕ) (c : NewsClient), m.clients[i]? = some c → c.phase ≠ .ended →
    m.client = some i ∧ m.state.active
  told : ∀ (i : ℕ) (c : NewsClient), m.clients[i]? = some c → c.phase ≠ .ended →
    c.stop ∨ c.cancelled → m.stopping = some i
  stopping : ∀ i, m.stopping = some i → m.client = some i ∧ m.state ≠ .stopped ∧ i < m.clients.length
  reported : m.state.active → m.stopping = none → ∃ (i : ℕ) (c : NewsClient), m.clients[i]? = some c ∧
    c.phase ≠ .ended
  stopped : m.state = .stopped → m.client = none

theorem NewsFeedInv.idle (h : NewsFeedInv m) (hidle : m.state.active = false) {i : ℕ} {c : NewsClient}
    (hc : m.clients[i]? = some c) : c.phase = .ended := by
  by_contra hrun
  have hactive := (h.only i c hc hrun).2
  rw [hidle] at hactive
  cases hactive

/-- A manager whose clients have all ended. -/
theorem newsFeedInv_idle (hended : ∀ (i : ℕ) (c : NewsClient), m.clients[i]? = some c → c.phase = .ended)
    (hidle : m.state.active = false) (hstopping : m.stopping = none)
    (hstopped : m.state = .stopped → m.client = none) : NewsFeedInv m := by
  refine ⟨fun i c hc hrun => (hrun (hended i c hc)).elim, fun i c hc hrun => (hrun (hended i c hc)).elim,
    fun i hi => ?_, fun hactive => ?_, hstopped⟩
  · rw [hstopping] at hi
    cases hi
  · rw [hidle] at hactive
    cases hactive

theorem stopDone_client (m : NewsManager κ) : m.stopDone.client = none := by
  unfold NewsManager.client NewsManager.stopDone
  cases m.source <;> rfl

theorem newsFeedInv_stopDone (hended : ∀ (i : ℕ) (c : NewsClient), m.clients[i]? = some c → c.phase = .ended) :
    NewsFeedInv m.stopDone :=
  newsFeedInv_idle hended rfl rfl fun _ => stopDone_client m

/-- The start finds a loop, builds a source, or takes up one without a client. -/
def NewsManager.restartable [BEq κ] (m : NewsManager κ) (config : κ) : Bool :=
  m.state.active || !m.builtFrom config || m.client.isNone

theorem prepare_cases [BEq κ] {config : κ} (h : m.prepare configs config = .ok m') :
    m'.clients = m.clients ∧ m'.stopping = m.stopping ∧ m'.source.isSome ∧
      (m.builtFrom config = true ∧ m'.client = m.client ∨
        m.builtFrom config = false ∧ m'.client = none) := by
  unfold NewsManager.prepare at h
  by_cases hbuilt : m.builtFrom config
  · rw [if_pos hbuilt] at h
    cases h
    have hsome : m.source.isSome := by
      unfold NewsManager.builtFrom at hbuilt
      rw [Bool.and_eq_true] at hbuilt
      exact hbuilt.1
    exact ⟨rfl, rfl, hsome, .inl ⟨hbuilt, rfl⟩⟩
  · rw [if_neg hbuilt] at h
    cases hvalid : configs.validate config with
    | error e =>
      rw [hvalid] at h
      cases h
    | ok freshness =>
      rw [hvalid] at h
      cases h
      exact ⟨rfl, rfl, rfl, .inr ⟨by simpa using hbuilt, rfl⟩⟩

/-- `start_async` finds a client or starts the newest. -/
theorem startAsync_cases {secret : Except PyErr Unit} (hsource : m.source.isSome)
    (h : m.startAsync secret = .ok m') :
    (∃ i, m.client = some i ∧ m' = m) ∨
      ∃ c : NewsClient, m.client = none ∧ c.phase = .created ∧ c.stop = false ∧ c.cancelled = false ∧
        m'.clients = m.clients ++ [c] ∧ m'.client = some m.clients.length ∧
        m'.stopping = m.stopping ∧ m'.state = m.state := by
  obtain ⟨source, hs⟩ := Option.isSome_iff_exists.mp hsource
  unfold NewsManager.startAsync at h
  rw [hs] at h
  dsimp only at h
  have hclient : m.client = source.client := by simp [NewsManager.client, hs]
  by_cases hsome : source.client.isSome
  · rw [if_pos hsome] at h
    cases h
    obtain ⟨i, hi⟩ := Option.isSome_iff_exists.mp hsome
    exact .inl ⟨i, hclient.trans hi, rfl⟩
  · rw [if_neg hsome] at h
    cases secret with
    | error e => cases h
    | ok u =>
      cases h
      have hnone : source.client = none := by simpa using hsome
      exact .inr ⟨_, hclient.trans hnone, rfl, rfl, rfl, rfl, rfl, rfl, rfl⟩

/-- What a start leaves: the manager as it was, an idle one, one that took up a
client that was there, or one with a new client. -/
inductive Started [BEq κ] (m : NewsManager κ) (config : κ) :
    NewsManager κ × Except PyErr Unit → Prop
  | active : m.state.active → Started m config (m, .ok ())
  | invalid {e : PyErr} : m.state.active = false → Started m config (m, .error e)
  | failed {m' : NewsManager κ} {e : PyErr} : m.state.active = false → m'.state = .error →
      m'.clients = m.clients → m'.stopping = m.stopping → Started m config (m', .error e)
  | tookUp {m' : NewsManager κ} : m.state.active = false → m.restartable config = false →
      m'.clients = m.clients → Started m config (m', .ok ())
  | fresh {m' : NewsManager κ} (c : NewsClient) : m.state.active = false → m.restartable config = true →
      c.phase = .created → c.stop = false → c.cancelled = false → m'.clients = m.clients ++ [c] →
      m'.client = some m.clients.length → m'.stopping = m.stopping → m'.state = .connecting →
      Started m config (m', .ok ())

theorem start_started [BEq κ] (configs : NewsConfigs κ) (m : NewsManager κ) (config : κ) (secret : Except PyErr Unit) :
    Started m config (m.start configs config secret) := by
  unfold NewsManager.start
  by_cases hactive : m.state.active
  · rw [if_pos hactive]
    exact .active hactive
  have hidle : m.state.active = false := by simpa using hactive
  rw [if_neg hactive]
  cases hprep : m.prepare configs config with
  | error e => exact .invalid hidle
  | ok p =>
    obtain ⟨hclients, hstopping, hsource, hbuilt⟩ := prepare_cases hprep
    dsimp only
    set q : NewsManager κ :=
      { p with runningConfig := some config, state := .connecting, lastError := none, firstMsgPending := false }
    have hq : q.client = p.client := rfl
    cases hasync : q.startAsync secret with
    | error e => exact .failed hidle rfl hclients hstopping
    | ok m' =>
      rcases startAsync_cases (m := q) hsource hasync with
        ⟨i, hi, rfl⟩ | ⟨c, hnone, hphase, hstop, hcancel, hnew, hclient, hsame, hstate⟩
      · refine .tookUp hidle ?_ hclients
        rcases hbuilt with ⟨hbuilt, hkept⟩ | ⟨-, hnone⟩
        · have hsome : m.client = some i := hkept.symm.trans (hq.symm.trans hi)
          simp [NewsManager.restartable, hidle, hbuilt, hsome]
        · rw [hq, hnone] at hi
          cases hi
      · refine .fresh c hidle ?_ hphase hstop hcancel ?_ ?_ (hsame.trans hstopping) hstate
        · rcases hbuilt with ⟨hbuilt, hkept⟩ | ⟨hbuilt, -⟩
          · have hnone : m.client = none := hkept.symm.trans (hq.symm.trans hnone)
            simp [NewsManager.restartable, hnone]
          · simp [NewsManager.restartable, hbuilt]
        · rw [hnew]
          exact congrArg (· ++ [c]) hclients
        · rw [hclient]
          exact congrArg (fun l => some (List.length l)) hclients

/-- The first client loop of an idle manager. -/
theorem NewsFeedInv.fresh (h : NewsFeedInv m) (hidle : m.state.active = false) {c : NewsClient}
    (hphase : c.phase = .created) (hstop : c.stop = false) (hcancel : c.cancelled = false)
    (hclients : m'.clients = m.clients ++ [c]) (hclient : m'.client = some m.clients.length)
    (hstopping : m'.stopping = none) (hstate : m'.state = .connecting) : NewsFeedInv m' := by
  have hlast : ∀ (i : ℕ) (d : NewsClient), m'.clients[i]? = some d → d.phase ≠ .ended →
      i = m.clients.length ∧ d = c := by
    intro i d hd hrun
    rw [hclients] at hd
    rcases Indexed.of_snoc hd with hd | hlast
    · exact (hrun (h.idle hidle hd)).elim
    · exact hlast
  refine ⟨fun i d hd hrun => ?_, fun i d hd hrun htold => ?_, fun i hi => ?_, fun _ _ => ?_, fun hs => ?_⟩
  · rw [(hlast i d hd hrun).1, hstate]
    exact ⟨hclient, rfl⟩
  · rw [(hlast i d hd hrun).2, hstop, hcancel] at htold
    simp at htold
  · rw [hstopping] at hi
    cases hi
  · refine ⟨m.clients.length, c, ?_, by simp [hphase]⟩
    rw [hclients, List.getElem?_concat_length]
  · rw [hstate] at hs
    cases hs

theorem NewsFeedInv.start [BEq κ] (h : NewsFeedInv m) (configs : NewsConfigs κ) {config : κ}
    (hre : m.restartable config) (hlock : m.stopping = none) (secret : Except PyErr Unit) :
    NewsFeedInv (m.start configs config secret).1 := by
  have hstarted := start_started configs m config secret
  generalize m.start configs config secret = r at hstarted ⊢
  cases hstarted with
  | active _ => exact h
  | invalid _ => exact h
  | failed hidle hstate hclients hstopping =>
    refine newsFeedInv_idle (fun i c hc => h.idle hidle (hclients ▸ hc)) ?_ (hstopping.trans hlock) fun hs => ?_
    · rw [hstate]
      rfl
    · rw [hstate] at hs
      cases hs
  | tookUp _ hnot _ =>
    rw [hre] at hnot
    cases hnot
  | fresh c hidle _ hphase hstop hcancel hclients hclient hstopping hstate =>
    exact h.fresh hidle hphase hstop hcancel hclients hclient (hstopping.trans hlock) hstate

theorem NewsFeedInv.ended_of_client (h : NewsFeedInv m)
    (hclient : ∀ (i : ℕ) (c : NewsClient), m.client = some i → m.clients[i]? = some c → c.phase = .ended) :
    ∀ (i : ℕ) (c : NewsClient), m.clients[i]? = some c → c.phase = .ended := by
  intro i c hc
  by_contra hrun
  exact hrun (hclient i c (h.only i c hc hrun).1 hc)

theorem NewsFeedInv.stop (h : NewsFeedInv m) :
    NewsFeedInv m.stop ∧ (m.stop.stopping = none → m.stop.state = .stopped) := by
  unfold NewsManager.stop
  by_cases hstopped : m.state = .stopped
  · rw [if_pos hstopped]
    exact ⟨h, fun _ => hstopped⟩
  rw [if_neg hstopped]
  cases hclient : m.client with
  | none =>
    refine ⟨newsFeedInv_stopDone (h.ended_of_client fun i c hi => ?_), fun _ => rfl⟩
    rw [hclient] at hi
    cases hi
  | some i =>
    dsimp only
    cases hc : m.clients[i]? with
    | none =>
      refine ⟨newsFeedInv_stopDone (h.ended_of_client fun j c hj hcj => ?_), fun _ => rfl⟩
      obtain rfl : i = j := Option.some.inj (hclient.symm.trans hj)
      rw [hc] at hcj
      cases hcj
    | some c =>
      dsimp only
      by_cases hended : c.phase = .ended
      · rw [if_pos hended]
        refine ⟨newsFeedInv_stopDone (h.ended_of_client fun j d hj hd => ?_), fun _ => rfl⟩
        obtain rfl : i = j := Option.some.inj (hclient.symm.trans hj)
        rw [hc] at hd
        cases hd
        exact hended
      · rw [if_neg hended]
        refine ⟨⟨fun j d hd hrun => ?_, fun j d hd hrun _ => ?_, fun j hj => ?_, fun _ hnone => ?_,
          fun hs => (hstopped hs).elim⟩, nofun⟩
        · rcases Indexed.of_set hd with ⟨rfl, rfl⟩ | ⟨-, hd⟩
          · exact ⟨hclient, (h.only j c hc hended).2⟩
          · exact h.only j d hd hrun
        · rcases Indexed.of_set hd with ⟨rfl, rfl⟩ | ⟨hne, hd⟩
          · rfl
          · obtain rfl : i = j := Option.some.inj (hclient.symm.trans (h.only j d hd hrun).1)
            exact (hne rfl).elim
        · obtain rfl : i = j := Option.some.inj hj
          refine ⟨hclient, hstopped, ?_⟩
          have hlt := (List.getElem?_eq_some_iff.mp hc).1
          simpa [NewsManager.setClient] using hlt
        · cases hnone

theorem NewsFeedInv.joined (h : NewsFeedInv m) {i : ℕ} (hi : m.stopping = some i)
    (hended : (m.clients[i]?.any fun c => c.phase = .ended) = true) : NewsFeedInv m.stopDone := by
  refine newsFeedInv_stopDone (h.ended_of_client fun j c hj hc => ?_)
  obtain rfl : i = j := Option.some.inj ((h.stopping i hi).1.symm.trans hj)
  simpa [hc] using hended

theorem NewsFeedInv.applyFreshness (h : NewsFeedInv m) (seconds : ℤ) :
    NewsFeedInv (m.applyFreshness configs seconds) := by
  unfold NewsManager.applyFreshness
  cases hs : m.source with
  | none => exact h
  | some source =>
    dsimp only
    have hclient : m.client = source.client := by simp [NewsManager.client, hs]
    have hback : ∀ (j : ℕ) (d : NewsClient), (source.client.elim m.clients fun i =>
        m.clients.modify i fun c => { c with freshnessSeconds := seconds })[j]? = some d →
        ∃ c : NewsClient, m.clients[j]? = some c ∧ c.phase = d.phase ∧ c.stop = d.stop ∧
          c.cancelled = d.cancelled := by
      intro j d hd
      cases hi : source.client with
      | none =>
        rw [hi] at hd
        exact ⟨d, hd, rfl, rfl, rfl⟩
      | some i =>
        rw [hi, Option.elim_some] at hd
        obtain ⟨c, hc, ⟨-, rfl⟩ | ⟨-, rfl⟩⟩ := Indexed.of_modify hd
        · exact ⟨c, hc, rfl, rfl, rfl⟩
        · exact ⟨_, hc, rfl, rfl, rfl⟩
    refine ⟨fun j d hd hrun => ?_, fun j d hd hrun htold => ?_, fun i hi => ?_, fun hactive hnone => ?_,
      fun hstate => ?_⟩
    · obtain ⟨c, hc, hphase, -, -⟩ := hback j d hd
      exact ⟨hclient.symm.trans (h.only j c hc (hphase ▸ hrun)).1, (h.only j c hc (hphase ▸ hrun)).2⟩
    · obtain ⟨c, hc, hphase, hstop, hcancel⟩ := hback j d hd
      exact h.told j c hc (hphase ▸ hrun) (by rw [hstop, hcancel]; exact htold)
    · refine ⟨hclient.symm.trans (h.stopping i hi).1, (h.stopping i hi).2.1, ?_⟩
      have hlt := (h.stopping i hi).2.2
      cases source.client <;> simpa using hlt
    · obtain ⟨i, c, hc, hrun⟩ := h.reported hactive hnone
      have hi : source.client = some i := hclient.symm.trans (h.only i c hc hrun).1
      refine ⟨i, { c with freshnessSeconds := seconds }, ?_, hrun⟩
      simp [hi, hc]
    · exact hclient.symm.trans (h.stopped hstate)

/-- A signal changes the state and the counters alone. -/
theorem record_frame (m : NewsManager κ) (signals : List NewsSignal) :
    (signals.foldl NewsManager.record m).source = m.source ∧
      (signals.foldl NewsManager.record m).clients = m.clients ∧
      (signals.foldl NewsManager.record m).stopping = m.stopping := by
  induction signals generalizing m with
  | nil => exact ⟨rfl, rfl, rfl⟩
  | cons s signals ih =>
    obtain ⟨hsource, hclients, hstopping⟩ := ih (m.record s)
    have hone : (m.record s).source = m.source ∧ (m.record s).clients = m.clients ∧
        (m.record s).stopping = m.stopping := by
      cases s <;> unfold NewsManager.record <;> (try split_ifs) <;> exact ⟨rfl, rfl, rfl⟩
    exact ⟨hsource.trans hone.1, hclients.trans hone.2.1, hstopping.trans hone.2.2⟩

theorem NewsFeedInv.client (h : NewsFeedInv m) {i : ℕ} {c c' : NewsClient} {signals : List NewsSignal}
    {e : ClientEvent} (hc : m.clients[i]? = some c) (hstep : c.step e = some (c', signals)) :
    NewsFeedInv (signals.foldl NewsManager.record (m.setClient i c')) := by
  obtain ⟨hrun, hstepped⟩ := client_stepped hstep
  obtain ⟨hclient, hactive⟩ := h.only i c hc hrun
  obtain ⟨hsource, hclients, hstopping⟩ := record_frame (m.setClient i c') signals
  generalize hm' : signals.foldl NewsManager.record (m.setClient i c') = m' at hsource hclients hstopping ⊢
  have hclient' : m'.client = some i := by
    unfold NewsManager.client
    rw [hsource]
    exact hclient
  have hlt : i < m.clients.length := (List.getElem?_eq_some_iff.mp hc).1
  have hother : ∀ (j : ℕ) (d : NewsClient), m'.clients[j]? = some d → d.phase ≠ .ended → j = i ∧ d = c' := by
    intro j d hd hdrun
    rw [hclients] at hd
    rcases Indexed.of_set hd with heq | ⟨hne, hd⟩
    · exact heq
    · have hj := (h.only j d hd hdrun).1
      exact (hne (Option.some.inj (hj.symm.trans hclient))).elim
  have hwaits : ∀ j, m'.stopping = some j → m'.client = some j ∧ j < m'.clients.length := by
    intro j hj
    rw [hstopping] at hj
    obtain ⟨hj', -, hltj⟩ := h.stopping j hj
    refine ⟨hclient'.trans (hclient.symm.trans hj'), ?_⟩
    rw [hclients]
    simpa [NewsManager.setClient] using hltj
  have hne_stopped : ∀ {s : NewsState}, s.active → s ≠ .stopped := by
    rintro s hs rfl
    cases hs
  cases hstepped with
  | goesOn hon hstop hcancel hkeeps =>
    have hactive' : m'.state.active := hm' ▸ hkeeps (m.setClient i c') hactive
    refine ⟨fun j d hd hdrun => ?_, fun j d hd hdrun htold => ?_,
      fun j hj => ⟨(hwaits j hj).1, hne_stopped hactive', (hwaits j hj).2⟩, fun _ _ => ?_,
      fun hs => (hne_stopped hactive' hs).elim⟩
    · rw [(hother j d hd hdrun).1]
      exact ⟨hclient', hactive'⟩
    · obtain ⟨rfl, rfl⟩ := hother j d hd hdrun
      rw [hstop, hcancel] at htold
      exact hstopping.trans (h.told j c hc hrun htold)
    · refine ⟨i, c', ?_, hon⟩
      rw [hclients]
      simp [NewsManager.setClient, hlt]
  | ends hended hnil htold =>
    subst hnil
    have hstate : m'.state = m.state := by rw [← hm']; rfl
    have hwait : m'.stopping = some i := hstopping.trans (h.told i c hc hrun htold)
    refine ⟨fun j d hd hdrun => ?_, fun j d hd hdrun _ => ?_,
      fun j hj => ⟨(hwaits j hj).1, hne_stopped (hstate ▸ hactive), (hwaits j hj).2⟩, fun _ hnone => ?_,
      fun hs => (hne_stopped (hstate ▸ hactive) hs).elim⟩
    · exact (hdrun ((hother j d hd hdrun).2 ▸ hended)).elim
    · exact (hdrun ((hother j d hd hdrun).2 ▸ hended)).elim
    · rw [hwait] at hnone
      cases hnone
  | rejected detail hended hreject =>
    subst hreject
    have hstate : m'.state = .error := by rw [← hm']; rfl
    refine ⟨fun j d hd hdrun => ?_, fun j d hd hdrun _ => ?_,
      fun j hj => ⟨(hwaits j hj).1, by rw [hstate]; decide, (hwaits j hj).2⟩, fun hactive' _ => ?_,
      fun hs => ?_⟩
    · exact (hdrun ((hother j d hd hdrun).2 ▸ hended)).elim
    · exact (hdrun ((hother j d hd hdrun).2 ▸ hended)).elim
    · rw [hstate] at hactive'
      cases hactive'
    · rw [hstate] at hs
      cases hs

def NewsManager.running (m : NewsManager κ) : List ℕ :=
  (List.range m.clients.length).filter fun i => m.clients[i]?.any fun c => c.phase ≠ .ended

/-- A `stop` is between the end of the loop it cancelled and its own. -/
def NewsManager.joining (m : NewsManager κ) : Bool :=
  m.stopping.any fun i => m.clients[i]?.any fun c => c.phase = .ended

theorem mem_running {i : ℕ} : i ∈ m.running ↔ ∃ c : NewsClient, m.clients[i]? = some c ∧ c.phase ≠ .ended := by
  simp only [NewsManager.running, List.mem_filter, List.mem_range, Option.any_eq_true, decide_eq_true_eq]
  constructor
  · rintro ⟨-, c, hc, hrun⟩
    exact ⟨c, hc, hrun⟩
  · rintro ⟨c, hc, hrun⟩
    exact ⟨(List.getElem?_eq_some_iff.mp hc).1, c, hc, hrun⟩

theorem running_nodup (m : NewsManager κ) : m.running.Nodup := List.nodup_range.filter _

theorem NewsFeedInv.running_idle (h : NewsFeedInv m) (hidle : m.state.active = false) : m.running = [] := by
  refine List.eq_nil_iff_forall_not_mem.mpr fun i hi => ?_
  obtain ⟨c, hc, hrun⟩ := mem_running.mp hi
  exact hrun (h.idle hidle hc)

/-- An active manager outside a `stop` has the one loop. -/
theorem NewsFeedInv.running_one (h : NewsFeedInv m) (hactive : m.state.active) (hlock : m.stopping = none) :
    m.running.length = 1 := by
  obtain ⟨i, c, hc, hrun⟩ := h.reported hactive hlock
  have hall : ∀ j ∈ m.running, j = i := by
    intro j hj
    obtain ⟨d, hd, hdrun⟩ := mem_running.mp hj
    exact Option.some.inj ((h.only j d hd hdrun).1.symm.trans (h.only i c hc hrun).1)
  have hmem : i ∈ m.running := mem_running.mpr ⟨c, hc, hrun⟩
  have hperm : m.running.Perm [i] := by
    refine (List.perm_ext_iff_of_nodup (running_nodup m) (List.nodup_singleton i)).mpr fun j => ?_
    rw [List.mem_singleton]
    exact ⟨hall j, fun hj => hj ▸ hmem⟩
  exact hperm.length_eq

variable [BEq κ]

def NewsManagerStep (configs : NewsConfigs κ) (m : NewsManager κ) (e : NewsManagerEvent κ)
    (m' : NewsManager κ) : Prop :=
  m.step configs e = some m'

/-- No start takes up a source that still has a client while no client runs. -/
def NewsManager.restarts (m : NewsManager κ) : NewsManagerEvent κ → Bool
  | .start config _ => m.restartable config
  | _ => true

theorem newsFeedInv_step {e : NewsManagerEvent κ} (h : NewsFeedInv m) (he : m.restarts e = true)
    (hstep : NewsManagerStep configs m e m') : NewsFeedInv m' := by
  unfold NewsManagerStep at hstep
  cases e with
  | start config secret =>
    obtain ⟨hlock, heq⟩ := Option.ite_none_right_eq_some.mp hstep
    cases heq
    exact h.start configs he hlock secret
  | stop =>
    obtain ⟨-, heq⟩ := Option.ite_none_right_eq_some.mp hstep
    cases heq
    exact h.stop.1
  | joined =>
    simp only [NewsManager.step] at hstep
    cases hi : m.stopping with
    | none =>
      rw [hi] at hstep
      cases hstep
    | some i =>
      rw [hi] at hstep
      obtain ⟨hended, heq⟩ := Option.ite_none_right_eq_some.mp hstep
      cases heq
      exact h.joined hi hended
  | applyFreshness seconds =>
    cases hstep
    exact h.applyFreshness seconds
  | client i event =>
    simp only [NewsManager.step] at hstep
    cases hc : m.clients[i]? with
    | none =>
      rw [hc] at hstep
      cases hstep
    | some c =>
      rw [hc] at hstep
      obtain ⟨r, hr, rfl⟩ := Option.map_eq_some_iff.mp hstep
      exact h.client hc hr

/-- What the manager reports is so, and a start or stop does what it is for. -/
structure FeedAlive (configs : NewsConfigs κ) (m : NewsManager κ) : Prop where
  reported : m.state.active → m.joining = false → m.running ≠ []
  started : ∀ config secret, m.stopping = none → (m.start configs config secret).2 = .ok () →
    ((m.start configs config secret).1.running.length = 1 ↔ m.restartable config = true)
  stopped : ∀ m', m.step configs .stop = some m' ∧ m'.stopping = none ∨
    m.step configs .joined = some m' → m'.running = []

theorem NewsFeedInv.alive (h : NewsFeedInv m) : FeedAlive configs m := by
  refine ⟨fun hactive hjoin hnil => ?_, fun config secret hlock hok => ?_, fun m' hm' => ?_⟩
  · cases hwait : m.stopping with
    | none =>
      have hone := h.running_one hactive hwait
      rw [hnil] at hone
      cases hone
    | some i =>
      obtain ⟨-, -, hlt⟩ := h.stopping i hwait
      have hrun : i ∈ m.running := by
        refine mem_running.mpr ⟨_, List.getElem?_eq_getElem hlt, fun hended => ?_⟩
        simp [NewsManager.joining, hwait, hlt, hended] at hjoin
      rw [hnil] at hrun
      cases hrun
  · constructor
    · intro hone
      have hstarted := start_started configs m config secret
      generalize m.start configs config secret = r at hstarted hok hone
      cases hstarted with
      | active hactive => simp [NewsManager.restartable, hactive]
      | invalid _ => cases hok
      | failed _ _ _ _ => cases hok
      | @tookUp m₁ hidle _ hclients =>
        have hsame : m₁.running = m.running := by
          unfold NewsManager.running
          rw [hclients]
        rw [hsame, h.running_idle hidle] at hone
        cases hone
      | fresh c _ hre _ _ _ _ _ _ _ => exact hre
    · intro hre
      have hinv := h.start configs hre hlock secret
      have hstarted := start_started configs m config secret
      generalize m.start configs config secret = r at hstarted hok hinv ⊢
      cases hstarted with
      | active hactive => exact h.running_one hactive hlock
      | invalid _ => cases hok
      | failed _ _ _ _ => cases hok
      | tookUp _ hnot _ =>
        rw [hre] at hnot
        cases hnot
      | fresh c _ _ _ _ _ _ _ hstopping hstate =>
        refine hinv.running_one ?_ (hstopping.trans hlock)
        rw [hstate]
        rfl
  · rcases hm' with ⟨hstop, hnone⟩ | hjoined
    · obtain ⟨-, heq⟩ := Option.ite_none_right_eq_some.mp hstop
      cases heq
      refine h.stop.1.running_idle ?_
      rw [h.stop.2 hnone]
      rfl
    · have hinv : NewsFeedInv m' := newsFeedInv_step (e := .joined) h rfl hjoined
      refine hinv.running_idle ?_
      simp only [NewsManager.step] at hjoined
      cases hi : m.stopping with
      | none =>
        rw [hi] at hjoined
        cases hjoined
      | some i =>
        rw [hi] at hjoined
        obtain ⟨-, heq⟩ := Option.ite_none_right_eq_some.mp hjoined
        cases heq
        rfl

/-- Over every run in which no start takes up a rejected client's source, the state
the manager reports is that of its one loop, and after a stop there is none; and a
start from there leaves exactly one just where it does not do so either. -/
theorem news_feed_alive {es : List (NewsManagerEvent κ)}
    (h : Run (guarded (fun m e => m.restarts e = true) (NewsManagerStep configs)) {} es m) :
    FeedAlive configs m := by
  have hboot : NewsFeedInv ({} : NewsManager κ) :=
    newsFeedInv_idle (fun i c hc => by simp at hc) rfl rfl fun _ => rfl
  have hinv : NewsFeedInv m := h.invariant (fun _ _ _ hi hstep => newsFeedInv_step hi hstep.1 hstep.2) hboot
  exact hinv.alive

def windows : NewsConfigs ℤ := ⟨.ok, fun _ seconds => seconds⟩

def rejectedStart : List (NewsManagerEvent ℤ) :=
  [.start 1800 (.ok ()), .client 0 .begin, .client 0 (.rejected "HTTP 401")]

/-- A stop clears the source's client before the next start, and a drop follows. -/
def restarted : List (NewsManagerEvent ℤ) :=
  rejectedStart ++ [.stop, .start 1800 (.ok ()), .client 1 .begin, .client 1 .opened, .client 1 .dropped]

theorem news_feed_alive_sample :
    ∃ m, Run (NewsManagerStep windows) {} restarted m ∧ m.state.active = true ∧ m.running ≠ [] := by
  have hsome : (restarted.foldlM (fun m e => if NewsManager.restarts m e then m.step windows e else none)
      {}).isSome = true := by
    decide +kernel
  obtain ⟨m, hm⟩ := Option.isSome_iff_exists.mp hsome
  have hread : (restarted.foldlM (fun m e => if NewsManager.restarts m e then m.step windows e else none)
      {}).map (fun m => (m.state.active, m.joining)) = some (true, false) := by
    decide +kernel
  rw [hm] at hread
  simp only [Option.map_some, Option.some.injEq, Prod.mk.injEq] at hread
  have hrun : Run (guarded (fun m e => NewsManager.restarts m e = true) (NewsManagerStep windows)) {}
      restarted m := run_checkedM hm
  exact ⟨m, hrun.mono fun _ _ _ hstep => hstep.2, hread.1,
    (news_feed_alive hrun).reported hread.1 hread.2⟩

def restartedAtOnce : List (NewsManagerEvent ℤ) := rejectedStart ++ [.start 1800 (.ok ())]

/-- It reports connecting, and nothing runs that could ever change that. -/
theorem restart_reports_no_loop :
    ∃ m, Run (NewsManagerStep windows) {} restartedAtOnce m ∧ m.state = .connecting ∧
      m.stopping = none ∧ m.running = [] := by
  have hsome : (restartedAtOnce.foldlM (NewsManager.step windows) {}).isSome = true := by decide +kernel
  obtain ⟨m, hm⟩ := Option.isSome_iff_exists.mp hsome
  have hread : (restartedAtOnce.foldlM (NewsManager.step windows) {}).map (fun m =>
      (m.state, m.stopping, m.running)) = some (.connecting, none, []) := by
    decide +kernel
  rw [hm] at hread
  simp only [Option.map_some, Option.some.injEq, Prod.mk.injEq] at hread
  exact ⟨m, run_foldlM _ hm, hread⟩

end OpenPoly
