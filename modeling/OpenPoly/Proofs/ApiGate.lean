import OpenPoly.Lib.Run
import OpenPoly.Proofs.Host
import OpenPoly.Spec.ApiGate

/-! Who gets through to a route that changes anything: no one without the token while the
mode is live, no one at all while the token does not resolve, and after a rotation of
the secret only those with the new value. -/

namespace OpenPoly

open Transition

variable {env : ProcessEnv} {store : StoreHandle} {supplied : Option PyStr} {expected : PyStr}

theorem usableToken_some {value : PyJson} :
    usableToken value = .ok (some expected) ↔ value = .str expected ∧ expected.strip ≠ [] := by
  cases value with
  | str text =>
    simp only [usableToken, Except.ok.injEq, PyJson.str.injEq]
    by_cases hblank : text.strip = []
    · rw [if_pos hblank]
      refine ⟨nofun, ?_⟩
      rintro ⟨rfl, hne⟩
      exact absurd hblank hne
    · rw [if_neg hblank, Option.some.injEq]
      refine ⟨?_, And.left⟩
      rintro rfl
      exact ⟨rfl, hblank⟩
  | _ => simp [usableToken]

/-- A token that is taken for one is never blank. -/
theorem resolved_nonblank (h : resolveApiToken env store = .ok (some expected)) : expected.strip ≠ [] := by
  unfold resolveApiToken at h
  dsimp only at h
  by_cases hraw : env.rawTokenSetting = []
  · rw [if_pos hraw] at h
    cases h
  rw [if_neg hraw] at h
  by_cases href : isSecretRef env.rawTokenSetting = true
  · rw [if_pos href] at h
    cases hresolve : resolve env store env.rawTokenSetting with
    | ok value =>
      rw [hresolve] at h
      exact (usableToken_some.mp h).2
    | error fail =>
      rw [hresolve] at h
      cases fail with
      | secretsError message => cases h
      | raised exc =>
        dsimp only at h
        split_ifs at h
        cases h
  · rw [if_neg href] at h
    exact (usableToken_some.mp h).2

theorem tokensMatch_true {given : PyStr} :
    tokensMatch given expected = .ok true ↔ given = expected ∧ expected.encodable = true := by
  unfold tokensMatch
  by_cases hboth : (given.encodable && expected.encodable) = true
  · rw [if_pos hboth]
    simp only [Except.ok.injEq, decide_eq_true_eq]
    exact ⟨fun heq => ⟨heq, (Bool.and_eq_true_iff.mp hboth).2⟩, And.left⟩
  · rw [if_neg hboth]
    refine ⟨nofun, ?_⟩
    rintro ⟨rfl, hencodable⟩
    exact absurd (by rw [hencodable]; rfl) hboth

/-- With a token configured, a header passes just where it is the one that resolves. -/
theorem requireApiToken_ok (hconfigured : env.apiTokenConfigured = true) :
    requireApiToken env store supplied = .ok () ↔
      ∃ token, resolveApiToken env store = .ok (some token) ∧ token.encodable = true ∧ supplied = some token := by
  unfold requireApiToken
  rw [hconfigured, Bool.not_true, if_neg Bool.false_ne_true]
  cases hresolve : resolveApiToken env store with
  | error exc => simp
  | ok resolved =>
    cases resolved with
    | none => simp [invalidApiToken, refuse]
    | some token =>
      cases supplied with
      | none => simp [invalidApiToken, refuse]
      | some given =>
        dsimp only
        have hmatch : tokensMatch given token = .ok true ↔ given = token ∧ token.encodable = true := tokensMatch_true
        cases htokens : tokensMatch given token with
        | error exc =>
          rw [htokens] at hmatch
          simp only [Except.ok.injEq, Option.some.injEq]
          refine ⟨nofun, ?_⟩
          rintro ⟨token', rfl, hencodable, rfl⟩
          exact absurd (hmatch.mpr ⟨rfl, hencodable⟩) nofun
        | ok same =>
          rw [htokens] at hmatch
          simp only [Except.ok.injEq] at hmatch
          cases same with
          | true =>
            obtain ⟨rfl, hencodable⟩ := hmatch.mp rfl
            exact ⟨fun _ => ⟨given, rfl, hencodable, rfl⟩, fun _ => rfl⟩
          | false =>
            refine ⟨nofun, ?_⟩
            rintro ⟨token', htoken, hencodable, hgiven⟩
            cases htoken
            cases hgiven
            exact absurd (hmatch.mpr ⟨rfl, hencodable⟩) Bool.false_ne_true

theorem admitRequest_ok {route : Route} {r : ApiRequest} (h : admitRequest env store route r = .ok ()) :
    hostAllowed env.allowedHosts (r.headers.host.getD []) = true ∧
      crossOriginWriteRefusal env.allowedHosts route.method r.headers = none ∧
      (route.guarded = true → requireApiToken env store r.token = .ok ()) := by
  unfold admitRequest hostAllowlistMiddleware at h
  dsimp only at h
  by_cases hhost : hostAllowed env.allowedHosts (r.headers.host.getD []) = true
  · rw [hhost, Bool.not_true, if_neg Bool.false_ne_true] at h
    cases hrefusal : crossOriginWriteRefusal env.allowedHosts route.method r.headers with
    | some refusal =>
      rw [hrefusal] at h
      cases h
    | none =>
      rw [hrefusal] at h
      refine ⟨hhost, rfl, ?_⟩
      intro hguarded
      rwa [if_pos hguarded] at h
  · rw [Bool.not_eq_true] at hhost
    rw [hhost] at h
    cases h

def SwitchPhase.modes : SwitchPhase → List ExecMode
  | .admitted target => [target]
  | .checked target _ => [target]
  | .ready target _ => [target]
  | .saving target prev _ => [target, prev]
  | _ => []

def ModeDesk.Touches (s : ModeDesk) (m : ExecMode) : Prop :=
  s.proc.state.execMode = m ∨ ∃ r, m ∈ (s.switches r).modes

section
variable {s t : ModeDesk} {m : ExecMode} {e : ModeEvent}

theorem ModeDesk.Touches.same (h : t.Touches m) (hstate : t.proc.state = s.proc.state)
    (hswitches : t.switches = s.switches) : s.Touches m := by
  unfold ModeDesk.Touches at h ⊢
  rwa [hstate, hswitches] at h

theorem touches_setSwitch {r : ℕ} {phase : SwitchPhase} (h : (s.setSwitch r phase).Touches m) :
    s.Touches m ∨ m ∈ phase.modes := by
  rcases h with hmode | ⟨r', hr'⟩
  · exact .inl (.inl hmode)
  · have hupdate : (s.setSwitch r phase).switches r' = Function.update s.switches r phase r' := rfl
    rw [hupdate] at hr'
    by_cases heq : r' = r
    · subst heq
      rw [Function.update_self] at hr'
      exact .inr hr'
    · rw [Function.update_of_ne heq] at hr'
      exact .inl (.inr ⟨r', hr'⟩)

theorem save_state {b b' : Backend} {outage : Option PyErr} (h : b.save outage = .ok b') : b'.state = b.state := by
  unfold Backend.save at h
  cases outage with
  | some exc => cases h
  | none =>
    cases h
    rfl

theorem handOver_state {b b' : Backend} {target : ExecMode} {p : Probe} (h : b.handOver target p = .ok b') :
    b'.state = b.state ∧ b'.file = b.file := by
  unfold Backend.handOver at h
  cases target with
  | paper =>
    cases h
    exact ⟨rfl, rfl⟩
  | live =>
    cases hvalid : validateLive b.state.wallet p with
    | error fail =>
      rw [hvalid] at h
      cases h
    | ok wallet =>
      rw [hvalid] at h
      cases h
      exact ⟨rfl, rfl⟩

def ModeEvent.trades : ModeEvent → Bool
  | .dispatch _ => true
  | .act _ _ => true
  | .write _ _ => true
  | .abandon _ => true
  | .dispose _ _ => true
  | _ => false

theorem opens_keeps {executor : Executor} {a : OpenArgs} (h : s.opens executor a = some t) :
    t.switches = s.switches ∧ t.proc.state = s.proc.state ∧ t.proc.file = s.proc.file := by
  unfold ModeDesk.opens at h
  split at h
  · cases h
  · cases h
    exact ⟨rfl, rfl, rfl⟩

theorem trades_keep (he : e.trades = true) (h : modeStep s e = some t) :
    t.switches = s.switches ∧ t.proc.state = s.proc.state ∧ t.proc.file = s.proc.file := by
  cases e with
  | dispatch k =>
    simp only [modeStep] at h
    split at h
    · split at h
      · cases h
        exact ⟨rfl, rfl, rfl⟩
      · cases h
        exact ⟨rfl, rfl, rfl⟩
    · cases h
  | act k c =>
    simp only [modeStep] at h
    split at h
    · split at h
      · cases h
        exact ⟨rfl, rfl, rfl⟩
      · cases h
        exact ⟨rfl, rfl, rfl⟩
    · cases h
  | write k outage =>
    simp only [modeStep] at h
    split at h
    · next executor a _ =>
      cases outage with
      | some exc =>
        cases h
        cases executor.retries exc <;> exact ⟨rfl, rfl, rfl⟩
      | none =>
        dsimp only at h
        cases hopens : s.opens executor a with
        | none =>
          rw [hopens] at h
          cases h
          exact ⟨rfl, rfl, rfl⟩
        | some u =>
          rw [hopens] at h
          cases h
          obtain ⟨hswitches, hstate, hfile⟩ := opens_keeps hopens
          exact ⟨hswitches, hstate, hfile⟩
    · cases h
  | abandon k =>
    cases h
    exact ⟨rfl, rfl, rfl⟩
  | dispose d outage =>
    cases h
    exact ⟨rfl, rfl, rfl⟩
  | request => cases he
  | check => cases he
  | validate => cases he
  | flip => cases he
  | save => cases he

theorem request_touches {r : ℕ} {target : ExecMode} {tokenOk : Bool}
    (h : modeStep s (.request r target tokenOk) = some t) (ht : t.Touches m) :
    s.Touches m ∨ target = m ∧ admitSwitch s.proc.state m tokenOk = none := by
  simp only [modeStep] at h
  split at h
  · cases hpass : admitSwitch s.proc.state target tokenOk with
    | some answer =>
      rw [hpass] at h
      cases h
      exact .inl ((touches_setSwitch ht).resolve_right (List.not_mem_nil))
    | none =>
      rw [hpass] at h
      cases h
      refine (touches_setSwitch ht).imp_right fun hm => ?_
      cases List.mem_singleton.mp hm
      exact ⟨rfl, hpass⟩
  · cases h

theorem check_touches {r : ℕ} (h : modeStep s (.check r) = some t) (ht : t.Touches m) : s.Touches m := by
  simp only [modeStep] at h
  split at h
  · next target hphase =>
    have htarget : ∀ phase : SwitchPhase, phase.modes ⊆ [target] → (s.setSwitch r phase).Touches m →
        s.Touches m := by
      intro phase hsub hphase'
      rcases touches_setSwitch hphase' with hs | hm
      · exact hs
      · exact .inr ⟨r, by rw [hphase]; exact hsub hm⟩
    split at h
    · cases h
      exact htarget _ (List.nil_subset _) ht
    · cases h
      exact htarget _ (List.Subset.refl _) ht
  · cases h

theorem validate_touches {r : ℕ} {p : Probe} (h : modeStep s (.validate r p) = some t) (ht : t.Touches m) :
    s.Touches m := by
  simp only [modeStep] at h
  split at h
  · next target seen hphase =>
    split at h
    · cases h
      exact (touches_setSwitch ht).resolve_right List.not_mem_nil
    · next proc hproc =>
      cases h
      rcases touches_setSwitch ht with hs | hm
      · exact hs.same (handOver_state hproc).1 rfl
      · exact .inr ⟨r, by rw [hphase]; exact hm⟩
  · cases h

theorem flip_touches {r : ℕ} (h : modeStep s (.flip r) = some t) (ht : t.Touches m) : s.Touches m := by
  simp only [modeStep] at h
  split at h
  · next target seen hphase =>
    cases h
    have hready : target ∈ (s.switches r).modes := by
      rw [hphase]
      exact List.mem_singleton_self _
    rcases touches_setSwitch ht with (hmode | hswitch) | hm
    · exact .inr ⟨r, hmode ▸ hready⟩
    · exact .inr hswitch
    · rcases List.mem_pair.mp hm with rfl | rfl
      · exact .inr ⟨r, hready⟩
      · exact .inl rfl
  · cases h

theorem save_touches {r : ℕ} {outage : Option PyErr} (h : modeStep s (.save r outage) = some t)
    (ht : t.Touches m) : s.Touches m := by
  simp only [modeStep] at h
  split at h
  · next target prev seen hphase =>
    split at h
    · next proc hsave =>
      cases h
      have hs := (touches_setSwitch ht).resolve_right List.not_mem_nil
      exact hs.same (save_state hsave) rfl
    · cases h
      rcases (touches_setSwitch ht).resolve_right List.not_mem_nil with hmode | hswitch
      · refine .inr ⟨r, ?_⟩
        rw [hphase, ← hmode]
        exact List.mem_cons_of_mem _ (List.mem_singleton_self _)
      · exact .inr hswitch
  · cases h

/-- A mode comes into play only by a request that is admitted for it. -/
theorem modeStep_touches (h : modeStep s e = some t) (ht : t.Touches m) :
    s.Touches m ∨ ∃ r tokenOk, e = .request r m tokenOk ∧ admitSwitch s.proc.state m tokenOk = none := by
  have htrade : e.trades = true → s.Touches m := fun he =>
    let hkeep := trades_keep he h
    ht.same hkeep.2.1 hkeep.1
  cases e with
  | request r target tokenOk =>
    refine (request_touches h ht).imp_right ?_
    rintro ⟨rfl, hpass⟩
    exact ⟨r, tokenOk, rfl, hpass⟩
  | check r => exact .inl (check_touches h ht)
  | validate r p => exact .inl (validate_touches h ht)
  | flip r => exact .inl (flip_touches h ht)
  | save r outage => exact .inl (save_touches h ht)
  | dispatch k => exact .inl (htrade rfl)
  | act k c => exact .inl (htrade rfl)
  | write k outage => exact .inl (htrade rfl)
  | abandon k => exact .inl (htrade rfl)
  | dispose d outage => exact .inl (htrade rfl)

def ModeDesk.Quiet (s : ModeDesk) : Prop := ∀ r, (s.switches r).modes = []

/-- With no switch under way, none goes on. -/
theorem modeStep_quiet (hquiet : s.Quiet) (he : ∀ r target tokenOk, e ≠ .request r target tokenOk)
    (h : modeStep s e = some t) :
    t.switches = s.switches ∧ t.proc.state = s.proc.state ∧ t.proc.file = s.proc.file := by
  have hno : ∀ {r : ℕ} {phase : SwitchPhase}, s.switches r = phase → phase.modes = [] := by
    rintro r phase rfl
    exact hquiet r
  cases e with
  | request r target tokenOk => exact absurd rfl (he r target tokenOk)
  | check r =>
    simp only [modeStep] at h
    split at h
    · next hphase => cases hno hphase
    · cases h
  | validate r p =>
    simp only [modeStep] at h
    split at h
    · next hphase => cases hno hphase
    · cases h
  | flip r =>
    simp only [modeStep] at h
    split at h
    · next hphase => cases hno hphase
    · cases h
  | save r outage =>
    simp only [modeStep] at h
    split at h
    · next hphase => cases hno hphase
    · cases h
  | dispatch k => exact trades_keep rfl h
  | act k c => exact trades_keep rfl h
  | write k outage => exact trades_keep rfl h
  | abandon k => exact trades_keep rfl h
  | dispose d outage => exact trades_keep rfl h

end

abbrev ApiRuns (repr : Json → String) (start : ApiSite) (es : List ApiEvent) (s : ApiSite) : Prop :=
  Run (fun s e t => ApiSite.step repr s e = some t) start es s

section
variable {repr : Json → String} {s t : ApiSite} {e : ApiEvent}

/-- The mode is live, or may still be set to live, only with a token configured. -/
def TokenForLive (s : ApiSite) : Prop := s.desk.Touches .live → s.env.apiTokenConfigured = true

theorem apiTokenOk_true (h : apiTokenOk env store = .ok true) : env.apiTokenConfigured = true := by
  unfold apiTokenOk at h
  by_cases hconfigured : env.apiTokenConfigured = true
  · exact hconfigured
  · rw [if_neg hconfigured] at h
    cases h

theorem start_touches {proc : Backend} {buyers : ℕ → Option Executor} {m : ExecMode}
    (h : (ModeDesk.start proc buyers).Touches m) : proc.state.execMode = m := by
  rcases h with hmode | ⟨r, hr⟩
  · exact hmode
  · cases hr

theorem TokenForLive.boot {b : ApiBoot} (h : s.boot repr b = some t) : TokenForLive t := by
  intro hlive
  unfold ApiSite.boot at h
  cases htoken : b.tokenOk repr s.desk.proc.file with
  | error exc =>
    rw [htoken] at h
    cases h
  | ok tokenOk =>
    rw [htoken] at h
    dsimp only at h
    cases hboot : OpenPoly.boot repr s.desk.proc.db s.desk.proc.file ⟨tokenOk, b.saveOutage, b.build⟩ with
    | error exc =>
      rw [hboot] at h
      cases h
    | ok proc =>
      rw [hboot] at h
      cases h
      obtain ⟨state, hload, hstate, hok, -⟩ := boot_live hboot (start_touches hlive)
      unfold ApiBoot.tokenOk at htoken
      rw [hload, if_pos (by simp [Except.toOption, hstate])] at htoken
      cases hok
      exact apiTokenOk_true htoken

theorem TokenForLive.desk {desk : ModeDesk} {e : ModeEvent} (hs : TokenForLive s) (h : modeStep s.desk e = some desk)
    (hrequest : ∀ r tokenOk, e = .request r .live tokenOk → admitSwitch s.desk.proc.state .live tokenOk = none →
      s.env.apiTokenConfigured = true) :
    TokenForLive { s with desk := desk } := by
  intro hlive
  rcases modeStep_touches h hlive with hold | ⟨r, tokenOk, he, hpass⟩
  · exact hs hold
  · exact hrequest r tokenOk he hpass

theorem TokenForLive.beginSwitch {k : ℕ} {target : ExecMode} (hs : TokenForLive s)
    (h : s.beginSwitch k target = some t) : TokenForLive t := by
  unfold ApiSite.beginSwitch at h
  dsimp only at h
  by_cases hlive : target = .live ∧ target ≠ s.desk.proc.state.execMode
  · rw [if_pos hlive] at h
    cases htoken : apiTokenOk s.env s.store with
    | error exc =>
      rw [htoken] at h
      cases h
      exact hs
    | ok ok =>
      rw [htoken] at h
      obtain ⟨desk, hdesk, rfl⟩ := Option.map_eq_some_iff.mp h
      have hstep := TokenForLive.desk hs hdesk
      refine hstep ?_
      rintro r tokenOk he hpass
      cases he
      cases ok with
      | true => exact apiTokenOk_true htoken
      | false =>
        rw [admitSwitch, if_neg hlive.2, if_pos ⟨rfl, rfl⟩] at hpass
        cases hpass
  · rw [if_neg hlive] at h
    obtain ⟨desk, hdesk, rfl⟩ := Option.map_eq_some_iff.mp h
    have hstep := TokenForLive.desk hs hdesk
    refine hstep ?_
    rintro r tokenOk he hpass
    cases he
    have hmode : ExecMode.live = s.desk.proc.state.execMode := by
      by_contra hne
      exact hlive ⟨rfl, hne⟩
    rw [admitSwitch, if_pos hmode] at hpass
    cases hpass

theorem deskStep_some {e : ModeEvent} (h : s.step repr (.desk e) = some t) :
    ∃ desk, modeStep s.desk e = some desk ∧ t = { s with desk := desk } ∧
      ∀ r target tokenOk, e ≠ .request r target tokenOk := by
  simp only [ApiSite.step, ApiSite.deskStep] at h
  split at h
  · cases h
  · next hrequest =>
    obtain ⟨desk, hdesk, rfl⟩ := Option.map_eq_some_iff.mp h
    exact ⟨desk, hdesk, rfl, hrequest⟩

theorem tokenForLive_step (hs : TokenForLive s) (h : s.step repr e = some t) : TokenForLive t := by
  cases e with
  | boot b => exact TokenForLive.boot h
  | arrive k route r =>
    simp only [ApiSite.step] at h
    split at h
    · cases h
      unfold ApiSite.arrive
      split
      · exact hs
      · exact hs
    · cases h
  | setMode k =>
    simp only [ApiSite.step] at h
    split at h
    · exact TokenForLive.beginSwitch hs h
    · cases h
  | putWalletConfig k p outage =>
    simp only [ApiSite.step] at h
    split at h
    · cases h
      rintro (hmode | hswitch)
      · exact hs (.inl ((putWalletConfig_keeps _ _ _ _).2.1.symm.trans hmode))
      · exact hs (.inr hswitch)
    · cases h
  | createLocal k now faults =>
    simp only [ApiSite.step] at h
    split at h
    · cases h
      exact hs
    · cases h
  | deleteLocal k faults =>
    simp only [ApiSite.step] at h
    split at h
    · cases h
      exact hs
    · cases h
  | desk e =>
    obtain ⟨desk, hstep, rfl, hrequest⟩ := deskStep_some h
    exact TokenForLive.desk hs hstep fun r tokenOk he _ => absurd he (hrequest r .live tokenOk)

/-- In live mode, whatever requests, boots and changes of the secrets came before, a request
gets through to a route that changes anything only under an allowed host, from no foreign
page, and with the token: the one value, not blank, that the setting resolves to. -/
theorem live_behind_token {db : Db} {file : StateFile} {buyers : ℕ → Option Executor} {es : List ApiEvent}
    (h : ApiRuns repr (ApiSite.down db file buyers env store) es s) (hlive : s.desk.proc.state.execMode = .live)
    {route : Route} (hguarded : route.guarded = true) {r : ApiRequest}
    (hpass : admitRequest s.env s.store route r = .ok ()) :
    hostAllowed s.env.allowedHosts (r.headers.host.getD []) = true ∧
      crossOriginWriteRefusal s.env.allowedHosts route.method r.headers = none ∧
      ∃ token, resolveApiToken s.env s.store = .ok (some token) ∧ token.strip ≠ [] ∧ r.token = some token := by
  have hdown : TokenForLive (ApiSite.down db file buyers env store) := by
    intro htouches
    cases start_touches htouches
  have hs : TokenForLive s := Run.invariant (fun _ _ _ => tokenForLive_step) h hdown
  obtain ⟨hhost, hrefusal, htoken⟩ := admitRequest_ok hpass
  obtain ⟨token, hresolved, -, hsupplied⟩ := (requireApiToken_ok (hs (.inl hlive))).mp (htoken hguarded)
  exact ⟨hhost, hrefusal, token, hresolved, resolved_nonblank hresolved, hsupplied⟩

def literalToken (token : String) : ProcessEnv :=
  ⟨fun name => if name = PyStr.of "OPENPOLY_API_TOKEN" then some (PyStr.of token) else none, [], PyStr.shown⟩

def emptyStore : SecretStore := ⟨[], ⟨.missing, none⟩⟩

def localRequest (token : Option PyStr) : ApiRequest := ⟨⟨none, none, some "localhost:8000".toList⟩, token⟩

theorem live_behind_token_sample : ∃ s : ApiSite,
    ApiRuns (fun _ => "") (ApiSite.down ⟨[], []⟩ (.json (RuntimeState.payload ⟨.live, none⟩)) (fun _ => none)
      (literalToken "") (.ok emptyStore)) [.boot { env := literalToken "s3cret", store := .ok emptyStore }] s ∧
    s.desk.proc.state.execMode = .live ∧
    admitRequest s.env s.store .closeAll (localRequest none) ≠ .ok () ∧
    ∃ token, resolveApiToken s.env s.store = .ok (some token) ∧ some (PyStr.of "s3cret") = some token := by
  have hboot : ∃ s : ApiSite, ApiSite.boot (fun _ => "")
      (ApiSite.down ⟨[], []⟩ (.json (RuntimeState.payload ⟨.live, none⟩)) (fun _ => none) (literalToken "")
        (.ok emptyStore)) { env := literalToken "s3cret", store := .ok emptyStore } = some s ∧
      s.desk.proc.state.execMode = .live ∧ s.env = literalToken "s3cret" ∧ s.store = .ok emptyStore :=
    ⟨_, rfl, rfl, rfl, rfl⟩
  obtain ⟨s, hs, hlive, henv, hstore⟩ := hboot
  have hrun : ApiRuns (fun _ => "") (ApiSite.down ⟨[], []⟩ (.json (RuntimeState.payload ⟨.live, none⟩)) (fun _ => none)
      (literalToken "") (.ok emptyStore)) [.boot { env := literalToken "s3cret", store := .ok emptyStore }] s :=
    Run.single hs
  have hpass : admitRequest s.env s.store .closeAll (localRequest (some (PyStr.of "s3cret"))) = .ok () := by
    rw [henv, hstore]
    decide +kernel
  refine ⟨s, hrun, hlive, ?_, ?_⟩
  · rw [henv, hstore]
    decide +kernel
  · obtain ⟨-, -, token, hresolved, -, htoken⟩ := live_behind_token hrun hlive rfl hpass
    exact ⟨token, hresolved, htoken⟩

/-- A token is configured and no value of it is to be had. -/
def TokenLost (env : ProcessEnv) (store : StoreHandle) : Prop :=
  env.apiTokenConfigured = true ∧ resolveApiToken env store = .ok none

theorem requireApiToken_lost (h : TokenLost env store) : requireApiToken env store supplied = invalidApiToken := by
  unfold requireApiToken
  rw [h.1, h.2, Bool.not_true, if_neg Bool.false_ne_true]

/-- Nothing that changes the process is let through or under way. -/
structure NothingUnderWay (s : ApiSite) : Prop where
  requests : ∀ k route, s.requests k = .admitted route → route.guarded = false
  switches : s.desk.Quiet

/-- The process as it was, as far as the API can change it. -/
structure Untouched (s t : ApiSite) : Prop where
  env : t.env = s.env
  store : t.store = s.store
  state : t.desk.proc.state = s.desk.proc.state
  file : t.desk.proc.file = s.desk.proc.file

def ApiEvent.boots : ApiEvent → Bool
  | .boot _ => true
  | _ => false

theorem lost_refuses (hlost : TokenLost s.env s.store) {route : Route} (hguarded : route.guarded = true)
    (r : ApiRequest) : ∃ e : HttpError, admitRequest s.env s.store route r = .error (.refused e) ∧
      (e.statusCode = 421 ∨ e.statusCode = 403 ∨ e.statusCode = 401) := by
  unfold admitRequest hostAllowlistMiddleware
  dsimp only
  split_ifs with hhost
  · exact ⟨_, rfl, .inl rfl⟩
  · cases crossOriginWriteRefusal s.env.allowedHosts route.method r.headers with
    | some refusal => exact ⟨_, rfl, .inr (.inl rfl)⟩
    | none =>
      refine ⟨_, requireApiToken_lost hlost, .inr (.inr rfl)⟩

theorem lost_step (hlost : TokenLost s.env s.store) (hquiet : NothingUnderWay s) (he : e.boots = false)
    (h : s.step repr e = some t) : Untouched s t ∧ NothingUnderWay t := by
  have hno : ∀ {k : ℕ} {route : Route}, s.requests k = .admitted route → route.guarded = true → False := by
    intro k route hk hguarded
    rw [hquiet.requests k route hk] at hguarded
    cases hguarded
  cases e with
  | boot b => cases he
  | arrive k route r =>
    simp only [ApiSite.step] at h
    split at h
    · cases h
      have hset : ∀ phase : ApiPhase, (∀ route, phase = .admitted route → route.guarded = false) →
          Untouched s (s.setRequest k phase) ∧ NothingUnderWay (s.setRequest k phase) := by
        intro phase hphase
        refine ⟨⟨rfl, rfl, rfl, rfl⟩, ⟨?_, hquiet.switches⟩⟩
        intro k' route' hk'
        have hupdate : (s.setRequest k phase).requests k' = Function.update s.requests k phase k' := rfl
        rw [hupdate] at hk'
        by_cases heq : k' = k
        · subst heq
          rw [Function.update_self] at hk'
          exact hphase route' hk'
        · rw [Function.update_of_ne heq] at hk'
          exact hquiet.requests k' route' hk'
      unfold ApiSite.arrive
      cases hpass : admitRequest s.env s.store route r with
      | error fail => exact hset _ nofun
      | ok _ =>
        refine hset _ ?_
        intro route' hroute
        cases hroute
        by_contra hguarded
        rw [Bool.not_eq_false] at hguarded
        obtain ⟨e, hrefused, -⟩ := lost_refuses hlost hguarded r
        rw [hpass] at hrefused
        cases hrefused
    · cases h
  | setMode k =>
    simp only [ApiSite.step] at h
    split at h
    · next hk => exact (hno hk rfl).elim
    · cases h
  | putWalletConfig k p outage =>
    simp only [ApiSite.step] at h
    split at h
    · next hk => exact (hno hk rfl).elim
    · cases h
  | createLocal k now faults =>
    simp only [ApiSite.step] at h
    split at h
    · next hk => exact (hno hk rfl).elim
    · cases h
  | deleteLocal k faults =>
    simp only [ApiSite.step] at h
    split at h
    · next hk => exact (hno hk rfl).elim
    · cases h
  | desk e =>
    obtain ⟨desk, hstep, rfl, hrequest⟩ := deskStep_some h
    obtain ⟨hswitches, hstate, hfile⟩ := modeStep_quiet hquiet.switches hrequest hstep
    refine ⟨⟨rfl, rfl, hstate, hfile⟩, ⟨hquiet.requests, ?_⟩⟩
    intro r
    exact (congrArg (fun sw : ℕ → SwitchPhase => (sw r).modes) hswitches).trans (hquiet.switches r)

/-- A token that no longer resolves locks the API for the life of the process: its secret
cannot be put back either, and no request changes the mode, the wallet, their file or the
secrets, while trades go on. -/
theorem token_lockout {es : List ApiEvent} (hlost : TokenLost s.env s.store) (hquiet : NothingUnderWay s)
    (h : ApiRuns repr s es t) (hboots : ∀ e ∈ es, ApiEvent.boots e = false) :
    Untouched s t ∧ ∀ route : Route, route.guarded = true → ∀ r,
      ∃ e : HttpError, admitRequest t.env t.store route r = .error (.refused e) ∧
        (e.statusCode = 421 ∨ e.statusCode = 403 ∨ e.statusCode = 401) := by
  have hguarded := Run.guard (G := fun _ e => ApiEvent.boots e = false) h fun e he _ => hboots e he
  have hkept : ∀ u e v, (Untouched s u ∧ NothingUnderWay u) →
      ApiEvent.boots e = false ∧ ApiSite.step repr u e = some v → Untouched s v ∧ NothingUnderWay v := by
    rintro u e v ⟨hsame, hq⟩ ⟨he, hstep⟩
    have hlost' : TokenLost u.env u.store := by
      rw [hsame.env, hsame.store]
      exact hlost
    obtain ⟨hsame', hq'⟩ := lost_step hlost' hq he hstep
    exact ⟨⟨hsame'.env.trans hsame.env, hsame'.store.trans hsame.store, hsame'.state.trans hsame.state,
      hsame'.file.trans hsame.file⟩, hq'⟩
  have hend := Run.invariant hkept hguarded
  obtain ⟨hsame, -⟩ := hend ⟨⟨rfl, rfl, rfl, rfl⟩, hquiet⟩
  refine ⟨hsame, fun route hroute r => ?_⟩
  have hlost' : TokenLost t.env t.store := by
    rw [hsame.env, hsame.store]
    exact hlost
  exact lost_refuses hlost' hroute r

/-- A token kept in the store, under the name `api`. -/
def storedToken : ProcessEnv := literalToken "local:api"

/-- The secret of the token is gone, and a request would put it back. -/
def lockedSite : ApiSite := ApiSite.down ⟨[], []⟩ .missing (fun _ => none) storedToken (.ok emptyStore)

def putBack : ApiEvent :=
  .arrive 0 (.createLocal (PyStr.of "api") (PyStr.of "s3cret")) (localRequest (some (PyStr.of "s3cret")))

theorem token_lockout_sample : ∃ s : ApiSite, ApiRuns (fun _ => "") lockedSite [putBack] s ∧
    s.store = .ok emptyStore ∧ ∃ e : HttpError, admitRequest s.env s.store
      (.createLocal (PyStr.of "api") (PyStr.of "s3cret")) (localRequest (some (PyStr.of "s3cret"))) =
        .error (.refused e) := by
  have hquiet : NothingUnderWay lockedSite := ⟨nofun, fun _ => rfl⟩
  have hlost : TokenLost lockedSite.env lockedSite.store := ⟨by decide +kernel, by decide +kernel⟩
  have hrun : ∃ s, ApiRuns (fun _ => "") lockedSite [putBack] s := ⟨_, Run.single rfl⟩
  obtain ⟨s, hs⟩ := hrun
  have hboots : ∀ e ∈ [putBack], ApiEvent.boots e = false := by simp [putBack, ApiEvent.boots]
  obtain ⟨hsame, hrefuses⟩ := token_lockout hlost hquiet hs hboots
  obtain ⟨e, he, -⟩ := hrefuses (.createLocal (PyStr.of "api") (PyStr.of "s3cret")) rfl
    (localRequest (some (PyStr.of "s3cret")))
  exact ⟨s, hs, hsame.store, e, he⟩

end

section
variable {d : PyDict} {name other : PyStr} {x : PyJson} {store : SecretStore}

theorem at_assign_self : (d.assign name x).at? name = some x := by
  unfold PyDict.assign PyDict.at?
  split_ifs with hany
  · induction d with
    | nil => cases hany
    | cons kv d ih =>
      rw [List.map_cons, List.find?_cons]
      by_cases hkv : kv.1 = name
      · rw [if_pos hkv]
        simp [hkv]
      · rw [if_neg hkv]
        simpa [hkv] using ih (by simpa [hkv] using hany)
  · have hnone : d.find? (fun kv => kv.1 = name) = none := by
      rw [List.find?_eq_none]
      intro kv hkv heq
      exact hany (List.any_eq_true.mpr ⟨kv, hkv, heq⟩)
    rw [List.find?_append, hnone]
    simp

theorem at_assign_other (h : other ≠ name) : (d.assign other x).at? name = d.at? name := by
  unfold PyDict.assign PyDict.at?
  split_ifs with hany
  · induction d with
    | nil => rfl
    | cons kv d ih =>
      rw [List.map_cons, List.find?_cons, List.find?_cons]
      by_cases hkv : kv.1 = other
      · have hne : kv.1 ≠ name := by
          rw [hkv]
          exact h
        rw [if_pos hkv]
        simp only [hne, decide_false]
        by_cases hrest : (d.any fun kv => kv.1 = other) = true
        · exact ih hrest
        · have hsame : ∀ kv' ∈ d, (if kv'.1 = other then (kv'.1, x) else kv') = kv' := by
            intro kv' hkv'
            have hoff : kv'.1 ≠ other := fun heq => hrest (List.any_eq_true.mpr ⟨kv', hkv', by simpa using heq⟩)
            rw [if_neg hoff]
          rw [List.map_congr_left hsame, List.map_id']
      · rw [if_neg hkv]
        cases decide (kv.1 = name) with
        | true => rfl
        | false => exact ih (by simpa [hkv] using hany)
  · rw [List.find?_append]
    simp [h]

theorem at_remove_self : (d.remove name).at? name = none := by
  unfold PyDict.remove PyDict.at?
  have hnone : (d.filter fun kv => kv.1 ≠ name).find? (fun kv => kv.1 = name) = none := by
    rw [List.find?_eq_none]
    intro kv hkv
    simpa using (List.mem_filter.mp hkv).2
  rw [hnone]
  rfl

theorem at_remove_other (h : other ≠ name) : (d.remove other).at? name = d.at? name := by
  unfold PyDict.remove PyDict.at?
  rw [List.find?_filter]
  congr 2
  funext kv
  by_cases hkv : kv.1 = name
  · simp [hkv, h.symm]
  · simp [hkv]

theorem persist_cache (s : SecretStore) (faults : Faults) : (s.persist faults).1.cache = s.cache := rfl

/-- The store has this text under the name, or nothing. -/
def HoldsText (s : SecretStore) (name : PyStr) (held : Option PyStr) : Prop :=
  (held = none ∧ s.cache.at? name = none) ∨
    ∃ value created, held = some value ∧ s.cache.at? name = some (secretEntry value created)

/-- The text under the name after an operation on the stores. -/
def textAfter (name : PyStr) (held : Option PyStr) : StoreOp → Option PyStr
  | .setSecret _ (.str n) (.str value) _ => if n = name ∧ value ≠ [] then some value else held
  | .deleteSecret (.str n) _ => if n = name then none else held
  | _ => held

theorem validateName_str {n : PyStr} : validateName (.str n) = if validName n then .ok n else .error invalidName := rfl

theorem HoldsText.prepared {held : Option PyStr} (h : HoldsText store name held) (hname : validName name = true)
    (now : ℚ) {value : PyStr} (hvalue : value ≠ []) :
    ∃ created, store.prepare now (.str name) (.str value) = .ok (name, value, created) := by
  unfold SecretStore.prepare
  rw [validateName_str, if_pos hname]
  rcases h with ⟨-, hnone⟩ | ⟨old, created, -, hsome⟩
  · refine ⟨.float (.fin now), ?_⟩
    simp [hnone, createdAt, hvalue, bind, Except.bind, pure, Except.pure]
  · have hentry : createdAt now (some (secretEntry old created)) = .ok created := rfl
    refine ⟨created, ?_⟩
    simp [hsome, hentry, hvalue, bind, Except.bind, pure, Except.pure]

theorem prepare_ok {now : ℚ} {n value : PyJson} {key text : PyStr} {created : PyJson}
    (h : store.prepare now n value = .ok (key, text, created)) : n = .str key ∧ value = .str text ∧ text ≠ [] := by
  unfold SecretStore.prepare at h
  cases n with
  | str n =>
    rw [validateName_str] at h
    by_cases hvalid : validName n = true
    · rw [if_pos hvalid] at h
      cases value with
      | str value =>
        by_cases hempty : value = []
        · simp [hempty, bind, Except.bind] at h
        · cases hcreated : createdAt now (store.cache.at? n) with
          | error exc => simp [hempty, hcreated, bind, Except.bind] at h
          | ok created =>
            simp only [hempty, hcreated, bind, Except.bind, if_false] at h
            cases h
            exact ⟨rfl, rfl, hempty⟩
      | _ => cases h
    · rw [if_neg hvalid] at h
      cases h
  | _ => cases h

/-- Each operation leaves under the name what it says, even one whose write fails. -/
theorem HoldsText.step {s : Stores} {held : Option PyStr} (h : HoldsText s.secrets name held)
    (hname : validName name = true) (op : StoreOp) : HoldsText (s.step op).1.secrets name (textAfter name held op) := by
  cases op with
  | setMode mode persist faults => exact h
  | setWallet spec faults => exact h
  | setSecret now n value faults =>
    show HoldsText (s.secrets.set now n value faults).1 name _
    unfold SecretStore.set
    cases hprepare : s.secrets.prepare now n value with
    | error exc =>
      have hsame : textAfter name held (.setSecret now n value faults) = held := by
        unfold textAfter
        split
        · next heq =>
          cases heq
          rw [if_neg]
          rintro ⟨rfl, hvalue⟩
          obtain ⟨created, hok⟩ := h.prepared hname now hvalue
          rw [hok] at hprepare
          cases hprepare
        · next heq => cases heq
        · rfl
      rw [hsame]
      exact h
    | ok prepared =>
      obtain ⟨key, text, created⟩ := prepared
      obtain ⟨rfl, rfl, htext⟩ := prepare_ok hprepare
      by_cases hkey : key = name
      · subst hkey
        have hafter : textAfter key held (.setSecret now (.str key) (.str text) faults) = some text :=
          if_pos ⟨rfl, htext⟩
        rw [hafter]
        exact .inr ⟨text, created, rfl, at_assign_self⟩
      · have hafter : textAfter name held (.setSecret now (.str key) (.str text) faults) = held :=
          if_neg fun hboth => hkey hboth.1
        rw [hafter]
        unfold HoldsText
        dsimp only
        rw [persist_cache, at_assign_other hkey]
        exact h
  | deleteSecret n faults =>
    show HoldsText (s.secrets.delete n faults).1 name _
    unfold SecretStore.delete
    cases n with
    | str n =>
      rw [validateName_str]
      by_cases hkey : n = name
      · subst hkey
        have hafter : textAfter n held (.deleteSecret (.str n) faults) = none := if_pos rfl
        rw [if_pos hname, hafter]
        dsimp only
        split_ifs with hnone
        · exact .inl ⟨rfl, Option.isNone_iff_eq_none.mp hnone⟩
        · exact .inl ⟨rfl, at_remove_self⟩
      · have hafter : textAfter name held (.deleteSecret (.str n) faults) = held := if_neg hkey
        rw [hafter]
        by_cases hvalid : validName n = true
        · rw [if_pos hvalid]
          dsimp only
          split_ifs with hnone
          · exact h
          · unfold HoldsText
            rw [persist_cache, at_remove_other hkey]
            exact h
        · rw [if_neg hvalid]
          exact h
    | _ => exact h

theorem HoldsText.run {held : Option PyStr} (hname : validName name = true) (ops : List StoreOp) {s : Stores}
    (h : HoldsText s.secrets name held) :
    HoldsText (ops.foldl (fun s op => (s.step op).1) s).secrets name (ops.foldl (textAfter name) held) := by
  induction ops generalizing s held with
  | nil => exact h
  | cons op ops ih => exact ih (h.step hname op)

theorem resolve_local (env : ProcessEnv) (handle : StoreHandle) (name : PyStr) :
    resolve env handle (PyStr.of "local:" ++ name) = resolveLocal handle name := by
  have hcolon : .char ':' ∈ PyStr.of "local:" ++ name := List.mem_append_left _ (by simp [PyStr.of])
  have hscheme : (PyStr.of "local:" ++ name).takeWhile (fun c => c ≠ .char ':') = PyStr.of "local" := rfl
  have hlocal : PyStr.of "local" ≠ PyStr.of "env" := by decide
  unfold resolve
  rw [if_neg (not_not.mpr hcolon)]
  dsimp only
  rw [hscheme, if_neg hlocal, if_pos rfl]
  rfl

theorem resolveApiToken_held {held : Option PyStr} (hraw : env.rawTokenSetting = PyStr.of "local:" ++ name)
    (hname : validName name = true) (h : HoldsText store name held) :
    resolveApiToken env (.ok store) = .ok (held.filter fun value => value.strip ≠ []) := by
  have hne : PyStr.of "local:" ++ name ≠ [] := by simp [PyStr.of]
  have href : isSecretRef (PyStr.of "local:" ++ name) = true := by
    simp [isSecretRef, refSchemes, PyStr.of]
  unfold resolveApiToken
  rw [hraw]
  dsimp only
  rw [if_neg hne, if_pos href, resolve_local]
  unfold resolveLocal SecretStore.get
  rw [validateName_str, if_pos hname]
  dsimp only
  rcases h with ⟨rfl, hnone⟩ | ⟨value, created, rfl, hsome⟩
  · rw [hnone]
    simp
  · rw [hsome]
    have hvalue : PyDict.get? [(PyStr.of "value", .str value), (PyStr.of "created_at", created)] "value" =
        some (.str value) := rfl
    unfold secretEntry
    dsimp only
    rw [hvalue]
    dsimp only [usableToken]
    by_cases hblank : value.strip = []
    · simp [Option.filter, hblank]
    · simp [Option.filter, hblank]

/-- A token kept in the store is, after any operations on the stores, the text last set
under its name: that alone is let through, and nothing while it is deleted or blank. -/
theorem token_rotation {s : Stores} {held : Option PyStr}
    (hraw : env.rawTokenSetting = PyStr.of "local:" ++ name) (hname : validName name = true)
    (h : HoldsText s.secrets name held) (ops : List StoreOp) (supplied : Option PyStr) :
    requireApiToken env (.ok (ops.foldl (fun s op => (s.step op).1) s).secrets) supplied = .ok () ↔
      ∃ value, ops.foldl (textAfter name) held = some value ∧ value.strip ≠ [] ∧ value.encodable = true ∧
        supplied = some value := by
  have hconfigured : env.apiTokenConfigured = true := by
    unfold ProcessEnv.apiTokenConfigured
    rw [hraw]
    simp [PyStr.of]
  rw [requireApiToken_ok hconfigured, resolveApiToken_held hraw hname (h.run hname ops)]
  simp only [Except.ok.injEq, Option.filter_eq_some_iff]
  constructor
  · rintro ⟨value, ⟨hvalue, hstrip⟩, hencodable, hsupplied⟩
    exact ⟨value, hvalue, by simpa using hstrip, hencodable, hsupplied⟩
  · rintro ⟨value, hvalue, hstrip, hencodable, hsupplied⟩
    exact ⟨value, ⟨hvalue, by simpa using hstrip⟩, hencodable, hsupplied⟩

def goodDisk : Faults := fun _ => none

def noDisk : Faults := fun op => if op = .openTmp then some .valueError else none

/-- The token is set, and replaced while the disk is full. -/
def rotated : List StoreOp :=
  [.setSecret 1 (.str (PyStr.of "api")) (.str (PyStr.of "old")) goodDisk,
    .setSecret 2 (.str (PyStr.of "api")) (.str (PyStr.of "new")) noDisk]

def emptyStores : Stores := ⟨emptyStore, { state := {}, disk := ⟨.missing, none⟩ }⟩

theorem token_rotation_sample :
    requireApiToken storedToken (.ok (rotated.foldl (fun s op => (s.step op).1) emptyStores).secrets)
        (some (PyStr.of "new")) = .ok () ∧
      requireApiToken storedToken (.ok (rotated.foldl (fun s op => (s.step op).1) emptyStores).secrets)
        (some (PyStr.of "old")) ≠ .ok () := by
  have hraw : storedToken.rawTokenSetting = PyStr.of "local:" ++ PyStr.of "api" := by decide +kernel
  have hheld : HoldsText emptyStores.secrets (PyStr.of "api") none := .inl ⟨rfl, rfl⟩
  have hafter : rotated.foldl (textAfter (PyStr.of "api")) none = some (PyStr.of "new") := by decide +kernel
  have hname : validName (PyStr.of "api") = true := by decide +kernel
  constructor
  · rw [token_rotation hraw hname hheld rotated, hafter]
    exact ⟨_, rfl, by decide +kernel, by decide +kernel, rfl⟩
  · rw [Ne, token_rotation hraw hname hheld rotated, hafter]
    rintro ⟨value, hvalue, -, -, hold⟩
    cases hvalue
    exact absurd hold (by decide +kernel)

end

end OpenPoly
