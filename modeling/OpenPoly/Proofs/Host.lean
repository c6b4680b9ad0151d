import OpenPoly.Lib.Run
import OpenPoly.Proofs.Booked
import OpenPoly.Proofs.Mode
import OpenPoly.Spec.Host

/-! Whose holdings reconciliation reads. The funder it queries is fixed at boot,
the executor that buys may be rebuilt at a mode switch, and the wallet both come
from may be replaced at any time; a tick closes by the wallet that bought as long
as the switches and the boots into live find the three in agreement. -/

namespace OpenPoly

open Transition Custody

theorem executor_buy_cases (executor : Executor) (db : Db) (c : BuyCall) :
    ((executor.buy db c).db = db ∧ (executor.buy db c).opened = none) ∨
      ∃ a held, db.openPosition a = .ok (held, (executor.buy db c).db) ∧
        (executor.buy db c).opened = some held.positionId := by
  rcases executor.buy_cases db c with ⟨hdb, hskip⟩ | ⟨a, held, -, hopen, resting, hres⟩
  · refine .inl ⟨hdb, ?_⟩
    unfold Outcome.opened
    cases hr : (executor.buy db c).result with
    | error exc => rfl
    | ok r => simp [hskip r hr]
  · refine .inr ⟨a, held, hopen, ?_⟩
    simp [Outcome.opened, hres, ExecResult.ok]

theorem sweep_isOpen (t : ReconTick) (held : List (String × String)) (opens : List HeldPosition)
    {db : Db} {i : ℕ} (h : (t.sweep held opens db).IsOpen i) : db.IsOpen i := by
  induction opens generalizing db with
  | nil => exact h
  | cons pos rest ih =>
    have hrest := ih h
    split_ifs at hrest
    · -- the close attempt is a disposal
      change (db.attempt ⟨(Dispose.close pos.positionId (reconciledClose pos t.ts)).call,
        t.outage pos.positionId⟩).IsOpen i at hrest
      exact dispose_isOpen hrest
    · exact hrest

theorem tick_isOpen {repr : Json → String} {b : Backend} {env : TickEnv} {i : ℕ}
    (h : (b.tick repr env).db.IsOpen i) : b.db.IsOpen i := by
  unfold Backend.tick at h
  cases hw : b.watches with
  | none => simpa [hw] using h
  | some funder =>
    simp only [hw] at h
    unfold ReconTick.run at h
    split at h
    · exact h
    · exact sweep_isOpen _ _ _ h

theorem tick_keeps (repr : Json → String) (b : Backend) (env : TickEnv) :
    (b.tick repr env).live = b.live ∧ (b.tick repr env).state = b.state ∧
      (b.tick repr env).recon = b.recon := by
  unfold Backend.tick
  cases b.watches with
  | none => exact ⟨rfl, rfl, rfl⟩
  | some funder => exact ⟨rfl, rfl, rfl⟩

/-- What `set_mode` may leave: nothing changed; the mode paper; or, past every
check, the executor of the wallet it validated, and the mode live if saved. -/
theorem switchMode_cases (b : Backend) (target : ExecMode) (tokenOk : Bool) (p : Probe)
    (outage : Option PyErr) :
    (b.switchMode target tokenOk p outage).2 = b ∨
    (target = .paper ∧
      (b.switchMode target tokenOk p outage).2 = { b.withMode .paper with
        file := .json (b.withMode .paper).state.payload }) ∨
    ∃ wallet, target = .live ∧ admitSwitch b.state .live tokenOk = none ∧
      checkFlat b.db = .ok () ∧ validateLive b.state.wallet p = .ok wallet ∧
      ((outage = none ∧ (b.switchMode target tokenOk p outage).2 =
          { b.withMode .live with
            live := some wallet, file := .json (b.withMode .live).state.payload }) ∨
        (b.switchMode target tokenOk p outage).2 = { b with live := some wallet }) := by
  unfold Backend.switchMode
  cases ha : admitSwitch b.state target tokenOk with
  | some answer => exact .inl rfl
  | none =>
    cases hc : checkFlat b.db with
    | error fail => exact .inl rfl
    | ok u =>
      cases target with
      | paper =>
        cases outage with
        | none => exact .inr (.inl ⟨rfl, rfl⟩)
        | some exc => exact .inl rfl
      | live =>
        cases hv : validateLive b.state.wallet p with
        | error fail =>
          simp only [Backend.handOver, hv]
          exact .inl trivial
        | ok wallet =>
          refine .inr (.inr ⟨wallet, rfl, ha, rfl, rfl, ?_⟩)
          simp only [Backend.handOver, hv]
          cases outage with
          | none => exact .inl ⟨rfl, rfl⟩
          | some exc => exact .inr rfl

theorem putWalletConfig_keeps (b : Backend) (body : WalletSpec) (p : Probe)
    (outage : Option PyErr) :
    (b.putWalletConfig body p outage).2.db = b.db ∧
      (b.putWalletConfig body p outage).2.state.execMode = b.state.execMode ∧
      (b.putWalletConfig body p outage).2.live = b.live ∧
      (b.putWalletConfig body p outage).2.recon = b.recon := by
  unfold Backend.putWalletConfig
  split_ifs
  · exact ⟨rfl, rfl, rfl, rfl⟩
  · exact ⟨rfl, rfl, rfl, rfl⟩
  · cases probeKey 400 body.privateKeyRef p with
    | error fail => exact ⟨rfl, rfl, rfl, rfl⟩
    | ok signer =>
      cases outage with
      | none => exact ⟨rfl, rfl, rfl, rfl⟩
      | some exc => exact ⟨rfl, rfl, rfl, rfl⟩

/-- A boot that comes up live read a live mode under a usable token, and took
the funder of the wallet it read. -/
theorem boot_live {repr : Json → String} {db : Db} {file : StateFile} {env : BootEnv} {b : Backend}
    (h : boot repr db file env = .ok b) (hlive : b.state.execMode = .live) :
    ∃ state, RuntimeState.load repr file = .ok state ∧ state.execMode = .live ∧
      env.tokenOk = true ∧ b.db = db ∧ (∀ w, b.live = some w → state.wallet = some w) ∧
      b.recon = state.wallet.map WalletSpec.funderAddress := by
  unfold boot at h
  cases hload : RuntimeState.load repr file with
  | error exc => simp [hload] at h
  | ok state =>
    simp only [hload, Except.ok.injEq] at h
    subst h
    refine ⟨state, rfl, ?_⟩
    unfold Backend.demote at hlive ⊢
    split_ifs at hlive ⊢ with hkeep
    · have htoken : env.tokenOk = true := hkeep.resolve_left (not_not.mpr hlive)
      exact ⟨hlive, htoken, rfl, fun w hw => (Option.filter_eq_some_iff.mp hw).1, rfl⟩
    · cases hout : env.saveOutage with
      | none => simp [hout, Backend.setMode, Backend.save, Backend.withMode] at hlive
      | some exc => simp [hout, Backend.setMode, Backend.save, Backend.withMode] at hlive

/-- Every open position was bought by a live executor of this funder. -/
def Site.boughtAllBy (s : Site) (funder : String) : Bool :=
  s.host.db.getOpenPositions.all fun p =>
    (s.buyers p.positionId).bind Executor.funder = some funder

/-- A switch to live that passes every check has the funder reconciliation
queries; a boot into live reads the funder every open position was bought for. -/
def keepsFunder (repr : Json → String) (s : Site) : HostEvent → Bool
  | .boot env =>
    match RuntimeState.load repr s.host.file with
    | .ok ⟨.live, some wallet⟩ => !env.tokenOk || s.boughtAllBy wallet.funderAddress
    | _ => true
  | .setMode .live tokenOk p outage =>
    match s.host with
    | .up b =>
      match validateLive b.state.wallet p with
      | .ok wallet =>
        (admitSwitch b.state .live tokenOk).isSome || b.db.getOpenPositions ≠ [] ||
          outage.isSome || b.recon.all (· = wallet.funderAddress)
      | .error _ => true
    | .down _ _ => true
  | _ => true

abbrev hostStep (repr : Json → String) (s : Site) (e : HostEvent) (t : Site) : Prop :=
  t = s.step repr e

/-- Where reconciliation acts, the funder it queries is the live executor's and
that of every open position. -/
structure Agrees (b : Backend) (buyers : ℕ → Option Executor) (funder : String) : Prop where
  executor : ∀ w, b.live = some w → w.funderAddress = funder
  bought : InCustody b.db.IsOpen buyers fun e => e.funder = some funder

def Site.Watched (s : Site) : Prop :=
  ∀ b funder, s.host = .up b → b.watches = some funder → Agrees b s.buyers funder

theorem watches_eq_some {b : Backend} {funder : String} :
    b.watches = some funder ↔ b.state.execMode = .live ∧ b.recon = some funder := by
  unfold Backend.watches
  split_ifs with h
  · simp [h]
  · simp [h]

theorem Site.inCustody_of_boughtAllBy {s : Site} {funder : String}
    (h : s.boughtAllBy funder = true) :
    InCustody s.host.db.IsOpen s.buyers fun e => e.funder = some funder := by
  intro i hi
  have hbuyer := (all_open_iff s.host.db fun i =>
    decide ((s.buyers i).bind Executor.funder = some funder)).mp h i hi
  exact Option.bind_eq_some_iff.mp (decide_eq_true_eq.mp hbuyer)

theorem Agrees.congr {b b' : Backend} {buyers : ℕ → Option Executor} {funder : String}
    (h : Agrees b buyers funder) (hdb : b'.db = b.db) (hlive : b'.live = b.live) :
    Agrees b' buyers funder := by
  refine ⟨?_, ?_⟩
  · rw [hlive]
    exact h.executor
  · rw [hdb]
    exact h.bought

theorem Agrees.closed {b b' : Backend} {buyers : ℕ → Option Executor} {funder : String}
    (h : Agrees b buyers funder) (hlive : b'.live = b.live)
    (hsub : ∀ i, b'.db.IsOpen i → b.db.IsOpen i) : Agrees b' buyers funder := by
  refine ⟨?_, h.bought.closed hsub⟩
  rw [hlive]
  exact h.executor

theorem Site.Watched.onUp {s : Site} {f : Backend → Backend}
    (hf : ∀ b, s.host = .up b → ∀ funder, (f b).watches = some funder →
      Agrees (f b) s.buyers funder) : (s.onUp f).Watched := by
  intro b' funder hup hw
  unfold Site.onUp at hup ⊢
  cases hh : s.host with
  | down db file => simp [hh] at hup
  | up b =>
    simp only [hh, Host.up.injEq] at hup ⊢
    subst hup
    exact hf b hh funder hw

section Steps

variable {repr : Json → String} {s : Site}

theorem Site.Watched.boot {env : BootEnv} (hg : keepsFunder repr s (.boot env) = true) :
    (s.step repr (.boot env)).Watched := by
  intro b funder hup hw
  obtain ⟨hlive, hrecon⟩ := watches_eq_some.mp hw
  simp only [Site.step, Site.boot] at hup ⊢
  cases hb : OpenPoly.boot repr s.host.db s.host.file env with
  | error exc => simp [hb] at hup
  | ok b' =>
    simp only [hb, Host.up.injEq] at hup ⊢
    subst hup
    obtain ⟨⟨mode, wallet⟩, hload, rfl, htoken, hdb, hexec, hfunder⟩ := boot_live hb hlive
    rw [hrecon] at hfunder
    obtain ⟨w, rfl, rfl⟩ := Option.map_eq_some_iff.mp hfunder.symm
    have hall : s.boughtAllBy w.funderAddress = true := by
      simpa [keepsFunder, hload, htoken] using hg
    refine ⟨fun w' hw' => ?_, ?_⟩
    · obtain rfl := Option.some.inj (hexec w' hw')
      rfl
    · rw [hdb]
      exact Site.inCustody_of_boughtAllBy hall

theorem Site.Watched.putWallet (h : s.Watched) (body : WalletSpec) (p : Probe)
    (outage : Option PyErr) : (s.step repr (.putWallet body p outage)).Watched := by
  refine Site.Watched.onUp fun b hup funder hw => ?_
  obtain ⟨hdb, hmode, hlive, hrecon⟩ := putWalletConfig_keeps b body p outage
  rw [watches_eq_some, hmode, hrecon, ← watches_eq_some] at hw
  exact (h b funder hup hw).congr hdb hlive

/-- A switch either leaves the executor and the mode, or stops reconciliation,
or comes up live with nothing open and the executor of the funder queried. -/
theorem Site.Watched.setMode (h : s.Watched) {target : ExecMode} {tokenOk : Bool} {p : Probe}
    {outage : Option PyErr} (hg : keepsFunder repr s (.setMode target tokenOk p outage) = true) :
    (s.step repr (.setMode target tokenOk p outage)).Watched := by
  refine Site.Watched.onUp fun b hup funder hw => ?_
  rcases switchMode_cases b target tokenOk p outage with heq | ⟨-, heq⟩ |
    ⟨wallet, rfl, hadmit, hflat, hvalid, ⟨rfl, heq⟩ | heq⟩
  · rw [heq] at hw ⊢
    exact h b funder hup hw
  · rw [heq, watches_eq_some] at hw
    exact absurd hw.1 (by simp [Backend.withMode])
  · rw [heq, watches_eq_some] at hw
    rw [heq]
    have hnone := (checkFlat_ok_iff b.db).mp hflat
    have hfunder : wallet.funderAddress = funder := by
      have hopens := (getOpenPositions_nil_iff b.db).mpr hnone
      have hrecon : b.recon = some funder := hw.2
      simpa [keepsFunder, hup, hvalid, hadmit, hopens, hrecon, eq_comm] using hg
    refine ⟨fun w hw' => ?_, InCustody.of_none hnone⟩
    obtain rfl := Option.some.inj hw'
    exact hfunder
  · rw [heq, watches_eq_some] at hw
    have hmode : b.state.execMode = .live := hw.1
    simp [admitSwitch, hmode] at hadmit

/-- A buy of the live executor, for the funder queried. -/
theorem Site.Watched.buy (h : s.Watched) (c : BuyCall) : (s.step repr (.buy c)).Watched := by
  intro b' funder hup hw
  simp only [Site.step, Site.buy] at hup ⊢
  cases hh : s.host with
  | down db file => simp [hh] at hup
  | up b =>
    simp only [hh, Host.up.injEq] at hup ⊢
    subst hup
    unfold Backend.buy at hw ⊢
    cases hd : dispatchBuy b.state.execMode b.live with
    | error skip =>
      simp only [hd] at hw ⊢
      exact h b funder hh hw
    | ok executor =>
      simp only [hd] at hw ⊢
      have hwatch : b.watches = some funder := hw
      have hold := h b funder hh hwatch
      rcases executor_buy_cases executor b.db c with ⟨hdb, hnone⟩ | ⟨a, held, ho, hopened⟩
      · rw [hnone]
        exact hold.congr hdb rfl
      · rw [hopened]
        refine ⟨hold.executor, hold.bought.opened (openPosition_isOpen ho).2.2 ?_⟩
        have hmode := (watches_eq_some.mp hwatch).1
        cases hl : b.live with
        | none => simp [dispatchBuy, hmode, hl] at hd
        | some wallet =>
          simp only [dispatchBuy, hmode, hl, Except.ok.injEq] at hd
          subst hd
          exact congrArg some (hold.executor wallet hl)

theorem Site.Watched.dispose (h : s.Watched) (d : Dispose) (outage : Option PyErr) :
    (s.step repr (.dispose d outage)).Watched :=
  Site.Watched.onUp fun b hup funder hw =>
    (h b funder hup hw).closed rfl fun _ => dispose_isOpen

theorem Site.Watched.tick (h : s.Watched) (env : TickEnv) :
    (s.step repr (.tick env)).Watched := by
  refine Site.Watched.onUp fun b hup funder hw => ?_
  obtain ⟨hlive, hstate, hrecon⟩ := tick_keeps repr b env
  rw [watches_eq_some, hstate, hrecon, ← watches_eq_some] at hw
  exact (h b funder hup hw).closed hlive fun _ => tick_isOpen

end Steps

theorem watched_step {repr : Json → String} {s : Site} {e : HostEvent} (h : s.Watched)
    (hg : keepsFunder repr s e = true) : (s.step repr e).Watched := by
  cases e with
  | boot env => exact Site.Watched.boot hg
  | putWallet body p outage => exact h.putWallet body p outage
  | setMode target tokenOk p outage => exact h.setMode hg
  | buy c => exact h.buy c
  | dispose d outage => exact h.dispose d outage
  | tick env => exact h.tick env

def Site.start (db : Db) (file : StateFile) (buyers : ℕ → Option Executor) : Site :=
  ⟨.down db file, buyers⟩

theorem watched_run {repr : Json → String} {db : Db} {file : StateFile}
    {buyers : ℕ → Option Executor} {es : List HostEvent} {t : Site}
    (h : Run (guarded (fun s e => keepsFunder repr s e = true) (hostStep repr))
      (Site.start db file buyers) es t) : t.Watched := by
  refine h.invariant ?_ ?_
  · intro s e u hi hs
    obtain ⟨hg, rfl⟩ := hs
    exact watched_step hi hg
  · intro b funder hup
    cases hup

def Site.TickCloses (repr : Json → String) (s : Site) (env : TickEnv) (i : ℕ) : Prop :=
  s.host.db.IsOpen i ∧ ¬ (s.step repr (.tick env)).host.db.IsOpen i

/-- In every run whose switches to live and boots into live meet the condition,
reconciliation queries the funder of the executor that buys, and a tick closes a
position by the holdings of the funder it was bought for. -/
theorem reconciles_own_funder {repr : Json → String} {db : Db} {file : StateFile}
    {buyers : ℕ → Option Executor} {es : List HostEvent} {t : Site}
    (h : Run (guarded (fun s e => keepsFunder repr s e = true) (hostStep repr))
      (Site.start db file buyers) es t) :
    (∀ b funder w, t.host = .up b → b.watches = some funder → b.live = some w →
      w.funderAddress = funder) ∧
    ∀ env i, t.TickCloses repr env i → ∃ b funder wallet, t.host = .up b ∧
      b.watches = some funder ∧ t.buyers i = some (.live wallet) ∧
      wallet.funderAddress = funder := by
  have hwatched := watched_run h
  refine ⟨fun b funder w hup hw hlive => (hwatched b funder hup hw).executor w hlive, ?_⟩
  intro env i hcloses
  obtain ⟨hopen, hclosed⟩ := hcloses
  cases hh : t.host with
  | down db' file' =>
    simp only [Site.step, Site.onUp, hh] at hclosed hopen
    exact (hclosed hopen).elim
  | up b =>
    cases hw : b.watches with
    | none =>
      simp only [Site.step, Site.onUp, hh, Host.db, Backend.tick, hw] at hclosed hopen
      exact (hclosed hopen).elim
    | some funder =>
      rw [hh] at hopen
      obtain ⟨e, he, hfunder⟩ := (hwatched b funder hh hw).bought i hopen
      cases e with
      | paper => cases hfunder
      | live wallet => exact ⟨b, funder, wallet, rfl, hw, he, Option.some.inj hfunder⟩

def walletA : WalletSpec := ⟨"env:PK", "0xaaaaaaaaaaaaaaaaaaaaaaaaaaaaaaaaaaaaaaaa"⟩

def walletB : WalletSpec := ⟨"env:PK", "0xbbbbbbbbbbbbbbbbbbbbbbbbbbbbbbbbbbbbbbbb"⟩

def siteWith (mode : ExecMode) : Site :=
  .start .empty (.json (RuntimeState.payload ⟨mode, some walletA⟩)) fun _ => none

/-- The wallet of `funder` holds the position, any other one nothing. -/
def heldBy (funder : String) : TickEnv where
  holdings f := .ok (.arr (if f = funder then
    [.obj [("conditionId", .str "0xc1"), ("outcome", .str "Yes"), ("size", .str "10")]] else []))
  ts := 1000

def plainBoot : HostEvent := .boot { tokenOk := true }

def oneWallet : List HostEvent := [plainBoot, .setMode .live true passing none, .buy crossedBuy]

def replacedBeforeSwitch : List HostEvent :=
  [plainBoot, .putWallet walletB passing none, .setMode .live true passing none, .buy crossedBuy]

/-- The wallet is replaced while a position is open, and the process restarted. -/
def replacedBeforeBoot : List HostEvent :=
  [plainBoot, .buy crossedBuy, .putWallet walletB passing none, plainBoot]

/-- The host after these events; no text of a float or a container is read. -/
def Site.after (s : Site) (es : List HostEvent) : Site := es.foldl (Site.step fun _ => "") s

/-- The open positions, the funder a tick reads, and who bought the first. -/
def Site.summary (s : Site) : List ℕ × Option String × Option Executor :=
  (s.host.db.getOpenPositions.map HeldPosition.positionId,
    match s.host with
    | .down _ _ => none
    | .up b => b.watches,
    s.buyers 1)

/-- The first position is open, and the tick closes it. -/
theorem tickCloses_of_summary {s : Site} {env : TickEnv} {watched watched' : Option String}
    {buyer buyer' : Option Executor} (h : s.summary = ([1], watched, buyer))
    (h' : (s.step (fun _ => "") (.tick env)).summary = ([], watched', buyer')) :
    s.TickCloses (fun _ => "") env 1 := by
  simp only [Site.summary, Prod.mk.injEq] at h h'
  refine ⟨(isOpen_iff_mem _ 1).mpr (by simp [h.1]), fun hopen => ?_⟩
  simpa [h'.1] using (isOpen_iff_mem _ 1).mp hopen

def Site.aroundTick (s : Site) (env : TickEnv) :
    (List ℕ × Option String × Option Executor) × List ℕ × Option String × Option Executor :=
  (s.summary, (s.step (fun _ => "") (.tick env)).summary)

theorem reconciles_own_funder_sample :
    ∃ t b, Run (hostStep fun _ => "") (siteWith .paper) oneWallet t ∧
      t.TickCloses (fun _ => "") (heldBy "") 1 ∧ t.host = .up b ∧
      ∃ wallet, b.watches = some wallet.funderAddress ∧ t.buyers 1 = some (.live wallet) := by
  have hrun : (oneWallet.foldlM (fun s e =>
      if keepsFunder (fun _ => "") s e then some (s.step (fun _ => "") e) else none)
      (siteWith .paper)).map (fun t => t.aroundTick (heldBy "")) =
        some (([1], some walletA.funderAddress, some (.live walletA)),
          ([], some walletA.funderAddress, some (.live walletA))) := by decide +kernel
  obtain ⟨t, ht, hsum⟩ := Option.map_eq_some_iff.mp hrun
  obtain ⟨hbefore, hafter⟩ := Prod.mk.inj hsum
  have hguarded : Run (guarded (fun s e => keepsFunder (fun _ => "") s e = true)
      (hostStep fun _ => "")) (siteWith .paper) oneWallet t :=
    (run_checkedM ht).mono fun _ _ _ h => ⟨h.1, (Option.some.inj h.2).symm⟩
  have hcloses := tickCloses_of_summary hbefore hafter
  obtain ⟨b, funder, wallet, hup, hw, hbuyer, rfl⟩ :=
    (reconciles_own_funder hguarded).2 (heldBy "") 1 hcloses
  exact ⟨t, b, hguarded.mono fun _ _ _ h => h.2, hcloses, hup, wallet, hw, hbuyer⟩

/-- A tick closes a position bought for one wallet by the holdings of another:
after a wallet change and a switch to live, and after one and a restart. -/
theorem other_wallets_holdings :
    (∃ t, Run (hostStep fun _ => "") (siteWith .paper) replacedBeforeSwitch t ∧
      t.TickCloses (fun _ => "") (heldBy walletB.funderAddress) 1 ∧
      t.summary = ([1], some walletA.funderAddress, some (.live walletB))) ∧
    ∃ t, Run (hostStep fun _ => "") (siteWith .live) replacedBeforeBoot t ∧
      t.TickCloses (fun _ => "") (heldBy walletA.funderAddress) 1 ∧
      t.summary = ([1], some walletB.funderAddress, some (.live walletA)) := by
  have hswitch : ((siteWith .paper).after replacedBeforeSwitch).summary =
      ([1], some walletA.funderAddress, some (.live walletB)) := by decide +kernel
  have hswitched : (((siteWith .paper).after replacedBeforeSwitch).step (fun _ => "")
      (.tick (heldBy walletB.funderAddress))).summary =
        ([], some walletA.funderAddress, some (.live walletB)) := by decide +kernel
  have hboot : ((siteWith .live).after replacedBeforeBoot).summary =
      ([1], some walletB.funderAddress, some (.live walletA)) := by decide +kernel
  have hbooted : (((siteWith .live).after replacedBeforeBoot).step (fun _ => "")
      (.tick (heldBy walletA.funderAddress))).summary =
        ([], some walletB.funderAddress, some (.live walletA)) := by decide +kernel
  exact ⟨⟨_, run_foldl _ _ _, tickCloses_of_summary hswitch hswitched, hswitch⟩,
    ⟨_, run_foldl _ _ _, tickCloses_of_summary hboot hbooted, hboot⟩⟩

end OpenPoly
