import OpenPoly.Lib.Run
import OpenPoly.Proofs.Custody

/-! One mode at a time. A request to switch checks that no position is open some
time before it changes the mode, and a buy reads the mode some time before it
writes the ledger; nothing holds the other off in between. -/

namespace OpenPoly

open Transition Custody

abbrev deskModeStep (s : ModeDesk) (e : ModeEvent) (t : ModeDesk) : Prop := modeStep s e = some t

def ModeDesk.OneMode (s : ModeDesk) : Prop :=
  InCustody s.proc.db.IsOpen s.buyers fun e => e.mode = s.proc.state.execMode

def Db.openedBefore (db : Db) (seen : List ℕ) : Bool :=
  db.getOpenPositions.all fun p => seen.contains p.positionId

/-- Where a request changes the mode, no position opened since its check is open;
a buy stores its fill under the mode it was dispatched in. -/
def noModeRace (s : ModeDesk) : ModeEvent → Bool
  | .flip r =>
    match s.switches r with
    | .ready target seen => target = s.proc.state.execMode || s.proc.db.openedBefore seen
    | _ => true
  | .save r outage =>
    match s.switches r with
    | .saving _ prev seen =>
      outage.isNone || prev = s.proc.state.execMode || s.proc.db.openedBefore seen
    | _ => true
  | .write k outage =>
    match s.buys k with
    | .writing executor a =>
      outage.isSome || s.proc.db.hasOpen a.marketId a.side ||
        executor.mode = s.proc.state.execMode
    | _ => true
  | _ => true

abbrev NoModeRace (s : ModeDesk) (e : ModeEvent) : Prop := noModeRace s e = true

def SwitchPhase.seen : SwitchPhase → Option (List ℕ)
  | .checked _ seen => some seen
  | .ready _ seen => some seen
  | .saving _ _ seen => some seen
  | _ => none

def SeenClosed (db : Db) (seen : List ℕ) : Prop :=
  ∀ i ∈ seen, i ∈ db.positions.map PositionRow.id ∧ ¬ db.IsOpen i

theorem SeenClosed.none_open {db : Db} {seen : List ℕ} (h : SeenClosed db seen)
    (hbefore : db.openedBefore seen = true) (i : ℕ) : ¬ db.IsOpen i := by
  intro hi
  have hseen : seen.contains i = true := (all_open_iff db fun i => seen.contains i).mp hbefore i hi
  exact (h i (by simpa using hseen)).2 hi

theorem SeenClosed.dispose {db : Db} {seen : List ℕ} (h : SeenClosed db seen) (d : Dispose)
    (outage : Option PyErr) : SeenClosed (db.attempt ⟨d.call, outage⟩) seen := by
  intro i hi
  obtain ⟨hmem, hclosed⟩ := h i hi
  exact ⟨by rwa [dispose_ids], fun ho => hclosed (dispose_isOpen ho)⟩

theorem SeenClosed.opened {db db' : Db} {seen : List ℕ} (h : SeenClosed db seen) {a : OpenArgs}
    {held : HeldPosition} (ho : db.openPosition a = .ok (held, db')) : SeenClosed db' seen := by
  obtain ⟨hfresh, hids, hopen⟩ := openPosition_isOpen ho
  intro i hi
  obtain ⟨hmem, hclosed⟩ := h i hi
  refine ⟨by rw [hids]; exact List.mem_append_left _ hmem, fun hi' => ?_⟩
  rcases hopen i hi' with hold | rfl
  · exact hclosed hold
  · exact hfresh hmem

structure ModeInv (s : ModeDesk) : Prop where
  oneMode : s.OneMode
  seen : ∀ r ids, (s.switches r).seen = some ids → SeenClosed s.proc.db ids

theorem modeInv_start {proc : Backend} {buyers : ℕ → Option Executor}
    (h : (ModeDesk.start proc buyers).OneMode) : ModeInv (ModeDesk.start proc buyers) := by
  refine ⟨h, ?_⟩
  intro r ids hseen
  cases hseen

theorem ModeInv.setBuy {s : ModeDesk} (h : ModeInv s) (k : ℕ) (phase : BuyPhase) :
    ModeInv (s.setBuy k phase) := ⟨h.oneMode, h.seen⟩

/-- A phase whose ids are seen closed. -/
theorem ModeInv.setSwitch {s : ModeDesk} (h : ModeInv s) (r : ℕ) {phase : SwitchPhase}
    (hseen : ∀ ids, phase.seen = some ids → SeenClosed s.proc.db ids) :
    ModeInv (s.setSwitch r phase) := by
  refine ⟨h.oneMode, ?_⟩
  intro r' ids hids
  have hsw : (s.setSwitch r phase).switches = Function.update s.switches r phase := rfl
  rw [hsw] at hids
  by_cases hr : r' = r
  · subst hr
    rw [Function.update_self] at hids
    exact hseen ids hids
  · rw [Function.update_of_ne hr] at hids
    exact h.seen r' ids hids

/-- A change of the mode, made while nothing is open or no change at all. -/
theorem ModeInv.withMode {s : ModeDesk} (h : ModeInv s) {mode : ExecMode}
    (hflat : mode ≠ s.proc.state.execMode → ∀ i, ¬ s.proc.db.IsOpen i) :
    ModeInv { s with proc := s.proc.withMode mode } := by
  refine ⟨?_, h.seen⟩
  by_cases hmode : mode = s.proc.state.execMode
  · subst hmode
    exact h.oneMode
  · exact InCustody.of_none (hflat hmode)

theorem ModeInv.dispose {s : ModeDesk} (h : ModeInv s) (d : Dispose) (outage : Option PyErr) :
    ModeInv { s with proc := { s.proc with db := s.proc.db.attempt ⟨d.call, outage⟩ } } where
  oneMode := InCustody.closed h.oneMode fun _ => dispose_isOpen
  seen r ids hids := (h.seen r ids hids).dispose d outage

/-- A fill stored under the mode. -/
theorem ModeInv.opens {s t : ModeDesk} (h : ModeInv s) {executor : Executor} {a : OpenArgs}
    (hmode : executor.mode = s.proc.state.execMode) (ht : s.opens executor a = some t) :
    ModeInv t := by
  unfold ModeDesk.opens at ht
  cases ho : s.proc.db.openPosition a with
  | error exc => simp [ho] at ht
  | ok r =>
    obtain ⟨held, db'⟩ := r
    simp only [ho, Option.some.injEq] at ht
    subst ht
    refine ⟨InCustody.opened h.oneMode (openPosition_isOpen ho).2.2 hmode, ?_⟩
    intro r ids hids
    exact (h.seen r ids hids).opened ho

theorem handOver_keeps {b b' : Backend} {target : ExecMode} {p : Probe}
    (h : b.handOver target p = .ok b') : b'.db = b.db ∧ b'.state = b.state := by
  unfold Backend.handOver at h
  cases target with
  | paper =>
    obtain rfl := Except.ok.inj h
    exact ⟨rfl, rfl⟩
  | live =>
    cases hv : validateLive b.state.wallet p with
    | error fail => simp [hv] at h
    | ok wallet =>
      simp only [hv, Except.ok.injEq] at h
      subst h
      exact ⟨rfl, rfl⟩

theorem ModeInv.congr {s : ModeDesk} (h : ModeInv s) {proc : Backend} (hdb : proc.db = s.proc.db)
    (hstate : proc.state = s.proc.state) : ModeInv { s with proc := proc } := by
  refine ⟨?_, ?_⟩
  · show InCustody proc.db.IsOpen s.buyers fun e => e.mode = proc.state.execMode
    rw [hdb, hstate]
    exact h.oneMode
  · intro r ids hids
    rw [hdb]
    exact h.seen r ids hids

section Steps

variable {s t : ModeDesk} {r k : ℕ}

theorem ModeInv.request {target : ExecMode} {tokenOk : Bool} (h : ModeInv s)
    (hstep : modeStep s (.request r target tokenOk) = some t) : ModeInv t := by
  cases hp : s.switches r with
  | idle =>
    simp only [modeStep, hp] at hstep
    split at hstep
    all_goals
      obtain rfl := Option.some.inj hstep
      exact h.setSwitch r fun ids hids => by cases hids
  | _ => simp [modeStep, hp] at hstep

/-- A check that passes sees every position closed. -/
theorem ModeInv.check (h : ModeInv s) (hstep : modeStep s (.check r) = some t) : ModeInv t := by
  cases hp : s.switches r with
  | admitted target =>
    simp only [modeStep, hp] at hstep
    cases hc : checkFlat s.proc.db with
    | error fail =>
      simp only [hc, Option.some.injEq] at hstep
      subst hstep
      exact h.setSwitch r fun ids hids => by cases hids
    | ok u =>
      simp only [hc, Option.some.injEq] at hstep
      subst hstep
      refine h.setSwitch r fun ids hids => ?_
      obtain rfl := Option.some.inj hids
      exact fun i hi => ⟨hi, (checkFlat_ok_iff _).mp hc i⟩
  | _ => simp [modeStep, hp] at hstep

theorem ModeInv.validate {p : Probe} (h : ModeInv s)
    (hstep : modeStep s (.validate r p) = some t) : ModeInv t := by
  cases hp : s.switches r with
  | checked target seen =>
    have hseen := h.seen r seen (by rw [hp]; rfl)
    simp only [modeStep, hp] at hstep
    cases hv : s.proc.handOver target p with
    | error fail =>
      simp only [hv, Option.some.injEq] at hstep
      subst hstep
      exact h.setSwitch r fun ids hids => by cases hids
    | ok proc =>
      obtain ⟨hdb, hstate⟩ := handOver_keeps hv
      simp only [hv, Option.some.injEq] at hstep
      subst hstep
      refine (h.congr hdb hstate).setSwitch r fun ids hids => ?_
      obtain rfl := Option.some.inj hids
      show SeenClosed proc.db seen
      rwa [hdb]
  | _ => simp [modeStep, hp] at hstep

/-- The flip: what was seen closed is all there is, or the mode does not change. -/
theorem ModeInv.flip (h : ModeInv s) (hg : NoModeRace s (.flip r))
    (hstep : modeStep s (.flip r) = some t) : ModeInv t := by
  cases hp : s.switches r with
  | ready target seen =>
    have hseen := h.seen r seen (by rw [hp]; rfl)
    simp only [NoModeRace, noModeRace, hp, Bool.or_eq_true, decide_eq_true_eq] at hg
    simp only [modeStep, hp, Option.some.injEq] at hstep
    subst hstep
    have hflat := fun hne => hseen.none_open (hg.resolve_left hne)
    refine (h.withMode hflat).setSwitch r fun ids hids => ?_
    obtain rfl := Option.some.inj hids
    exact hseen
  | _ => simp [modeStep, hp] at hstep

/-- The save, and the rollback where it fails. -/
theorem ModeInv.save {outage : Option PyErr} (h : ModeInv s) (hg : NoModeRace s (.save r outage))
    (hstep : modeStep s (.save r outage) = some t) : ModeInv t := by
  cases hp : s.switches r with
  | saving target prev seen =>
    have hseen := h.seen r seen (by rw [hp]; rfl)
    simp only [NoModeRace, noModeRace, hp, Bool.or_eq_true, decide_eq_true_eq] at hg
    simp only [modeStep, hp] at hstep
    cases outage with
    | none =>
      simp only [Backend.save, Option.some.injEq] at hstep
      subst hstep
      have hproc : ModeInv { s with proc := { s.proc with file := .json s.proc.state.payload } } :=
        h.congr rfl rfl
      refine hproc.setSwitch r fun ids hids => ?_
      cases hids
    | some exc =>
      simp only [Backend.save, Option.some.injEq] at hstep
      subst hstep
      simp only [Option.isNone_some, Bool.false_eq_true, false_or] at hg
      have hflat := fun hne => hseen.none_open (hg.resolve_left hne)
      refine (h.withMode hflat).setSwitch r fun ids hids => ?_
      cases hids
  | _ => simp [modeStep, hp] at hstep

theorem ModeInv.dispatch (h : ModeInv s) (hstep : modeStep s (.dispatch k) = some t) :
    ModeInv t := by
  cases hp : s.buys k with
  | idle =>
    simp only [modeStep, hp] at hstep
    split at hstep
    · obtain rfl := Option.some.inj hstep
      exact h
    · obtain rfl := Option.some.inj hstep
      exact h.setBuy k _
  | _ => simp [modeStep, hp] at hstep

theorem ModeInv.act {c : BuyCall} (h : ModeInv s) (hstep : modeStep s (.act k c) = some t) :
    ModeInv t := by
  cases hp : s.buys k with
  | running executor =>
    simp only [modeStep, hp] at hstep
    split at hstep
    all_goals
      obtain rfl := Option.some.inj hstep
      exact h.setBuy k _
  | _ => simp [modeStep, hp] at hstep

theorem ModeInv.write {outage : Option PyErr} (h : ModeInv s) (hg : NoModeRace s (.write k outage))
    (hstep : modeStep s (.write k outage) = some t) : ModeInv t := by
  cases hp : s.buys k with
  | writing executor a =>
    simp only [NoModeRace, noModeRace, hp, Bool.or_eq_true, decide_eq_true_eq] at hg
    simp only [modeStep, hp] at hstep
    cases outage with
    | some exc =>
      simp only [Option.some.injEq] at hstep
      subst hstep
      split_ifs
      · exact h
      · exact h.setBuy k _
    | none =>
      cases ho : s.opens executor a with
      | none =>
        simp only [ho, Option.some.injEq] at hstep
        subst hstep
        exact h.setBuy k _
      | some u =>
        simp only [ho, Option.some.injEq] at hstep
        subst hstep
        have hfree : s.proc.db.hasOpen a.marketId a.side = false := by
          unfold ModeDesk.opens at ho
          cases hop : s.proc.db.openPosition a with
          | error exc => simp [hop] at ho
          | ok r => exact (openPosition_ok hop).1
        have hmode : executor.mode = s.proc.state.execMode := by simpa [hfree] using hg
        exact (h.opens hmode ho).setBuy k _
  | _ => simp [modeStep, hp] at hstep

end Steps

/-- The step lemma. -/
theorem modeInv_step {s t : ModeDesk} {e : ModeEvent} (h : ModeInv s) (hg : NoModeRace s e)
    (hstep : modeStep s e = some t) : ModeInv t := by
  cases e with
  | request r target tokenOk => exact h.request hstep
  | check r => exact h.check hstep
  | validate r p => exact h.validate hstep
  | flip r => exact h.flip hg hstep
  | save r outage => exact h.save hg hstep
  | dispatch k => exact h.dispatch hstep
  | act k c => exact h.act hstep
  | write k outage => exact h.write hg hstep
  | abandon k =>
    obtain rfl := Option.some.inj hstep
    exact h.setBuy k _
  | dispose d outage =>
    obtain rfl := Option.some.inj hstep
    exact h.dispose d outage

/-- In every run whose switches and writes do not race, every open position was
bought by the executor of the mode. -/
theorem one_mode {proc : Backend} {buyers : ℕ → Option Executor} {es : List ModeEvent}
    {t : ModeDesk} (h0 : (ModeDesk.start proc buyers).OneMode)
    (h : Run (guarded NoModeRace deskModeStep) (ModeDesk.start proc buyers) es t) : t.OneMode := by
  have hinv : ModeInv t := by
    refine h.invariant ?_ (modeInv_start h0)
    intro s e u hi hs
    exact modeInv_step hi hs.1 hs.2
  exact hinv.oneMode

@[simp] theorem ModeDesk.setSwitch_self (s : ModeDesk) (r : ℕ) (phase : SwitchPhase) :
    (s.setSwitch r phase).switches r = phase := Function.update_self ..

@[simp] theorem ModeDesk.setSwitch_proc (s : ModeDesk) (r : ℕ) (phase : SwitchPhase) :
    (s.setSwitch r phase).proc = s.proc := rfl

/-- `t` is `s` with the request `r` answered and the process as given. -/
structure Answered (s t : ModeDesk) (r : ℕ) (answer : Except HttpFail ExecMode) (proc : Backend) :
    Prop where
  proc : t.proc = proc
  answer : t.switches r = .answered answer
  buyers : t.buyers = s.buyers
  buys : t.buys = s.buys

theorem saving_run {s : ModeDesk} {r : ℕ} {target : ExecMode} {seen : List ℕ}
    (hr : s.switches r = .ready target seen) (outage : Option PyErr) :
    ∃ t, Run deskModeStep s [.flip r, .save r outage] t ∧
      Answered s t r (match (s.proc.setMode target outage).1 with
        | .ok _ => .ok target
        | .error exc => .error (.raised exc)) (s.proc.setMode target outage).2 := by
  set s1 := { s with proc := s.proc.withMode target }.setSwitch r
    (.saving target s.proc.state.execMode seen) with hs1
  have hflip : modeStep s (.flip r) = some s1 := by simp only [modeStep, hr, hs1]
  have hphase : s1.switches r = .saving target s.proc.state.execMode seen :=
    ModeDesk.setSwitch_self ..
  cases outage with
  | none =>
    have hsave : modeStep s1 (.save r none) = some ({ s1 with
        proc := { s1.proc with file := .json s1.proc.state.payload } }.setSwitch r
          (.answered (.ok target))) := by
      simp only [modeStep, hphase, Backend.save]
    exact ⟨_, Run.cons hflip (Run.single hsave), rfl, ModeDesk.setSwitch_self .., rfl, rfl⟩
  | some exc =>
    have hsave : modeStep s1 (.save r (some exc)) = some ({ s1 with
        proc := s1.proc.withMode s.proc.state.execMode }.setSwitch r
          (.answered (.error (.raised exc)))) := by
      simp only [modeStep, hphase, Backend.save]
    exact ⟨_, Run.cons hflip (Run.single hsave), rfl, ModeDesk.setSwitch_self .., rfl, rfl⟩

/-- A request whose steps run back to back does what `set_mode` does. -/
theorem switchMode_run {s : ModeDesk} {r : ℕ} (hr : s.switches r = .idle) (target : ExecMode)
    (tokenOk : Bool) (p : Probe) (outage : Option PyErr) :
    ∃ es t, Run deskModeStep s es t ∧
      Answered s t r (s.proc.switchMode target tokenOk p outage).1
        (s.proc.switchMode target tokenOk p outage).2 := by
  unfold Backend.switchMode
  cases ha : admitSwitch s.proc.state target tokenOk with
  | some answer =>
    have h1 : modeStep s (.request r target tokenOk) = some (s.setSwitch r (.answered answer)) := by
      simp [modeStep, hr, ha]
    exact ⟨_, _, Run.single h1, rfl, Function.update_self .., rfl, rfl⟩
  | none =>
    have h1 : modeStep s (.request r target tokenOk) = some (s.setSwitch r (.admitted target)) := by
      simp [modeStep, hr, ha]
    cases hc : checkFlat s.proc.db with
    | error fail =>
      have h2 : modeStep (s.setSwitch r (.admitted target)) (.check r) =
          some ((s.setSwitch r (.admitted target)).setSwitch r (.answered (.error fail))) := by
        simp [modeStep, hc]
      exact ⟨_, _, Run.cons h1 (Run.single h2), rfl, Function.update_self .., rfl, rfl⟩
    | ok u =>
      set s2 := (s.setSwitch r (.admitted target)).setSwitch r
        (.checked target (s.proc.db.positions.map PositionRow.id)) with hs2
      have h2 : modeStep (s.setSwitch r (.admitted target)) (.check r) = some s2 := by
        simp [modeStep, hc, hs2]
      have h12 : Run deskModeStep s [.request r target tokenOk, .check r] s2 :=
        Run.cons h1 (Run.single h2)
      cases hv : s.proc.handOver target p with
      | error fail =>
        have h3 : modeStep s2 (.validate r p) =
            some (s2.setSwitch r (.answered (.error fail))) := by
          simp [modeStep, hs2, hv]
        exact ⟨_, _, h12.snoc h3, rfl, Function.update_self .., rfl, rfl⟩
      | ok proc =>
        have h3 : modeStep s2 (.validate r p) = some ({ s2 with proc := proc }.setSwitch r
            (.ready target (s.proc.db.positions.map PositionRow.id))) := by
          simp [modeStep, hs2, hv]
        obtain ⟨t, hrun, hans⟩ := saving_run (ModeDesk.setSwitch_self { s2 with proc := proc } r
          (.ready target (s.proc.db.positions.map PositionRow.id))) outage
        refine ⟨_, t, (h12.snoc h3).append hrun, ?_⟩
        obtain ⟨h4, h5, h6, h7⟩ := hans
        simp only [ModeDesk.setSwitch_proc] at h4 h5
        cases hm : proc.setMode target outage with
        | mk res proc' =>
          rw [hm] at h4 h5
          simp only [hm]
          cases res with
          | ok _ => exact ⟨h4, h5, h6, h7⟩
          | error exc => exact ⟨h4, h5, h6, h7⟩
def sampleWallet (funderAddress : String) : WalletSpec := ⟨"env:PK", funderAddress⟩

def passing : Probe where
  secret _ := .ok "0x01"
  signer _ := .ok "0xsigner"
  build _ := .ok ()
  balanceAllowance := .ok (.obj [("balance", .str "5000000"),
    ("allowances", .obj [(standardV2, .int (10 ^ 12)), (negriskV2, .int (10 ^ 12))])])

def paperProc : Backend where
  db := .empty
  file := .missing
  state := ⟨.paper, some (sampleWallet "0xf1")⟩
  live := none
  recon := none

def crossed : VenueAnswers where
  before _ := balanceOf 0
  post := .ok (.obj [("success", .bool true), ("orderID", .str "0xa1"),
    ("makingAmount", .str "5"), ("takingAmount", .str "10")])
  rounds _ := ⟨.ok .null, .ok .null, true⟩
  final := .ok .null
  after _ := balanceOf 0

def crossedBuy : BuyCall where
  catalog := sampleCatalog
  intent := { marketId := "m1", side := .yes, price := 1 / 2, qty := 10 }
  ts := 1
  venue := crossed

def switchSteps : List ModeEvent :=
  [.request 0 .live true, .check 0, .validate 0 passing, .flip 0, .save 0 none]

def switchThenBuy : List ModeEvent :=
  switchSteps ++ [.dispatch 0, .act 0 crossedBuy, .write 0 none]

def switchDuringBuy : List ModeEvent :=
  .dispatch 0 :: switchSteps ++ [.act 0 crossedBuy, .write 0 none]

def ModeDesk.summary (s : ModeDesk) : ExecMode × List ℕ × Option Executor :=
  (s.proc.state.execMode, s.proc.db.getOpenPositions.map HeldPosition.positionId, s.buyers 1)

theorem one_mode_sample :
    ∃ t, Run deskModeStep (ModeDesk.start paperProc fun _ => none) switchThenBuy t ∧
      t.summary = (.live, [1], some (.live (sampleWallet "0xf1"))) ∧ t.OneMode := by
  have hrun : (switchThenBuy.foldlM (fun s e => if noModeRace s e then modeStep s e else none)
      (ModeDesk.start paperProc fun _ => none)).map ModeDesk.summary =
        some (.live, [1], some (.live (sampleWallet "0xf1"))) := by decide +kernel
  obtain ⟨t, ht, hsum⟩ := Option.map_eq_some_iff.mp hrun
  have hguarded := run_checkedM ht
  refine ⟨t, hguarded.mono fun _ _ _ h => h.2, hsum, one_mode ?_ hguarded⟩
  exact InCustody.of_none (by simp [Db.IsOpen, ModeDesk.start, paperProc, Db.empty])

/-- A buy dispatched on paper is stored under live. -/
theorem switch_during_buy :
    ∃ t, Run deskModeStep (ModeDesk.start paperProc fun _ => none) switchDuringBuy t ∧
      t.summary = (.live, [1], some .paper) ∧ ¬ t.OneMode := by
  have hrun : (switchDuringBuy.foldlM modeStep
      (ModeDesk.start paperProc fun _ => none)).map ModeDesk.summary =
        some (.live, [1], some .paper) := by decide +kernel
  obtain ⟨t, ht, hsum⟩ := Option.map_eq_some_iff.mp hrun
  refine ⟨t, run_foldlM _ ht, hsum, fun hone => ?_⟩
  simp only [ModeDesk.summary, Prod.mk.injEq] at hsum
  obtain ⟨hmode, hopens, hbuyer⟩ := hsum
  obtain ⟨e, he, hmode'⟩ := hone 1 ((isOpen_iff_mem _ 1).mpr (by simp [hopens]))
  rw [hbuyer] at he
  obtain rfl := Option.some.inj he
  rw [hmode] at hmode'
  cases hmode'

end OpenPoly
