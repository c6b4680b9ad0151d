import OpenPoly.Spec.CanvasAutosave

/-! Any number of browser tabs on the canvas of one server, and the conflict dialog of each
(`store.ts`, `resolveConflict`). A tab's own steps are those of `CanvasTab`, with the
server that all of them share. -/

namespace OpenPoly

variable {τ ρ : Type}

/-- A tab with the dialog. `seen` is a record for the reader: the templates of the server
the tab took over, and those it sent itself. -/
structure TabSession (τ ρ : Type) where
  tab : CanvasTab τ ρ
  /-- The stored template of the conflict, whose revision is `theirsRev`. -/
  theirs : Option τ := none
  /-- The PUTs of `keep_mine`, with `If-Match: *`. -/
  forces : List (τ × Option (PutAnswer τ ρ)) := []
  /-- Those given up, which the server may still handle. -/
  lostForces : List τ := []
  seen : List τ := []

structure CanvasWorld (τ ρ : Type) where
  server : Option τ
  tabs : ℕ → TabSession τ ρ

def CanvasWorld.start (server : Option τ) (drafts : ℕ → τ) : CanvasWorld τ ρ :=
  ⟨server, fun k => { tab := { server := none, template := drafts k } }⟩

inductive SessionEvent (τ : Type) where
  | tab (e : TabEvent τ)
  /-- `resolveConflict`. -/
  | dismiss
  | takeTheirs
  | keepMine
  | handleForce (i : ℕ) (how : Handling)
  | handleLostForce (i : ℕ)
  | answerForce (i : ℕ)
  | loseForce (i : ℕ)

/-- The conflict's stored template after an event of the tab. -/
def TabSession.theirsAfter (sync : CanvasSync τ ρ) (s : TabSession τ ρ) : TabEvent τ → Option τ
  | .answer i =>
    match s.tab.saves[i]? with
    | some ⟨_, _, some (.stale (some current))⟩ =>
      match sync.parse current with
      | .ok _ => some current
      | _ => s.theirs
    | _ => s.theirs
  | _ => s.theirs

/-- What the tab takes over, or sends, in an event. -/
def TabSession.sights (sync : CanvasSync τ ρ) (s : TabSession τ ρ) : TabEvent τ → List τ
  | .fire => [s.tab.template]
  | .answerFetch =>
    match s.tab.fetch with
    | .handled (some stored) =>
      match sync.parse stored with
      | .ok _ => [stored]
      | _ => []
    | _ => []
  | _ => []

def TabSession.takeTheirs (sync : CanvasSync τ ρ) (s : TabSession τ ρ) : Option (TabSession τ ρ) :=
  match s.tab.conflict, s.theirs with
  | some template, some stored =>
    some { s with
      tab := { s.tab with
        template := template, serverRev := some (sync.rev stored), conflict := none, status := .saved }
      theirs := none
      seen := stored :: s.seen }
  | _, _ => none

def TabSession.keepMine (s : TabSession τ ρ) : Option (TabSession τ ρ) :=
  if s.tab.conflict.isSome then
    some { s with
      tab := { s.tab with status := .saving }
      forces := s.forces ++ [(s.tab.template, none)]
      seen := s.tab.template :: s.seen }
  else none

def forced (sync : CanvasSync τ ρ) (server : Option τ) (template : τ) : Handling → Option τ × PutAnswer τ ρ
  | .checked => (some template, .ok (sync.rev template))
  | .unauthorized => (server, .unauthorized)
  | .failed => (server, .failed)

/-- What `keep_mine` makes of its answer. -/
def TabSession.forceAnswered (s : TabSession τ ρ) : PutAnswer τ ρ → TabSession τ ρ
  | .ok rev =>
    { s with tab := { s.tab with status := .saved, serverRev := some rev, conflict := none }, theirs := none }
  | _ => { s with tab := { s.tab with status := .saved } }

variable [DecidableEq ρ]

/-- A step of the tab, with the shared server in place of its own. -/
def TabSession.tabStep (sync : CanvasSync τ ρ) (server : Option τ) (s : TabSession τ ρ) (e : TabEvent τ) :
    Option (Option τ × TabSession τ ρ) :=
  (({ s.tab with server := server } : CanvasTab τ ρ).step sync e).map fun tab =>
    (tab.server, { s with tab := tab, theirs := s.theirsAfter sync e, seen := s.sights sync e ++ s.seen })

def TabSession.step (sync : CanvasSync τ ρ) (server : Option τ) (s : TabSession τ ρ) :
    SessionEvent τ → Option (Option τ × TabSession τ ρ)
  | .tab e => s.tabStep sync server e
  | .dismiss =>
    if s.tab.conflict.isSome then
      some (server, { s with tab := { s.tab with conflict := none }, theirs := none })
    else none
  | .takeTheirs => (s.takeTheirs sync).map (server, ·)
  | .keepMine => s.keepMine.map (server, ·)
  | .handleForce i how =>
    match s.forces[i]? with
    | some (template, none) =>
      let (server, answer) := forced sync server template how
      some (server, { s with forces := s.forces.set i (template, some answer) })
    | _ => none
  | .handleLostForce i =>
    match s.lostForces[i]? with
    | some template => some (some template, { s with lostForces := s.lostForces.eraseIdx i })
    | none => none
  | .answerForce i =>
    match s.forces[i]? with
    | some (_, some answer) => some (server, { s with forces := s.forces.eraseIdx i }.forceAnswered answer)
    | _ => none
  | .loseForce i =>
    match s.forces[i]? with
    | some (template, answer) =>
      some (server, { s with
        tab := { s.tab with status := .saved }
        forces := s.forces.eraseIdx i
        lostForces := if answer.isNone then s.lostForces ++ [template] else s.lostForces })
    | none => none

def CanvasWorld.step (sync : CanvasSync τ ρ) (w : CanvasWorld τ ρ) (k : ℕ) (e : SessionEvent τ) :
    Option (CanvasWorld τ ρ) :=
  ((w.tabs k).step sync w.server e).map fun (server, session) => ⟨server, Function.update w.tabs k session⟩

/-- The server handles a PUT of `keep_mine`. -/
def SessionEvent.forces : SessionEvent τ → Bool
  | .handleForce _ _ => true
  | .handleLostForce _ => true
  | _ => false

end OpenPoly
