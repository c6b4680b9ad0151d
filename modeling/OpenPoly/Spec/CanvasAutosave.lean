import OpenPoly.Spec.CanvasLock

/-! The canvas of one browser tab (`store.ts`) and the server it saves to. Templates are
what `serialize` gives and the server stores; a request is sent, handled and answered in
steps of their own, and its answer may be lost. -/

namespace OpenPoly

inductive PutAnswer (τ ρ : Type) where
  | ok (rev : ρ)
  /-- 409, with the template that is stored. -/
  | stale (current : Option τ)
  /-- 400. -/
  | required
  /-- 401 or 403. -/
  | unauthorized
  /-- Any other status. -/
  | failed
  deriving DecidableEq

/-- What the frontend makes of a stored template. -/
inductive Adopted (τ : Type) where
  | ok (template : τ)
  | incompatible
  | unreadable
  /-- The parse throws, which neither caller catches. -/
  | rejected

/-- The revision of a template, and `_parseTemplate`. -/
structure CanvasSync (τ ρ : Type) where
  rev : τ → ρ
  parse : τ → Adopted τ

/-- `put_canvas_template` of a template whose save and answer go through. -/
def CanvasSync.put {τ ρ : Type} [DecidableEq ρ] (sync : CanvasSync τ ρ) (stored : Option τ) (ifMatch : Option ρ)
    (template : τ) : Option τ × PutAnswer τ ρ :=
  match stored, ifMatch with
  | none, none => (some template, .ok (sync.rev template))
  | none, some _ => (none, .stale none)
  | some current, none => (some current, .required)
  | some current, some rev =>
    if rev = sync.rev current then (some template, .ok (sync.rev template))
    else (some current, .stale (some current))

inductive SaveStatus where
  | saved
  | saving
  | offline
  | authError
  deriving DecidableEq

/-- A PUT under way, with its answer once the server has handled it. -/
structure Save (τ ρ : Type) where
  template : τ
  ifMatch : Option ρ
  answer : Option (PutAnswer τ ρ) := none

/-- `bootstrapFromBackend`: sent at mount, handled by the server, over. -/
inductive Fetch (τ : Type) where
  | sent
  | handled (stored : Option τ)
  | over

structure CanvasTab (τ ρ : Type) where
  server : Option τ
  /-- PUTs that the tab has given up and the server may still handle. -/
  orphans : List (Save τ ρ) := []
  template : τ
  /-- `saveTimer` is armed. -/
  timer : Bool := false
  saves : List (Save τ ρ) := []
  fetch : Fetch τ := .sent
  serverRev : Option ρ := none
  status : SaveStatus := .saved
  /-- The other side's template of a conflict. -/
  conflict : Option τ := none

variable {τ ρ : Type} [DecidableEq ρ]

def CanvasTab.scheduleAutosave (s : CanvasTab τ ρ) : CanvasTab τ ρ :=
  if s.conflict.isSome then s else { s with status := .saving, timer := true }

/-- What `doSave` makes of its answer. -/
def CanvasTab.answered (sync : CanvasSync τ ρ) (s : CanvasTab τ ρ) : PutAnswer τ ρ → CanvasTab τ ρ
  | .ok rev => { s with status := .saved, serverRev := some rev }
  | .stale none => { s with status := .offline }
  | .stale (some current) =>
    match sync.parse current with
    | .ok theirs => { s with status := .saved, conflict := some theirs }
    | .rejected => s
    | _ => { s with status := .offline }
  | .required => { s with status := .saved }
  | .unauthorized => { s with status := .authError }
  | .failed => { s with status := .offline }

/-- What `bootstrapFromBackend` makes of the stored template. -/
def CanvasTab.fetched (sync : CanvasSync τ ρ) (s : CanvasTab τ ρ) : Option τ → CanvasTab τ ρ
  | none => { s with fetch := .over, serverRev := none }
  | some stored =>
    match sync.parse stored with
    | .ok template => { s with fetch := .over, template := template, serverRev := some (sync.rev stored) }
    | .incompatible => { s with fetch := .over }
    | .rejected => { s with fetch := .over }
    | .unreadable => { s with fetch := .over, status := .offline }

/-- How the server comes to handle a PUT. -/
inductive Handling where
  | checked
  | unauthorized
  | failed

inductive TabEvent (τ : Type) where
  | edit (template : τ)
  /-- The debounce timer fires. -/
  | fire
  | handle (save : ℕ) (how : Handling)
  | handleOrphan (save : ℕ)
  | answer (save : ℕ)
  /-- The tab sees a network error, whatever became of the request. -/
  | lose (save : ℕ)
  | handleFetch
  | answerFetch
  | loseFetch

def CanvasTab.handled (sync : CanvasSync τ ρ) (s : CanvasTab τ ρ) (save : Save τ ρ) : Handling → Option τ × PutAnswer τ ρ
  | .checked => sync.put s.server save.ifMatch save.template
  | .unauthorized => (s.server, .unauthorized)
  | .failed => (s.server, .failed)

/-- One event; `none` where it cannot occur. -/
def CanvasTab.step (sync : CanvasSync τ ρ) (s : CanvasTab τ ρ) : TabEvent τ → Option (CanvasTab τ ρ)
  | .edit template => some ({ s with template := template } : CanvasTab τ ρ).scheduleAutosave
  | .fire =>
    if s.timer then some { s with timer := false, saves := s.saves ++ [⟨s.template, s.serverRev, none⟩] } else none
  | .handle i how =>
    match s.saves[i]? with
    | some ⟨template, ifMatch, none⟩ =>
      let (server, answer) := s.handled sync ⟨template, ifMatch, none⟩ how
      some { s with server := server, saves := s.saves.set i ⟨template, ifMatch, some answer⟩ }
    | _ => none
  | .handleOrphan i =>
    match s.orphans[i]? with
    | some save =>
      some { s with server := (s.handled sync save .checked).1, orphans := s.orphans.eraseIdx i }
    | none => none
  | .answer i =>
    match s.saves[i]? with
    | some ⟨_, _, some answer⟩ => some (({ s with saves := s.saves.eraseIdx i } : CanvasTab τ ρ).answered sync answer)
    | _ => none
  | .lose i =>
    match s.saves[i]? with
    | some save =>
      some { s with
        saves := s.saves.eraseIdx i
        orphans := if save.answer.isNone then s.orphans ++ [save] else s.orphans
        status := .offline }
    | none => none
  | .handleFetch =>
    match s.fetch with
    | .sent => some { s with fetch := .handled s.server }
    | _ => none
  | .answerFetch =>
    match s.fetch with
    | .handled stored => some (s.fetched sync stored)
    | _ => none
  | .loseFetch =>
    match s.fetch with
    | .over => none
    | _ => some { s with fetch := .over, status := .offline }

end OpenPoly
