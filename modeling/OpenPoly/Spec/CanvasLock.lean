import OpenPoly.Spec.Canvas
import OpenPoly.Spec.JsonDump
import Mathlib.Logic.Function.Basic

/-! The canvas template over HTTP: `canvas_store.py` and the two routes of
`canvas_routes.py`. A PUT runs on the event loop without yielding between its read of the
file and its write, a GET reads the file once, so a call is one step. -/

namespace OpenPoly

structure CanvasApi where
  /-- How deep the decoder lets containers nest. -/
  maxDepth : ℕ
  /-- The hex digest of a text's bytes. -/
  sha256 : String → String
  /-- FastAPI serializes this response body. -/
  renders : PyJson → Bool

inductive CanvasFile where
  | absent
  /-- No UTF-8 text. -/
  | undecodable
  | text (s : String)
  deriving DecidableEq

def CanvasApi.computeRev (api : CanvasApi) (template : PyDict) : String :=
  api.sha256 (canonicalText (.obj template))

/-- What `save_template` leaves at the path. -/
def savedFile (template : PyDict) : CanvasFile := .text (dumpText (.obj template))

/-- `load_template`, where the system may refuse to read the file. -/
def CanvasApi.loadTemplate (api : CanvasApi) (readable : Bool) : CanvasFile → Except PyErr (Option PyDict)
  | .absent => .ok none
  | .undecodable => if readable then .error (.other "UnicodeDecodeError") else .ok none
  | .text s =>
    if readable then
      match jsonDecode api.maxDepth s with
      | .ok (.obj template) => .ok (some template)
      | .ok _ => .ok none
      | .error e => if e = jsonDecodeError then .ok none else .error e
    else .ok none

def CanvasApi.stored (api : CanvasApi) (file : CanvasFile) : Option PyDict :=
  (api.loadTemplate true file).toOption.join

/-- An answer: a template with its revision, or an error with the `detail` the handler
gives it. -/
inductive CanvasAnswer where
  | ok (template : PyDict) (rev : String)
  | error (status : ℕ) (detail : Option PyJson)

def CanvasAnswer.accepted : CanvasAnswer → Bool
  | .ok .. => true
  | .error .. => false

def errorDetail (error message : String) (more : PyDict) : PyJson :=
  .obj ((PyStr.of "error", .str (PyStr.of error)) :: (PyStr.of "message", .str (PyStr.of message)) :: more)

/-- `{**template, "rev": rev}`. -/
def withRev (template : PyDict) (rev : String) : PyJson := .obj (template.set "rev" (.str (PyStr.of rev)))

/-- The response to a template, or the 500 of one that does not serialize. -/
def CanvasApi.answer (api : CanvasApi) (template : PyDict) : CanvasAnswer :=
  let rev := api.computeRev template
  if api.renders (withRev template rev) then .ok template rev else .error 500 none

/-- An `HTTPException`, whose own response may not serialize. -/
def CanvasApi.refusal (api : CanvasApi) (status : ℕ) (detail : PyJson) : CanvasAnswer :=
  if api.renders (.obj [(PyStr.of "detail", detail)]) then .error status (some detail) else .error 500 none

/-- `get_canvas_template`. -/
def CanvasApi.getTemplate (api : CanvasApi) (readable : Bool) (file : CanvasFile) : CanvasAnswer :=
  match api.loadTemplate readable file with
  | .error _ => .error 500 none
  | .ok none => api.refusal 404 (errorDetail "no_template" "no canvas template persisted yet" [])
  | .ok (some template) => api.answer template

/-- A PUT, and what the system does to it. -/
structure CanvasPut where
  body : String
  ifMatch : Option String
  authorized : Bool := true
  readable : Bool := true
  /-- The `OSError` of the save. -/
  saveError : Option String := none

/-- The checks of the body: the template to persist. -/
def CanvasApi.incoming (api : CanvasApi) (p : CanvasPut) : Except CanvasAnswer PyDict :=
  match jsonDecode api.maxDepth p.body with
  | .error e => .error (.error (if e = jsonDecodeError then 422 else 400) none)
  | .ok body =>
    if !p.authorized then .error (.error 401 none)
    else
      match body with
      | .obj body =>
        if !(PyDict.get? body "version").any (·.toInt?.isSome) then
          .error (api.refusal 400 (errorDetail "bad_shape" "version must be an integer" []))
        else if !templateShaped body then
          .error (api.refusal 400 (errorDetail "bad_shape" "nodes must be an array" []))
        else .ok (withoutRev body)
      | _ => .error (.error 422 none)

def CanvasApi.lockCheck (api : CanvasApi) (ifMatch : Option String) : Option PyDict → Option CanvasAnswer
  | none =>
    if ifMatch.all fun m => m = "*" ∨ m = "" then none
    else some (api.refusal 409 (errorDetail "stale_rev" "no template on disk yet; you sent If-Match"
      [(PyStr.of "current_rev", .null), (PyStr.of "template", .null)]))
  | some template =>
    let rev := api.computeRev template
    match ifMatch with
    | none => some (api.refusal 400 (errorDetail "if_match_required"
        "a canvas already exists; send If-Match: <rev> or If-Match: * to force"
        [(PyStr.of "current_rev", .str (PyStr.of rev))]))
    | some m =>
      if m ≠ "*" ∧ m ≠ rev then
        some (api.refusal 409 (errorDetail "stale_rev" "your draft is based on an older canvas"
          [(PyStr.of "current_rev", .str (PyStr.of rev)), (PyStr.of "template", .obj template)]))
      else none

/-- A template the lock lets through is saved, unless the save fails. -/
def CanvasApi.lockedSave (api : CanvasApi) (p : CanvasPut) (incoming : PyDict) (current : Option PyDict) :
    Except CanvasAnswer PyDict :=
  match api.lockCheck p.ifMatch current with
  | some refusal => .error refusal
  | none =>
    match p.saveError with
    | some message => .error (api.refusal 500 (errorDetail "save_failed" message []))
    | none => .ok incoming

/-- `put_canvas_template` up to its save: the template it saves, or the error. -/
def CanvasApi.toSave (api : CanvasApi) (p : CanvasPut) (file : CanvasFile) : Except CanvasAnswer PyDict := do
  let incoming ← api.incoming p
  let current ← (api.loadTemplate p.readable file).mapError fun _ => .error 500 none
  api.lockedSave p incoming current

/-- `put_canvas_template`. -/
def CanvasApi.putTemplate (api : CanvasApi) (p : CanvasPut) (file : CanvasFile) : CanvasFile × CanvasAnswer :=
  match api.toSave p file with
  | .error refusal => (file, refusal)
  | .ok incoming => (savedFile incoming, api.answer incoming)

def CanvasAnswer.given : CanvasAnswer → Option PyDict
  | .ok template _ => some template
  | .error _ (some (.obj detail)) =>
    match PyDict.get? detail "template" with
    | some (.obj template) => some template
    | _ => none
  | .error .. => none

/-- The file, what the answers have given each client so far, and the revision the last
accepted PUT returned. -/
structure CanvasHost where
  file : CanvasFile
  reads : ℕ → List PyDict := fun _ => []
  confirmed : Option String := none

inductive CanvasCall where
  | get (client : ℕ) (readable : Bool)
  | put (client : ℕ) (p : CanvasPut)

def CanvasHost.told (h : CanvasHost) (client : ℕ) (a : CanvasAnswer) : CanvasHost :=
  { h with reads := Function.update h.reads client (a.given.toList ++ h.reads client) }

def CanvasAnswer.rev? : CanvasAnswer → Option String
  | .ok _ rev => some rev
  | .error .. => none

def CanvasHost.step (api : CanvasApi) (h : CanvasHost) : CanvasCall → CanvasHost
  | .get client readable => h.told client (api.getTemplate readable h.file)
  | .put client p =>
    let (file, a) := api.putTemplate p h.file
    ({ h with file := file, confirmed := a.rev?.or h.confirmed } : CanvasHost).told client a

end OpenPoly
