import OpenPoly.Spec.Python

/-! `json.loads`: the text of a JSON document and the value Python decodes it to,
with the decoder's three ways to fail. -/

namespace OpenPoly

def jsonDecodeError : PyErr := .other "JSONDecodeError"

def recursionError : PyErr := .other "RecursionError"

/-- The most digits `int()` and `str()` convert. -/
def maxIntDigits : ℕ := 4300

def isJsonSpace (c : Char) : Bool :=
  c.toNat = 0x20 || c.toNat = 0x09 || c.toNat = 0x0A || c.toNat = 0x0D

def skipSpace (cs : List Char) : List Char := cs.dropWhile isJsonSpace

/-- A code point of a Python string: a character, or a surrogate without its other half. -/
inductive PyChar where
  | char (c : Char)
  | surrogate (n : ℕ)
  deriving DecidableEq

abbrev PyStr := List PyChar

def PyStr.of (s : String) : PyStr := s.toList.map .char

/-- `s.encode()` succeeds. -/
def PyStr.encodable (s : PyStr) : Bool := s.all fun c => c matches .char _

@[simp]
theorem of_encodable (s : String) : (PyStr.of s).encodable = true := by simp [PyStr.of, PyStr.encodable]

def PyChar.shown : PyChar → Char
  | .char c => c
  | .surrogate _ => Char.ofNat 0xFFFD

def PyStr.shown (s : PyStr) : String := String.ofList (s.map PyChar.shown)

/-- A decoded JSON value with its strings as Python holds them. -/
inductive PyJson where
  | null
  | bool (b : Bool)
  | int (n : ℤ)
  | float (x : PyFloat)
  | str (s : PyStr)
  | arr (xs : List PyJson)
  | obj (kvs : List (PyStr × PyJson))
  deriving Inhabited

abbrev PyDict := List (PyStr × PyJson)

mutual

def PyJson.toJson : PyJson → Json
  | .null => .null
  | .bool b => .bool b
  | .int n => .int n
  | .float x => .float x
  | .str s => .str s.shown
  | .arr xs => .arr (PyJson.toItems xs)
  | .obj kvs => .obj (PyJson.toEntries kvs)

def PyJson.toItems : List PyJson → List Json
  | [] => []
  | x :: xs => x.toJson :: PyJson.toItems xs

def PyJson.toEntries : List (PyStr × PyJson) → Dict
  | [] => []
  | (k, x) :: kvs => (k.shown, x.toJson) :: PyJson.toEntries kvs

end

def PyDict.get? (d : PyDict) (key : String) : Option PyJson :=
  (d.reverse.find? fun kv => kv.1 = PyStr.of key).map Prod.snd

/-- `d[key] = value`. -/
def PyDict.assign (d : PyDict) (key : PyStr) (value : PyJson) : PyDict :=
  if d.any fun kv => kv.1 = key then d.map fun kv => if kv.1 = key then (kv.1, value) else kv
  else d ++ [(key, value)]

/-- `dict(pairs)`. -/
def dictOf (pairs : List (PyStr × PyJson)) : PyDict := pairs.foldl (fun d kv => d.assign kv.1 kv.2) []

abbrev Scan := List Char → Except PyErr (PyJson × List Char)

def hexDigit (c : Char) : Option ℕ :=
  if c.isDigit then some (c.toNat - 0x30)
  else if 'a' ≤ c ∧ c ≤ 'f' then some (c.toNat - 0x57)
  else if 'A' ≤ c ∧ c ≤ 'F' then some (c.toNat - 0x37)
  else none

def hexValue (a b c d : Char) : Option ℕ := do
  return ((← hexDigit a) * 16 + (← hexDigit b)) * 256 + ((← hexDigit c) * 16 + (← hexDigit d))

def simpleEscape (c : Char) : Option Char :=
  match c.toNat with
  | 0x22 => some c
  | 0x5C => some c
  | 0x2F => some c
  | 0x62 => some (Char.ofNat 0x08)
  | 0x66 => some (Char.ofNat 0x0C)
  | 0x6E => some (Char.ofNat 0x0A)
  | 0x72 => some (Char.ofNat 0x0D)
  | 0x74 => some (Char.ofNat 0x09)
  | _ => none

def unicodeEscape (n : ℕ) : PyChar :=
  if 0xD800 ≤ n ∧ n ≤ 0xDFFF then .surrogate n else .char (Char.ofNat n)

/-- The four digits after a `u` escape. -/
def scanHex : List Char → Option (ℕ × List Char)
  | a :: b :: c :: d :: rest => (hexValue a b c d).map (·, rest)
  | _ => none

/-- The low half of a surrogate pair, if the text goes on with one. -/
def scanLowSurrogate : List Char → Option (ℕ × List Char)
  | back :: 'u' :: rest =>
    if back.toNat = 0x5C then (scanHex rest).filter fun r => 0xDC00 ≤ r.1 ∧ r.1 ≤ 0xDFFF else none
  | _ => none

/-- The code point an escape stands for, after its backslash. -/
def scanEscape : List Char → Option (PyChar × List Char)
  | [] => none
  | 'u' :: cs => do
    let (n, rest) ← scanHex cs
    match (scanLowSurrogate rest).filter fun _ => 0xD800 ≤ n ∧ n ≤ 0xDBFF with
    | some (low, rest) =>
      return (.char (Char.ofNat (0x10000 + (n - 0xD800) * 0x400 + (low - 0xDC00))), rest)
    | none => return (unicodeEscape n, rest)
  | c :: rest => (simpleEscape c).map (.char ·, rest)

/-- The rest of a string after its opening quote. Every round reads a character,
so `rounds` beyond the text's length would find it empty. -/
def scanString : ℕ → List Char → Except PyErr (PyStr × List Char)
  | 0, _ => .error jsonDecodeError
  | _ + 1, [] => .error jsonDecodeError
  | rounds + 1, c :: cs =>
    if c.toNat = 0x22 then .ok ([], cs)
    else if c.toNat < 0x20 then .error jsonDecodeError
    else if c.toNat = 0x5C then
      match scanEscape cs with
      | some (ch, rest) => (scanString rounds rest).map fun r => (ch :: r.1, r.2)
      | none => .error jsonDecodeError
    else (scanString rounds cs).map fun r => (.char c :: r.1, r.2)

/-- The fraction's digits, if a point and a digit follow. -/
def scanFraction : List Char → List Char × List Char
  | '.' :: cs =>
    if (cs.takeWhile Char.isDigit).isEmpty then ([], '.' :: cs)
    else (cs.takeWhile Char.isDigit, cs.dropWhile Char.isDigit)
  | cs => ([], cs)

def scanExponent : List Char → Option ℤ × List Char
  | [] => (none, [])
  | c :: cs =>
    let (neg, ds) := takeSign cs
    if (c = 'e' ∨ c = 'E') ∧ !(ds.takeWhile Char.isDigit).isEmpty then
      let n : ℤ := digitsValue (ds.takeWhile Char.isDigit)
      (some (if neg then -n else n), ds.dropWhile Char.isDigit)
    else (none, c :: cs)

def scanNumber (neg : Bool) (cs : List Char) : Except PyErr (PyJson × List Char) :=
  let whole := if cs.head? = some '0' then ['0'] else cs.takeWhile Char.isDigit
  if whole.isEmpty then .error jsonDecodeError
  else
    let (frac, rest) := scanFraction (cs.drop whole.length)
    let (exponent, rest) := scanExponent rest
    if frac.isEmpty ∧ exponent.isNone then
      if maxIntDigits < whole.length then .error .valueError
      else .ok (.int (if neg then -(digitsValue whole : ℤ) else digitsValue whole), rest)
    else
      let q : ℚ := digitsValue (whole ++ frac) * 10 ^ (exponent.getD 0 - (frac.length : ℤ))
      .ok (.float (toFloat (if neg then -q else q)), rest)

def jsonWords : List (List Char × PyJson) :=
  [("null".toList, .null), ("true".toList, .bool true), ("false".toList, .bool false),
    ("NaN".toList, .float .nan), ("Infinity".toList, .float .inf),
    ("-Infinity".toList, .float .negInf)]

def scanWord (cs : List Char) : Option (PyJson × List Char) :=
  jsonWords.findSome? fun w => if w.1.isPrefixOf cs then some (w.2, cs.drop w.1.length) else none

/-- The items of an array up to its bracket. -/
def scanItems (scan : Scan) : ℕ → List Char → Except PyErr (List PyJson × List Char)
  | 0, _ => .error jsonDecodeError
  | rounds + 1, cs => do
    let (value, cs) ← scan cs
    match skipSpace cs with
    | ']' :: rest => return ([value], rest)
    | ',' :: rest =>
      let (values, rest) ← scanItems scan rounds (skipSpace rest)
      return (value :: values, rest)
    | _ => .error jsonDecodeError

/-- The members of an object up to its brace. -/
def scanMembers (scan : Scan) : ℕ → List Char → Except PyErr (List (PyStr × PyJson) × List Char)
  | 0, _ => .error jsonDecodeError
  | _ + 1, [] => .error jsonDecodeError
  | rounds + 1, c :: cs => do
    if c.toNat ≠ 0x22 then .error jsonDecodeError
    else
      let (key, cs) ← scanString (cs.length + 1) cs
      match skipSpace cs with
      | ':' :: cs =>
        let (value, cs) ← scan (skipSpace cs)
        match skipSpace cs with
        | ',' :: rest =>
          let (members, rest) ← scanMembers scan rounds (skipSpace rest)
          return ((key, value) :: members, rest)
        | c :: rest =>
          if c.toNat = 0x7D then return ([(key, value)], rest)
          else .error jsonDecodeError
        | [] => .error jsonDecodeError
      | _ => .error jsonDecodeError

/-- One value; `nested` scans the values inside it, if the recursion limit
leaves room for them. -/
def scanOnce (nested : Option Scan) : Scan
  | [] => .error jsonDecodeError
  | c :: cs =>
    if c.toNat = 0x22 then (scanString (cs.length + 1) cs).map fun r => (.str r.1, r.2)
    else if c = '[' then
      match nested with
      | none => .error recursionError
      | some scan =>
        match skipSpace cs with
        | ']' :: rest => .ok (.arr [], rest)
        | rest => (scanItems scan (rest.length + 1) rest).map fun r => (.arr r.1, r.2)
    else if c.toNat = 0x7B then
      match nested with
      | none => .error recursionError
      | some scan =>
        let rest := skipSpace cs
        if (rest.head?.any fun c => c.toNat = 0x7D) then .ok (.obj [], rest.drop 1)
        else (scanMembers scan (rest.length + 1) rest).map fun r => (.obj (dictOf r.1), r.2)
    else
      match scanWord (c :: cs) with
      | some r => .ok r
      | none => if c = '-' then scanNumber true cs else scanNumber false (c :: cs)

/-- Values nested at most `depth` deep. -/
def scanValue : ℕ → Scan
  | 0 => scanOnce none
  | depth + 1 => scanOnce (some (scanValue depth))

/-- `json.loads` of a string, where the recursion limit allows `maxDepth`
nested containers. -/
def jsonDecode (maxDepth : ℕ) (s : String) : Except PyErr PyJson :=
  if s.toList.head? = some (Char.ofNat 0xFEFF) then .error jsonDecodeError
  else do
    let (value, rest) ← scanValue maxDepth (skipSpace s.toList)
    if skipSpace rest = [] then return value else .error jsonDecodeError

/-- The decoded value for a reader that never looks at a lone surrogate. -/
def jsonLoads (maxDepth : ℕ) (s : String) : Except PyErr Json :=
  (jsonDecode maxDepth s).map PyJson.toJson

end OpenPoly
