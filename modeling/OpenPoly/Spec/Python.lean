import Mathlib.Data.Int.Log
import Mathlib.Data.Rat.Floor
import Mathlib.Algebra.Order.Round
import Mathlib.Tactic

/-! The Python values the backend reads off the wire: floats, decoded JSON and
the conversions `float()`, `int()`, `str()`, truthiness, `strip`, `lower` and
`upper`. A finite float is its exact rational value and float arithmetic is
exact, `nearestDouble` applied where the rounding decides; overflow to infinity and
`OverflowError` follow the binary64 range. -/

namespace OpenPoly

/-- A Python exception, as far as a caller can tell two of them apart. -/
inductive PyErr where
  | typeError
  | valueError
  | overflowError
  | attributeError
  | operationalError
  | integrityError
  /-- The SDK's exception that carries no HTTP status. -/
  | polyException (msg : String)
  /-- The SDK's exception for an HTTP answer. -/
  | polyApiException (statusCode : Option ℤ) (errorMsg : String)
  | other (name : String)
  deriving DecidableEq, Repr

def PyErr.name : PyErr → String
  | .typeError => "TypeError"
  | .valueError => "ValueError"
  | .overflowError => "OverflowError"
  | .attributeError => "AttributeError"
  | .operationalError => "OperationalError"
  | .integrityError => "IntegrityError"
  | .polyException _ => "PolyException"
  | .polyApiException _ _ => "PolyApiException"
  | .other name => name

/-- A Python float: a finite value, or one of the three that are not. -/
inductive PyFloat where
  | fin (q : ℚ)
  | inf
  | negInf
  | nan
  deriving DecidableEq

/-- A decoded JSON value. Integers are unbounded; `NaN` and the infinities are
literals Python's decoder accepts. Of a repeated key the last one counts. -/
inductive Json where
  | null
  | bool (b : Bool)
  | int (n : ℤ)
  | float (x : PyFloat)
  | str (s : String)
  | arr (xs : List Json)
  | obj (kvs : List (String × Json))
  deriving Inhabited

mutual

def Json.decEq : (a b : Json) → Decidable (a = b)
  | .null, b => match b with
    | .null => isTrue rfl
    | .bool _ | .int _ | .float _ | .str _ | .arr _ | .obj _ => isFalse nofun
  | .bool a, b => match b with
    | .bool b => decidable_of_iff (a = b) (by simp)
    | .null | .int _ | .float _ | .str _ | .arr _ | .obj _ => isFalse nofun
  | .int a, b => match b with
    | .int b => decidable_of_iff (a = b) (by simp)
    | .null | .bool _ | .float _ | .str _ | .arr _ | .obj _ => isFalse nofun
  | .float a, b => match b with
    | .float b => decidable_of_iff (a = b) (by simp)
    | .null | .bool _ | .int _ | .str _ | .arr _ | .obj _ => isFalse nofun
  | .str a, b => match b with
    | .str b => decidable_of_iff (a = b) (by simp)
    | .null | .bool _ | .int _ | .float _ | .arr _ | .obj _ => isFalse nofun
  | .arr xs, b => match b with
    | .arr ys => haveI := Json.decEqItems xs ys; decidable_of_iff (xs = ys) (by simp)
    | .null | .bool _ | .int _ | .float _ | .str _ | .obj _ => isFalse nofun
  | .obj kvs, b => match b with
    | .obj kvs' => haveI := Json.decEqEntries kvs kvs'; decidable_of_iff (kvs = kvs') (by simp)
    | .null | .bool _ | .int _ | .float _ | .str _ | .arr _ => isFalse nofun

def Json.decEqItems : (xs ys : List Json) → Decidable (xs = ys)
  | [], [] => isTrue rfl
  | [], _ :: _ => isFalse nofun
  | _ :: _, [] => isFalse nofun
  | x :: xs, y :: ys =>
    haveI := Json.decEq x y
    haveI := Json.decEqItems xs ys
    decidable_of_iff (x = y ∧ xs = ys) (by simp)

def Json.decEqEntries : (xs ys : List (String × Json)) → Decidable (xs = ys)
  | [], [] => isTrue rfl
  | [], _ :: _ => isFalse nofun
  | _ :: _, [] => isFalse nofun
  | (k, x) :: xs, (k', y) :: ys =>
    haveI := Json.decEq x y
    haveI := Json.decEqEntries xs ys
    decidable_of_iff ((k = k' ∧ x = y) ∧ xs = ys) (by simp)

end

instance : DecidableEq Json := Json.decEq

abbrev Dict := List (String × Json)

def Dict.get (d : Dict) (key : String) : Json :=
  match d.reverse.find? (fun kv => kv.1 == key) with
  | some kv => kv.2
  | none => .null

/-- `key in d`. -/
def Dict.contains (d : Dict) (key : String) : Bool := d.any (fun kv => kv.1 == key)

/-- `bool(value)`. A NaN is truthy. -/
def Json.truthy : Json → Bool
  | .null => false
  | .bool b => b
  | .int n => n != 0
  | .float x => x != .fin 0
  | .str s => s != ""
  | .arr xs => !xs.isEmpty
  | .obj kvs => !kvs.isEmpty

/-- `str(value) == ""`. -/
def Json.blank : Json → Bool
  | .str s => s = ""
  | _ => false

/-- `type(value).__name__`. -/
def Json.typeName : Json → String
  | .null => "NoneType"
  | .bool _ => "bool"
  | .int _ => "int"
  | .float _ => "float"
  | .str _ => "str"
  | .arr _ => "list"
  | .obj _ => "dict"

/-- `str(value)`, with `repr` for the text of floats and containers. -/
def Json.text (repr : Json → String) : Json → String
  | .null => "None"
  | .bool b => if b then "True" else "False"
  | .int n => toString n
  | .str s => s
  | value => repr value

def floatOverflow : ℚ := 2 ^ 1024 - 2 ^ 970

def toFloat (q : ℚ) : PyFloat :=
  if floatOverflow ≤ q then .inf else if q ≤ -floatOverflow then .negInf else .fin q

/-- `n / d` on integers, which raises where the quotient exceeds the range. -/
def intTrueDiv (n d : ℤ) : Except PyErr ℚ :=
  if floatOverflow ≤ |(n : ℚ) / d| then .error .overflowError else .ok (n / d)

/-- Code points for which `str.isspace` holds. -/
def isPySpace (c : Char) : Bool :=
  let n := c.toNat
  (9 ≤ n && n ≤ 13) || (28 ≤ n && n ≤ 32) || n == 0x85 || n == 0xA0 || n == 0x1680 ||
    (0x2000 ≤ n && n ≤ 0x200A) || n == 0x2028 || n == 0x2029 || n == 0x202F ||
    n == 0x205F || n == 0x3000

def stripChars (p : Char → Bool) (cs : List Char) : List Char :=
  ((cs.dropWhile p).reverse.dropWhile p).reverse

/-- `s.strip()`. -/
def pyStrip (s : String) : String := String.ofList (stripChars isPySpace s.toList)

/-- One character of `s.lower()`, exact wherever the lower-case form is ASCII:
besides `A`–`Z` that is the Kelvin sign alone. -/
def lowerChar (c : Char) : Char :=
  if 'A' ≤ c ∧ c ≤ 'Z' then Char.ofNat (c.toNat + 32) else if c.toNat = 0x212A then 'k' else c

/-- `s.lower()`, for comparison with ASCII words. -/
def pyLower (s : String) : String := String.ofList (s.toList.map lowerChar)

/-- One character of `s.upper()`, exact wherever the upper-case form is ASCII:
besides `a`–`z` that is dotless i, long s, sharp s and the Latin ligatures. -/
def upperChar (c : Char) : List Char :=
  if 'a' ≤ c ∧ c ≤ 'z' then [Char.ofNat (c.toNat - 32)] else
  match c.toNat with
  | 0x131 => ['I']
  | 0x17F => ['S']
  | 0xDF => ['S', 'S']
  | 0xFB00 => ['F', 'F']
  | 0xFB01 => ['F', 'I']
  | 0xFB02 => ['F', 'L']
  | 0xFB03 => ['F', 'F', 'I']
  | 0xFB04 => ['F', 'F', 'L']
  | 0xFB05 => ['S', 'T']
  | 0xFB06 => ['S', 'T']
  | _ => [c]

/-- `s.upper()`, for comparison with ASCII words. -/
def pyUpper (s : String) : String := String.ofList (s.toList.flatMap upperChar)

/-- The code points of the digit zero of every decimal digit run. -/
def decimalZeros : List ℕ :=
  [0x30, 0x660, 0x6F0, 0x7C0, 0x966, 0x9E6, 0xA66, 0xAE6, 0xB66, 0xBE6, 0xC66, 0xCE6, 0xD66,
    0xDE6, 0xE50, 0xED0, 0xF20, 0x1040, 0x1090, 0x17E0, 0x1810, 0x1946, 0x19D0, 0x1A80, 0x1A90,
    0x1B50, 0x1BB0, 0x1C40, 0x1C50, 0xA620, 0xA8D0, 0xA900, 0xA9D0, 0xA9F0, 0xAA50, 0xABF0,
    0xFF10, 0x104A0, 0x10D30, 0x10D40, 0x11066, 0x110F0, 0x11136, 0x111D0, 0x112F0, 0x11450,
    0x114D0, 0x11650, 0x116C0, 0x116D0, 0x116DA, 0x11730, 0x118E0, 0x11950, 0x11BF0, 0x11C50,
    0x11D50, 0x11DA0, 0x11F50, 0x16130, 0x16A60, 0x16AC0, 0x16B50, 0x16D70, 0x1CCF0, 0x1D7CE,
    0x1D7D8, 0x1D7E2, 0x1D7EC, 0x1D7F6, 0x1E140, 0x1E2F0, 0x1E4F0, 0x1E5F1, 0x1E950, 0x1FBF0]

/-- Decimal digits become ASCII digits and white space a blank before a
literal is read. -/
def asciiDigit (c : Char) : Char :=
  if isPySpace c then ' ' else
  match decimalZeros.find? (fun z => z ≤ c.toNat && c.toNat < z + 10) with
  | some z => Char.ofNat (0x30 + (c.toNat - z))
  | none => c

def literalChars (s : String) : List Char := stripChars (· == ' ') (s.toList.map asciiDigit)

/-- Underscores may stand between two digits only; `prev` is the last character read. -/
def dropUnderscores (prev : Char) : List Char → Option (List Char)
  | [] => if prev == '_' then none else some []
  | c :: cs =>
    if c == '_' then
      if prev.isDigit then dropUnderscores '_' cs else none
    else if prev == '_' && !c.isDigit then none
    else (dropUnderscores c cs).map (c :: ·)

def digitsValue (ds : List Char) : ℕ := ds.foldl (fun acc c => 10 * acc + (c.toNat - 0x30)) 0

def takeSign : List Char → Bool × List Char
  | '-' :: cs => (true, cs)
  | '+' :: cs => (false, cs)
  | cs => (false, cs)

/-- The exponent part of a literal: none, or `e`, a sign and digits. -/
def exponentValue : List Char → Option ℤ
  | [] => some 0
  | c :: cs =>
    if c == 'e' || c == 'E' then
      let (neg, ds) := takeSign cs
      if !ds.isEmpty && ds.all Char.isDigit then
        some (if neg then -(digitsValue ds : ℤ) else digitsValue ds)
      else none
    else none

/-- An unsigned decimal literal with an optional point and exponent. -/
def decimalValue (cs : List Char) : Option ℚ :=
  let whole := cs.takeWhile Char.isDigit
  let rest := cs.dropWhile Char.isDigit
  let (frac, rest) := match rest with
    | '.' :: r => (r.takeWhile Char.isDigit, r.dropWhile Char.isDigit)
    | r => ([], r)
  if whole.isEmpty && frac.isEmpty then none
  else (exponentValue rest).map fun e =>
    (digitsValue (whole ++ frac) : ℚ) * 10 ^ (e - (frac.length : ℤ))

/-- `float(s)`. -/
def floatOfString (s : String) : Except PyErr PyFloat :=
  match dropUnderscores ' ' (literalChars s) with
  | none => .error .valueError
  | some cs =>
    let (neg, body) := takeSign cs
    let word := pyLower (String.ofList body)
    if word = "inf" ∨ word = "infinity" then .ok (if neg then .negInf else .inf)
    else if word = "nan" then .ok .nan
    else match decimalValue body with
      | some q => .ok (toFloat (if neg then -q else q))
      | none => .error .valueError

/-- `int(s)`; a literal of more than 4300 digits is refused. -/
def intOfString (s : String) : Except PyErr ℤ :=
  match dropUnderscores ' ' (literalChars s) with
  | none => .error .valueError
  | some cs =>
    let (neg, ds) := takeSign cs
    if ds.isEmpty || !ds.all Char.isDigit || 4300 < ds.length then .error .valueError
    else .ok (if neg then -(digitsValue ds : ℤ) else digitsValue ds)

/-- `float(value)`. -/
def pyFloat : Json → Except PyErr PyFloat
  | .null => .error .typeError
  | .bool b => .ok (.fin (if b then 1 else 0))
  | .int n =>
    match toFloat n with
    | .fin q => .ok (.fin q)
    | _ => .error .overflowError
  | .float x => .ok x
  | .str s => floatOfString s
  | .arr _ => .error .typeError
  | .obj _ => .error .typeError

/-- `int(value)`: a float is truncated toward zero. -/
def pyInt : Json → Except PyErr ℤ
  | .null => .error .typeError
  | .bool b => .ok (if b then 1 else 0)
  | .int n => .ok n
  | .float (.fin q) => .ok (if q < 0 then ⌈q⌉ else ⌊q⌋)
  | .float .nan => .error .valueError
  | .float _ => .error .overflowError
  | .str s => intOfString s
  | .arr _ => .error .typeError
  | .obj _ => .error .typeError

/-- `round(x)` to the nearest integer, ties to even. -/
def roundHalfEven (x : ℚ) : ℤ :=
  let f := ⌊x⌋
  let r := x - f
  if r < 1 / 2 then f else if 1 / 2 < r then f + 1 else if f % 2 = 0 then f else f + 1

/-- The double nearest to `x`, ties to even; subnormals share the least exponent. -/
def nearestDouble (x : ℚ) : ℚ :=
  let ulp := (2 : ℚ) ^ max (Int.log 2 |x| - 52) (-1074)
  roundHalfEven (x / ulp) * ulp

example : floatOfString " -1_0.5e1 " = .ok (.fin (-105)) := by decide +kernel
example : floatOfString "1__0" = .error .valueError := by decide +kernel
example : pyInt (.str " 12 ") = .ok 12 := by decide +kernel
example : nearestDouble (1 / 10) = 3602879701896397 / 2 ^ 55 := by decide +kernel

end OpenPoly
