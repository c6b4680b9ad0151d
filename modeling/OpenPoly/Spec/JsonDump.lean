import OpenPoly.Spec.JsonText
import Mathlib.Data.List.DropRight
import Mathlib.Data.List.Sort

/-! `json.dump` and `json.dumps` as the canvas store calls them. A finite float is
written as its exact decimal, where Python writes the shortest that rounds to it. -/

namespace OpenPoly

def quoteMark : Char := Char.ofNat 0x22

def backslash : Char := Char.ofNat 0x5C

def hexChar (n : ℕ) : Char := Char.ofNat (if n < 10 then 0x30 + n else 0x57 + n)

/-- The `u` escape of a code unit. -/
def unicodeText (n : ℕ) : List Char :=
  [backslash, 'u', hexChar (n / 4096), hexChar (n / 256 % 16), hexChar (n / 16 % 16), hexChar (n % 16)]

/-- `ESCAPE_DCT`. -/
def shortEscape (n : ℕ) : Option Char :=
  match n with
  | 0x22 => some quoteMark
  | 0x5C => some backslash
  | 0x08 => some 'b'
  | 0x0C => some 'f'
  | 0x0A => some 'n'
  | 0x0D => some 'r'
  | 0x09 => some 't'
  | _ => none

/-- One code point of `py_encode_basestring_ascii`. -/
def encodeChar : PyChar → List Char
  | .surrogate n => unicodeText n
  | .char c =>
    match shortEscape c.toNat with
    | some e => [backslash, e]
    | none =>
      if 0x20 ≤ c.toNat ∧ c.toNat ≤ 0x7E then [c]
      else if c.toNat < 0x10000 then unicodeText c.toNat
      else
        let v := c.toNat - 0x10000
        unicodeText (0xD800 + v / 0x400) ++ unicodeText (0xDC00 + v % 0x400)

def stringText (s : PyStr) : List Char := quoteMark :: (s.flatMap encodeChar ++ [quoteMark])

/-- `int.__repr__`. -/
def intText (n : ℤ) : List Char :=
  if n < 0 then '-' :: Nat.toDigits 10 n.natAbs else Nat.toDigits 10 n.natAbs

def decimalPlaces (q : ℚ) : ℕ := ((List.range (q.den.log2 + 1)).find? fun k => q.den ∣ 10 ^ k).getD 0

/-- Digits with a point before the last `places` of them. -/
def pointText (digits : List Char) (places : ℕ) : List Char :=
  if places = 0 then digits ++ ['.', '0']
  else if places < digits.length then
    digits.take (digits.length - places) ++ '.' :: digits.drop (digits.length - places)
  else '0' :: '.' :: (List.replicate (places - digits.length) '0' ++ digits)

def exponentText (e : ℤ) : List Char :=
  'e' :: (if e < 0 then '-' else '+') ::
    (if e.natAbs < 10 then '0' :: Nat.toDigits 10 e.natAbs else Nat.toDigits 10 e.natAbs)

/-- One digit, a point before the rest of them, and the exponent. -/
def scientificText (digits : List Char) (e : ℤ) : List Char :=
  match digits.rdropWhile (· = '0') with
  | [] => []
  | [d] => d :: exponentText e
  | d :: ds => d :: '.' :: (ds ++ exponentText e)

/-- `float.__repr__` of a finite float. -/
def floatRepr (q : ℚ) : List Char :=
  let places := decimalPlaces q
  let digits := Nat.toDigits 10 (q * 10 ^ places).num.natAbs
  -- where the point stands, from the first digit on
  let point : ℤ := digits.length - places
  (if q < 0 then ['-'] else []) ++
    if -4 < point ∧ point ≤ 16 then pointText digits places else scientificText digits (point - 1)

def floatText : PyFloat → List Char
  | .nan => "NaN".toList
  | .inf => "Infinity".toList
  | .negInf => "-Infinity".toList
  | .fin q => floatRepr q

/-- The white space of a layout: before an item and before the closing bracket, by
depth, and after the colon of a key. -/
structure JsonLayout where
  newline : ℕ → List Char
  gap : List Char
  newline_space : ∀ depth, ∀ c ∈ newline depth, isJsonSpace c = true
  gap_space : ∀ c ∈ gap, isJsonSpace c = true

/-- `indent=2`. -/
def indented : JsonLayout where
  newline depth := Char.ofNat 0x0A :: List.replicate (2 * depth) ' '
  gap := [' ']
  newline_space := by
    intro depth c hc
    rcases List.mem_cons.mp hc with rfl | hc
    · decide
    · rw [List.eq_of_mem_replicate hc]
      decide
  gap_space := List.forall_mem_singleton.mpr rfl

/-- `separators=(",", ":")`. -/
def compact : JsonLayout where
  newline _ := []
  gap := []
  newline_space := nofun
  gap_space := nofun

def bracketed (L : JsonLayout) (depth : ℕ) (opening closing : ℕ) (items : List Char) : List Char :=
  if items.isEmpty then [Char.ofNat opening, Char.ofNat closing]
  else Char.ofNat opening :: (items.drop 1 ++ (L.newline depth ++ [Char.ofNat closing]))

mutual

def PyJson.encode (L : JsonLayout) (depth : ℕ) : PyJson → List Char
  | .null => "null".toList
  | .bool b => (if b then "true" else "false").toList
  | .int n => intText n
  | .float x => floatText x
  | .str s => stringText s
  | .arr xs => bracketed L depth 0x5B 0x5D (PyJson.encodeItems L (depth + 1) xs)
  | .obj d => bracketed L depth 0x7B 0x7D (PyJson.encodeEntries L (depth + 1) d)

def PyJson.encodeItems (L : JsonLayout) (depth : ℕ) : List PyJson → List Char
  | [] => []
  | x :: xs => ',' :: (L.newline depth ++ (x.encode L depth ++ PyJson.encodeItems L depth xs))

def PyJson.encodeEntries (L : JsonLayout) (depth : ℕ) : List (PyStr × PyJson) → List Char
  | [] => []
  | (k, x) :: d =>
    ',' :: (L.newline depth ++ (stringText k ++ ':' :: (L.gap ++ (x.encode L depth ++ PyJson.encodeEntries L depth d))))

end

def PyChar.code : PyChar → ℕ
  | .char c => c.toNat
  | .surrogate n => n

def keyLe (a b : PyStr × PyJson) : Prop := a.1.map PyChar.code ≤ b.1.map PyChar.code

instance : DecidableRel keyLe := fun a b => inferInstanceAs (Decidable (a.1.map PyChar.code ≤ b.1.map PyChar.code))

mutual

def PyJson.sortKeys : PyJson → PyJson
  | .arr xs => .arr (PyJson.sortItems xs)
  | .obj d => .obj ((PyJson.sortEntries d).insertionSort keyLe)
  | x => x

def PyJson.sortItems : List PyJson → List PyJson
  | [] => []
  | x :: xs => x.sortKeys :: PyJson.sortItems xs

def PyJson.sortEntries : List (PyStr × PyJson) → List (PyStr × PyJson)
  | [] => []
  | (k, x) :: d => (k, x.sortKeys) :: PyJson.sortEntries d

end

/-- The text `json.dump` writes with `indent=2`. -/
def dumpText (x : PyJson) : String := String.ofList (x.encode indented 0)

def canonicalText (x : PyJson) : String := String.ofList (x.sortKeys.encode compact 0)

end OpenPoly
