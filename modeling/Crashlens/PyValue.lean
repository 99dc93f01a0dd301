import Crashlens.Library.Assoc
import Mathlib.Data.List.Basic
import Mathlib.Data.Rat.Defs
import Mathlib.Data.List.Sort

/-!
# Python strings and decoded JSON values

A Python `str` is a list of code points, lone surrogates included: `json.loads` accepts the escape
`\\ud800`. A decoded JSON document is a `Json`; objects are association lists in insertion order.
`storable` is what a PostgreSQL `text` value and a `jsonb` document can hold: text without NUL and
without lone surrogates, and numbers other than the infinities and NaN, which Python's decoder
produces for `1e999` and `NaN`.

`Runtime` collects what the program takes from the Python runtime and is not modelled further: the
Unicode tables, the printing of floats, SHA-256, the ISO 8601 parser, the JSON decoder and the room
that its limits on recursion leave.
-/

namespace Crashlens

abbrev CodePoint := Fin 0x110000

abbrev PyStr := List CodePoint

def CodePoint.ofNat (n : ℕ) : CodePoint := Fin.ofNat _ n

def py (s : String) : PyStr := s.toList.map fun c => CodePoint.ofNat c.toNat

def CodePoint.isSurrogate (c : CodePoint) : Bool := 0xD800 ≤ c.val && c.val ≤ 0xDFFF

def CodePoint.storable (c : CodePoint) : Bool := c.val != 0 && !c.isSurrogate

def PyStr.storable (s : PyStr) : Bool := s.all CodePoint.storable

/-- A value of a PostgreSQL `text` column. -/
def Text := { s : PyStr // s.storable = true }

instance : DecidableEq Text := inferInstanceAs (DecidableEq { s : PyStr // s.storable = true })

/-- What the driver makes of a `str` bound to a `text` parameter. -/
def Text.ofPyStr? (s : PyStr) : Option Text := if h : s.storable = true then some ⟨s, h⟩ else none

/-- Microseconds since the epoch, in UTC. -/
abbrev Timestamp := ℤ

inductive PyFloat where
  | finite (negative : Bool) (magnitude : ℚ)
  | infinite (negative : Bool)
  | nan

def PyFloat.isFinite : PyFloat → Bool
  | .finite _ _ => true
  | _ => false

inductive Json where
  | null
  | bool (b : Bool)
  | int (n : ℤ)
  | float (x : PyFloat)
  | str (s : PyStr)
  | arr (items : List Json)
  | obj (fields : List (PyStr × Json))

abbrev Dict := List (PyStr × Json)

inductive PyError where
  | typeError
  | keyError
  | indexError
  | valueError
  | unicodeEncodeError
  | recursionError
  | invalidEnvelope (detail : String)
  deriving DecidableEq, Repr

theorem bind_ok {ε α β : Type} {x : Except ε α} {f : α → Except ε β} {b : β}
    (h : (x >>= f) = .ok b) : ∃ a, x = .ok a ∧ f a = .ok b := by
  cases x with
  | error e => cases h
  | ok a => exact ⟨a, rfl, h⟩

theorem map_ok {ε α β : Type} {x : Except ε α} {f : α → β} {b : β} (h : x.map f = .ok b) :
    ∃ a, x = .ok a ∧ f a = b := by
  cases x with
  | error e => cases h
  | ok a =>
      cases h
      exact ⟨a, rfl, rfl⟩

theorem toOption_eq_some {α : Type} {x : Except PyError α} {a : α} (h : x.toOption = some a) :
    x = .ok a := by
  cases x with
  | error e => cases h
  | ok a' =>
      cases h
      rfl

namespace Dict

/-- `d.get(key)`: absent and `null` fields both give `None`. -/
def get (d : Dict) (key : String) : Json := (d.lookup (py key)).getD .null

def getD (d : Dict) (key : String) (default : Json) : Json := (d.lookup (py key)).getD default

/-- `d[key]` -/
def item (d : Dict) (key : String) : Except PyError Json :=
  match d.lookup (py key) with
  | some v => .ok v
  | none => .error .keyError

/-- `d[key] = value`: an existing field keeps its place. -/
def set (d : Dict) (key : String) (value : Json) : Dict :=
  if (d.lookup (py key)).isSome then d.map fun kv => if kv.1 = py key then (kv.1, value) else kv
  else d ++ [(py key, value)]

/-- `d.pop(key, None)` -/
def pop (d : Dict) (key : String) : Dict := d.filter fun kv => kv.1 ≠ py key

theorem set_eq_upsert (d : Dict) (key : String) (v : Json) :
    d.set key v = Assoc.upsert d (py key) v := rfl

theorem lookup_set_ne (d : Dict) {key : String} {k : PyStr} (h : k ≠ py key) (v : Json) :
    (d.set key v).lookup k = d.lookup k := Assoc.lookup_upsert_ne d v h

theorem lookup_set_self (d : Dict) (key : String) (v : Json) :
    (d.set key v).lookup (py key) = some v := Assoc.lookup_upsert_self d v (py key)

@[simp] theorem get_set_self (d : Dict) (key : String) (v : Json) : (d.set key v).get key = v := by
  rw [get, lookup_set_self, Option.getD_some]

@[simp] theorem getD_set_self (d : Dict) (key : String) (v default : Json) :
    (d.set key v).getD key default = v := by
  rw [getD, lookup_set_self, Option.getD_some]

theorem get_set_ne (d : Dict) {key k : String} (h : py k ≠ py key) (v : Json) :
    (d.set key v).get k = d.get k := by
  unfold get
  rw [lookup_set_ne d h]

theorem lookup_pop (d : Dict) (key : String) (k : PyStr) :
    (d.pop key).lookup k = if k = py key then none else d.lookup k := Assoc.lookup_erase d

@[simp] theorem get_pop_self (d : Dict) (key : String) : (d.pop key).get key = .null := by
  rw [get, lookup_pop, if_pos rfl, Option.getD_none]

theorem get_pop_ne (d : Dict) {key k : String} (h : py k ≠ py key) :
    (d.pop key).get k = d.get k := by
  rw [get, lookup_pop, if_neg h, get]

end Dict

namespace Json

/-- `bool(value)` -/
def truthy : Json → Bool
  | .null => false
  | .bool b => b
  | .int n => n != 0
  | .float (.finite _ q) => q != 0
  | .float _ => true
  | .str s => !s.isEmpty
  | .arr xs => !xs.isEmpty
  | .obj kvs => !kvs.isEmpty

/-- `iter(value)`: strings give their characters and objects their keys. -/
def iter : Json → Except PyError (List Json)
  | .arr xs => .ok xs
  | .obj kvs => .ok (kvs.map fun kv => .str kv.1)
  | .str s => .ok (s.map fun c => .str [c])
  | _ => .error .typeError

mutual

/-- The documents `jsonb` accepts. -/
def storable : Json → Bool
  | .float x => x.isFinite
  | .str s => PyStr.storable s
  | .arr xs => storableItems xs
  | .obj kvs => storableFields kvs
  | _ => true

def storableItems : List Json → Bool
  | [] => true
  | x :: xs => storable x && storableItems xs

def storableFields : List (PyStr × Json) → Bool
  | [] => true
  | (k, v) :: kvs => PyStr.storable k && storable v && storableFields kvs

end

mutual

/-- How deep a value is nested, where a value that is no container counts `leaf` levels. -/
def depth (leaf : ℕ) : Json → ℕ
  | .arr xs => depthItems leaf xs + 1
  | .obj kvs => depthFields leaf kvs + 1
  | _ => leaf

def depthItems (leaf : ℕ) : List Json → ℕ
  | [] => 0
  | x :: xs => max (depth leaf x) (depthItems leaf xs)

def depthFields (leaf : ℕ) : List (PyStr × Json) → ℕ
  | [] => 0
  | (_, v) :: kvs => max (depth leaf v) (depthFields leaf kvs)

end

end Json

/-- The calls that may still be nested where a recursive pass begins; one more raises
`RecursionError`. -/
structure Room where
  /-- `copy.deepcopy` of an envelope. -/
  deepcopy : ℕ
  /-- `json.loads` of a request body. -/
  loads : ℕ
  /-- `pickle.dumps` of the envelope of a job. -/
  pickle : ℕ
  /-- `_check_data_safety` of audit data. -/
  guard : ℕ
  /-- `json.dumps` of audit data. -/
  dumps : ℕ

/-- What the program uses of the Python runtime without the model defining it. -/
structure Runtime where
  isAlnum : CodePoint → Bool
  decimal : CodePoint → Option (Fin 10)
  isSpace : CodePoint → Bool
  floatRepr : Bool → ℚ → PyStr
  /-- `str(value)` of a value that is not a string. -/
  str : Json → PyStr
  sha256 : List UInt8 → BitVec 256
  /-- `None` where the parser raises `ValueError`. -/
  fromisoformat : PyStr → Option Timestamp
  /-- Raises `ValueError` where the bytes or the document do not decode, and `RecursionError` where
  the document is nested too deeply. -/
  jsonLoads : List UInt8 → Except PyError Json
  room : Room
  floatRepr_ascii : ∀ b q, ∀ c ∈ floatRepr b q, 0 < c.val ∧ c.val < 128
  str_storable : ∀ v, (str v).storable = true

/-! ## Strings -/

/-- `s.replace` and `re.sub`: `matched prev rest` is the length of the match at a position whose
previous character is `prev`, and 0 where there is none; `skip` counts the characters of the
current match still to be dropped. -/
def substitute (matched : Option CodePoint → PyStr → ℕ) (rep : PyStr) :
    Option CodePoint → ℕ → PyStr → PyStr
  | _, _, [] => []
  | _, skip + 1, c :: cs => substitute matched rep (some c) skip cs
  | prev, 0, c :: cs =>
    match matched prev (c :: cs) with
    | 0 => c :: substitute matched rep (some c) 0 cs
    | n + 1 => rep ++ substitute matched rep (some c) n cs

def replace (s pattern rep : PyStr) : PyStr :=
  substitute (fun _ rest => if pattern.isPrefixOf rest then pattern.length else 0) rep none 0 s

/-- `s.split(sep)` for a one-character separator. -/
def splitOn (sep : CodePoint) : PyStr → List PyStr
  | [] => [[]]
  | c :: cs =>
    if c = sep then [] :: splitOn sep cs
    else
      match splitOn sep cs with
      | [] => [[c]]
      | part :: parts => (c :: part) :: parts

def rstrip (drop : CodePoint → Bool) (s : PyStr) : PyStr := (s.reverse.dropWhile drop).reverse

def strip (drop : CodePoint → Bool) (s : PyStr) : PyStr := rstrip drop (s.dropWhile drop)

/-- The line boundaries of `str.splitlines`. -/
def isLineBreak (c : CodePoint) : Bool :=
  c.val ∈ [0x0A, 0x0B, 0x0C, 0x0D, 0x1C, 0x1D, 0x1E, 0x85, 0x2028, 0x2029]

/-- `str.splitlines`; a carriage return and a line feed are one boundary, and text after the last
boundary is a line only when it is not empty. -/
def splitlines : PyStr → List PyStr
  | [] => []
  | [c] => if isLineBreak c then [[]] else [[c]]
  | c :: d :: cs =>
    if c.val = 0x0D ∧ d.val = 0x0A then [] :: splitlines cs
    else if isLineBreak c then [] :: splitlines (d :: cs)
    else
      match splitlines (d :: cs) with
      | [] => [[c]]
      | line :: lines => (c :: line) :: lines

/-- `text.encode("utf-8")` -/
def utf8Encode : PyStr → Except PyError (List UInt8)
  | [] => .ok []
  | c :: cs =>
    if c.isSurrogate then .error .unicodeEncodeError
    else do
      let rest ← utf8Encode cs
      let n := c.val
      let continuation (shift : ℕ) : UInt8 := UInt8.ofNat (0x80 + n >>> shift % 64)
      if n < 0x80 then return UInt8.ofNat n :: rest
      else if n < 0x800 then return UInt8.ofNat (0xC0 + n >>> 6) :: continuation 0 :: rest
      else if n < 0x10000 then
        return UInt8.ofNat (0xE0 + n >>> 12) :: continuation 6 :: continuation 0 :: rest
      else
        return UInt8.ofNat (0xF0 + n >>> 18) :: continuation 12 :: continuation 6 ::
          continuation 0 :: rest

def isHexDigit (c : CodePoint) : Bool :=
  (48 ≤ c.val && c.val ≤ 57) || (65 ≤ c.val && c.val ≤ 70) || (97 ≤ c.val && c.val ≤ 102)

def hexDigit (n : ℕ) : CodePoint :=
  if n < 10 then CodePoint.ofNat (48 + n) else CodePoint.ofNat (87 + n)

/-- The lower-case hexadecimal digits of `n`, most significant first, padded to `width`. -/
def toHex : ℕ → ℕ → PyStr
  | 0, _ => []
  | width + 1, n => toHex width (n / 16) ++ [hexDigit (n % 16)]

/-- `str(uuid.UUID(int=n))` -/
def uuidStr (n : ℕ) : PyStr :=
  toHex 8 (n >>> 96) ++ py "-" ++ toHex 4 (n >>> 80) ++ py "-" ++ toHex 4 (n >>> 64) ++ py "-" ++
    toHex 4 (n >>> 48) ++ py "-" ++ toHex 12 n

/-! ## `json.dumps(value, sort_keys=True, separators=(",", ":"), ensure_ascii=False)` -/

namespace Runtime

def escape (c : CodePoint) : PyStr :=
  if c.val = 0x22 then py "\\\""
  else if c.val = 0x5C then py "\\\\"
  else if c.val = 0x0A then py "\\n"
  else if c.val = 0x0D then py "\\r"
  else if c.val = 0x09 then py "\\t"
  else if c.val = 0x0C then py "\\f"
  else if c.val = 0x08 then py "\\b"
  else if c.val < 0x20 then py "\\u" ++ toHex 4 c.val
  else [c]

def quote (s : PyStr) : PyStr := py "\"" ++ s.flatMap escape ++ py "\""

/-- Object keys in code point order. -/
def keyLe (a b : PyStr × PyStr) : Prop := ¬ List.Lex (· < ·) b.1 a.1

instance : DecidableRel keyLe := fun a b => inferInstanceAs (Decidable (¬ List.Lex (· < ·) b.1 a.1))

variable (rt : Runtime)

def floatText : PyFloat → PyStr
  | .finite negative q => rt.floatRepr negative q
  | .infinite negative => if negative then py "-Infinity" else py "Infinity"
  | .nan => py "NaN"

def joinComma : List PyStr → PyStr
  | [] => []
  | [x] => x
  | x :: xs => x ++ py "," ++ joinComma xs

mutual

def dumps : Json → PyStr
  | .null => py "null"
  | .bool b => if b then py "true" else py "false"
  | .int n => py (toString n)
  | .float x => rt.floatText x
  | .str s => quote s
  | .arr xs => py "[" ++ joinComma (dumpsItems xs) ++ py "]"
  | .obj kvs =>
    py "\x7b" ++ joinComma (((dumpsFields kvs).insertionSort keyLe).map fun kv =>
      quote kv.1 ++ py ":" ++ kv.2) ++ py "\x7d"

def dumpsItems : List Json → List PyStr
  | [] => []
  | x :: xs => dumps x :: dumpsItems xs

def dumpsFields : List (PyStr × Json) → List (PyStr × PyStr)
  | [] => []
  | (k, v) :: kvs => (k, dumps v) :: dumpsFields kvs

end

/-- `hashlib.sha256(data).hexdigest()` -/
def hexdigest (data : List UInt8) : PyStr := toHex 64 (rt.sha256 data).toNat

end Runtime

end Crashlens
