import Crashlens.PyValue

/-!
# Envelope validation at ingest

`validateEnvelope` is the whole acceptance test of the ingest route: an event that passes it is
answered 202 and enqueued for the worker. It checks the required fields only; everything else in
the document is left as it came.
-/

namespace Crashlens

/-- The five accepted event levels. -/
def validLevels : List PyStr := [py "fatal", py "error", py "warning", py "info", py "debug"]

section Uuid

variable (rt : Runtime)

/-- Blanks become spaces and decimal digits of every script ASCII digits; the text ends with a
question mark where there is neither. -/
def decimalsAndSpaces : PyStr → PyStr
  | [] => []
  | c :: cs =>
    if c.val < 127 then c :: decimalsAndSpaces cs
    else if rt.isSpace c then CodePoint.ofNat 0x20 :: decimalsAndSpaces cs
    else
      match rt.decimal c with
      | some d => hexDigit d.val :: decimalsAndSpaces cs
      | none => py "?"

/-- `_PyUnicode_TransformDecimalAndSpaceToASCII`: an ASCII text stays as it is. -/
def transformDecimalAndSpace (s : PyStr) : PyStr :=
  if s.all fun c => c.val < 128 then s else decimalsAndSpaces rt s

/-- `Py_ISSPACE` -/
def isCSpace (c : CodePoint) : Bool := (9 ≤ c.val && c.val ≤ 13) || c.val = 0x20

/-- Hexadecimal digits with single underscores between them. -/
def isDigitRun : PyStr → Bool
  | [] => false
  | [c] => isHexDigit c
  | c :: d :: cs => isHexDigit c && if d.val = 0x5F then isDigitRun cs else isDigitRun (d :: cs)

/-- `int(s, 16)` succeeds: blanks around, an optional sign, an optional `0x` and one underscore
after it, and a run of digits. -/
def intBase16Ok (s : PyStr) : Bool :=
  let body := strip isCSpace (transformDecimalAndSpace rt s)
  let unsigned := match body with
    | c :: cs => if c.val = 0x2B ∨ c.val = 0x2D then cs else body
    | [] => []
  match unsigned with
  | z :: x :: cs =>
    if z.val = 0x30 ∧ (x.val = 0x78 ∨ x.val = 0x58) then
      match cs with
      | u :: rest => if u.val = 0x5F then isDigitRun rest else isDigitRun cs
      | [] => false
    else isDigitRun unsigned
  | _ => isDigitRun unsigned

/-- `uuid.UUID(hex)` does not raise `ValueError`. -/
def uuidOk (s : PyStr) : Bool :=
  let bare := replace (replace s (py "urn:") []) (py "uuid:") []
  let stripped := strip (py "\x7b\x7d").contains bare
  let digits := replace stripped (py "-") []
  digits.length == 32 && intBase16Ok rt digits

end Uuid

section Validate

variable (rt : Runtime)

def missingOrInvalid (field : String) : PyError :=
  .invalidEnvelope s!"missing or invalid field: {field}"

/-- A non-empty string under `key`; `field` is how the error names it. -/
def requireNonemptyStr (d : Dict) (key field : String) : Except PyError Unit :=
  match d.get key with
  | .str (_ :: _) => .ok ()
  | _ => .error (missingOrInvalid field)

def checkEventId (envelope : Dict) : Except PyError Unit :=
  match envelope.get "event_id" with
  | .str s => if uuidOk rt s then .ok () else .error (missingOrInvalid "event_id")
  | _ => .error (missingOrInvalid "event_id")

/-- A final `Z` is read as the offset `+00:00`. -/
def zuluOffset (value : PyStr) : PyStr :=
  if value.getLast? = some (CodePoint.ofNat 0x5A) then value.dropLast ++ py "+00:00" else value

def isRfc3339 (value : PyStr) : Bool := (rt.fromisoformat (zuluOffset value)).isSome

def checkTimestamp (envelope : Dict) : Except PyError Unit :=
  match envelope.get "timestamp" with
  | .str s => if isRfc3339 rt s then .ok () else .error (missingOrInvalid "timestamp")
  | _ => .error (missingOrInvalid "timestamp")

/-- `level not in VALID_LEVELS`: lists and objects are unhashable. -/
def checkLevel (envelope : Dict) : Except PyError Unit :=
  match envelope.get "level" with
  | .str s => if s ∈ validLevels then .ok () else .error (missingOrInvalid "level")
  | .arr _ => .error .typeError
  | .obj _ => .error .typeError
  | _ => .error (missingOrInvalid "level")

def checkSdk (envelope : Dict) : Except PyError Unit :=
  match envelope.get "sdk" with
  | .obj sdk => do
    requireNonemptyStr sdk "name" "sdk.name"
    requireNonemptyStr sdk "version" "sdk.version"
  | _ => .error (missingOrInvalid "sdk")

/-- A message or an exception, and neither of another type. -/
def checkBody (envelope : Dict) : Except PyError Unit :=
  match envelope.get "message", envelope.get "exception" with
  | .null, .null => .error (.invalidEnvelope "event requires a message or an exception")
  | .null, .obj _ => .ok ()
  | .str _, .null => .ok ()
  | .str _, .obj _ => .ok ()
  | .null, _ => .error (.invalidEnvelope "invalid field: exception")
  | .str _, _ => .error (.invalidEnvelope "invalid field: exception")
  | _, _ => .error (.invalidEnvelope "invalid field: message")

def validateEnvelope (envelope : Dict) : Except PyError Unit := do
  checkEventId rt envelope
  checkTimestamp rt envelope
  requireNonemptyStr envelope "platform" "platform"
  checkLevel envelope
  requireNonemptyStr envelope "environment" "environment"
  checkSdk envelope
  checkBody envelope

end Validate

end Crashlens
