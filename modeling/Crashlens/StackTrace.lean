import Crashlens.JsText

/-!
# Stack parsing in the browser SDK and in the Node SDK

Both SDKs read `Error.stack` line by line with the same expressions for V8 lines. The browser SDK
also reads the lines of Firefox and Safari; the Node SDK turns `file://` URLs into paths and decides
`in_app`. `fileURLToPath` is Node's and may throw, which is `none` here.
-/

namespace Crashlens.Stack

open Backtracking CodeUnit

structure RawFrame where
  func : JsStr
  filename : JsStr
  lineno : JsNumber
  colno : JsNumber
deriving DecidableEq

structure StackFrame where
  filename : JsStr
  function : JsStr
  lineno : JsNumber
  colno : JsNumber
  inApp : Bool
deriving DecidableEq

structure Location where
  filename : JsStr
  lineno : JsNumber
  colno : JsNumber
deriving DecidableEq

/-! ## The expressions -/

section Expressions

/-- `:(\d+)` -/
def numberItems : List (Item CodeUnit) := literal (js ":") ++ [.greedy 1 isDigit]

/-- `/^(.*?):(\d+):(\d+)$/` -/
def withCol : Pattern CodeUnit where
  items := .lazy 0 isDot :: (numberItems ++ numberItems)
  after := List.isEmpty

/-- `/^(.*?):(\d+)$/` -/
def withLine : Pattern CodeUnit where
  items := .lazy 0 isDot :: numberItems
  after := List.isEmpty

/-- `/^\s*at\s/` -/
def atBlank : Pattern CodeUnit where
  items := .greedy 0 isSpace :: (literal (js "at") ++ [.one isSpace])
  after _ := true

/-- `/^\s*at\s+(.*)$/` -/
def atLine : Pattern CodeUnit where
  items := .greedy 0 isSpace :: (literal (js "at") ++ [.greedy 1 isSpace, .greedy 0 isDot])
  after := List.isEmpty

/-- `/^async\s+/` -/
def asyncMark : Pattern CodeUnit where
  items := literal (js "async") ++ [.greedy 1 isSpace]
  after _ := true

/-- `/^(.*?)\s*\((.*)\)\s*$/` -/
def paren : Pattern CodeUnit where
  items := .lazy 0 isDot :: .greedy 0 isSpace :: (literal (js "(") ++ .greedy 0 isDot ::
    (literal (js ")") ++ [.greedy 0 isSpace]))
  after := List.isEmpty

/-- `/^eval\b/` -/
def evalMark : Pattern CodeUnit where
  items := literal (js "eval")
  after rest := !rest.head?.any isWordChar

/-- `/\((\S.*?):(\d+):(\d+)\)/`; the first group is two items. -/
def inner : Pattern CodeUnit where
  items := literal (js "(") ++ (.one (fun c => !c.isSpace) :: .lazy 0 isDot ::
    (numberItems ++ (numberItems ++ literal (js ")"))))
  after _ := true

/-- `/^\s*([^@]*)@(.*)$/` -/
def firefoxLine : Pattern CodeUnit where
  items := .greedy 0 isSpace :: .greedy 0 (fun c => !(js "@").contains c) ::
    (literal (js "@") ++ [.greedy 0 isDot])
  after := List.isEmpty

end Expressions

/-! ## The parts both SDKs share -/

section Lines

/-- Pull a trailing `url:line:col` (or `url:line`) off a location string. -/
def splitLocation (location : JsStr) : Location :=
  match withCol.exec location with
  | some [filename, _, lineno, _, colno] =>
    ⟨filename, JsStr.parseInt lineno, JsStr.parseInt colno⟩
  | _ =>
    match withLine.exec location with
    | some [filename, _, lineno] => ⟨filename, JsStr.parseInt lineno, .finite 0⟩
    | _ => ⟨location, .finite 0, .finite 0⟩

/-- The function and the location of a V8 line, without the mark of an awaited call. -/
def callSite (rest : JsStr) : JsStr × JsStr :=
  match paren.exec rest with
  | some [func, _, _, location, _, _] => (func, location)
  | _ => ([], rest)

/-- The real call site of an eval frame, best effort. -/
def evalSite (location : JsStr) : JsStr :=
  if evalMark.test location then
    match inner.search location with
    | some [_, first, filename, _, lineno, _, colno, _] =>
      first ++ filename ++ js ":" ++ lineno ++ js ":" ++ colno
    | _ => location
  else location

/-- `func || "?"` -/
def orUnknown (func : JsStr) : JsStr := if func.isEmpty then js "?" else func

/-- A V8 line, its file name through `normalize`. -/
def parseAtLine (normalize : JsStr → JsStr) (line : JsStr) : Option RawFrame :=
  match atLine.exec line with
  | some [_, _, _, _, rest] =>
    let (func, location) := callSite (asyncMark.remove rest)
    let loc := splitLocation (evalSite location)
    some ⟨orUnknown func, normalize loc.filename, loc.lineno, loc.colno⟩
  | _ => none

/-- The loop over the lines: blank ones are skipped, and so are the ones without a frame. -/
def framesOf (frameOf : JsStr → Option RawFrame) (stack : JsStr) : List RawFrame :=
  stack.lines.filterMap fun line => if line.trim.isEmpty then none else frameOf line

def RawFrame.toStackFrame (inApp : Bool) (f : RawFrame) : StackFrame :=
  ⟨f.filename, f.func, f.lineno, f.colno, inApp⟩

end Lines

/-! ## The browser SDK -/

namespace Browser

def parseChromeLine : JsStr → Option RawFrame := parseAtLine id

/-- `func@url:line:col`, `@url:line:col` or `func@[native code]` -/
def parseFirefoxLine (line : JsStr) : Option RawFrame :=
  match firefoxLine.exec line with
  | some [_, func, _, location] =>
    let loc := splitLocation location
    some ⟨orUnknown func, loc.filename, loc.lineno, loc.colno⟩
  | _ => none

def frameOf (line : JsStr) : Option RawFrame :=
  if atBlank.test line then parseChromeLine line
  else if (js "@") <:+: line then parseFirefoxLine line
  else none

def parseStackString (stack : JsStr) : List RawFrame := framesOf frameOf stack

def toStackFrames (stack : JsStr) : List StackFrame :=
  (parseStackString stack).reverse.map (RawFrame.toStackFrame true)

end Browser

/-! ## The Node SDK -/

namespace Node

section

variable (fileURLToPath : JsStr → Option JsStr)

/-- A `file://` URL becomes a path, so that prefixes and `node_modules` are looked for in paths. -/
def normalizeFilename (filename : JsStr) : JsStr :=
  if js "file://" <+: filename then
    (fileURLToPath filename).getD (filename.drop (js "file://").length)
  else filename

def parseV8Line : JsStr → Option RawFrame := parseAtLine (normalizeFilename fileURLToPath)

def frameOf (line : JsStr) : Option RawFrame :=
  if atBlank.test line then parseV8Line fileURLToPath line else none

def parseStackString (stack : JsStr) : List RawFrame := framesOf (frameOf fileURLToPath) stack

def isInApp (filename : JsStr) (prefixes : Option (List JsStr)) : Bool :=
  let given := prefixes.getD []
  if given.length > 0 then given.any fun p => p <+: filename
  else if js "node:" <+: filename then false
  else if js "node_modules" <:+: filename then false
  else true

def stackFramesFromString (stack : JsStr) (prefixes : Option (List JsStr)) : List StackFrame :=
  (parseStackString fileURLToPath stack).reverse.map fun f =>
    f.toStackFrame (isInApp f.filename prefixes)

end

end Node

end Crashlens.Stack
