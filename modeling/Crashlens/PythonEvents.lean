import Crashlens.Calendar
import Crashlens.PayloadLimits

/-!
# Events of the Python SDK

`_envelope.py`, the scope of one context from `_scope.py` and the capture calls of `_client.py`,
with the handlers and hooks that make them. Exceptions are the nodes of a graph the application has
built: causes and contexts may lead round in a circle, and a traceback has any number of entries.
The source cache, the file system and the code objects are parameters.
-/

namespace Crashlens.Python

def maxCauseDepth : ℕ := 5
def maxContextLines : ℤ := 5
def maxFrames : ℕ := 128
def maxBreadcrumbs : ℕ := 100
def sdkName : PyStr := py "crashlens-python"
def sdkVersion : PyStr := py "0.1.0"

/-- The fields of a dict that are set under a condition. -/
def optional (key : String) (value : Option Json) : Dict :=
  match value with
  | some v => [(py key, v)]
  | none => []

/-! ## Frames -/

/-- What the SDK asks the interpreter it runs in. -/
structure Host where
  /-- `None` where it raises `OSError`. -/
  realpath : PyStr → Option PyStr
  normcase : PyStr → PyStr
  libraryPaths : List PyStr
  /-- `linecache.getline`: empty where there is no such line. -/
  getline : PyStr → ℤ → PyStr

/-- An entry of a traceback, with what is read of its frame and its code object. -/
structure TraceEntry where
  filename : PyStr
  name : PyStr
  lineno : Option ℤ
  lasti : ℤ
  /-- The start columns of `co_positions`, where the code object has them. -/
  startColumns : Option (List (Option ℤ))
  module : Option PyStr

section Frames

variable (host : Host) (prefixes : Option (List PyStr))

def isInApp (filename : PyStr) (module : Option PyStr) : Bool :=
  match prefixes with
  | some (p :: ps) =>
    match module with
    | some (c :: cs) => (p :: ps).any fun p => p.isPrefixOf (c :: cs)
    | _ => false
  | _ =>
    if filename.isEmpty then true
    else
      let fn := host.normcase ((host.realpath filename).getD filename)
      !(decide (py "site-packages" <:+: fn) || decide (py "dist-packages" <:+: fn) ||
        host.libraryPaths.any fun p => p.isPrefixOf fn)

def colno (entry : TraceEntry) : ℤ :=
  match entry.startColumns with
  | none => 0
  | some positions =>
    let instrIndex := entry.lasti / 2
    if instrIndex < 0 then 0 else (positions[instrIndex.toNat]?.join).getD 0

/-- `range(start, stop)` -/
def range (start stop : ℤ) : List ℤ := (List.range (stop - start).toNat).map fun i => start + i

def sourceLine (line : PyStr) : Json := .str (rstrip (fun c => c.val = 0x0A) line)

/-- The lines there are among those of the given numbers. -/
def contextLines (filename : PyStr) (numbers : List ℤ) : Option Json :=
  match (numbers.map (host.getline filename)).filter fun line => !line.isEmpty with
  | [] => none
  | lines => some (.arr (lines.map sourceLine))

def sourceContext (filename : PyStr) : Option ℤ → Dict
  | none => []
  | some lineno =>
    if filename.isEmpty ∨ lineno < 1 then []
    else
      let contextLine := host.getline filename lineno
      if contextLine.isEmpty then []
      else
        (py "context_line", sourceLine contextLine) ::
          optional "pre_context"
            (contextLines host filename (range (max 1 (lineno - maxContextLines)) lineno)) ++
          optional "post_context"
            (contextLines host filename (range (lineno + 1) (lineno + 1 + maxContextLines)))

def buildFrame (entry : TraceEntry) : Dict :=
  [(py "filename", .str entry.filename), (py "function", .str entry.name),
    (py "lineno", .int (entry.lineno.getD 0)), (py "colno", .int (colno entry)),
    (py "in_app", .bool (isInApp host prefixes entry.filename entry.module))] ++
    sourceContext host entry.filename entry.lineno

/-- The frames nearest the crash, which is the last entry. -/
def buildFrames (tb : List TraceEntry) : List Json :=
  let frames := tb.map fun entry => .obj (buildFrame host prefixes entry)
  if maxFrames < frames.length then lastN maxFrames frames else frames

end Frames

/-! ## Exceptions -/

/-- `ε` names the exceptions, and `is` compares the names. -/
structure PyException (ε : Type) where
  typeName : PyStr
  /-- `str(exc)`, where it does not raise. -/
  text : Option PyStr
  traceback : List TraceEntry
  cause : Option ε
  context : Option ε
  suppressContext : Bool

abbrev Graph (ε : Type) := ε → PyException ε

section Exceptions

variable {ε : Type} [DecidableEq ε] (graph : Graph ε)

def nextCause (exc : ε) : Option ε :=
  match (graph exc).cause with
  | some cause => some cause
  | none => if (graph exc).suppressContext then none else (graph exc).context

/-- The cause that is followed: an exception that causes itself ends the chain. -/
def followed (exc : ε) : Option ε := (nextCause graph exc).filter (· ≠ exc)

def safeStr (exc : ε) : PyStr :=
  (graph exc).text.getD (py "<unprintable " ++ (graph exc).typeName ++ py ">")

variable (host : Host) (prefixes : Option (List PyStr))

/-- The fields of one exception, its cause apart. -/
def exceptionFields (exc : ε) : Dict :=
  [(py "type", .str (graph exc).typeName), (py "value", .str (safeStr graph exc)),
    (py "stacktrace", .obj [(py "frames", .arr (buildFrames host prefixes (graph exc).traceback))])]

/-- `_build_exception` at depth `maxCauseDepth - left`. -/
def buildException : (left : ℕ) → ε → Dict
  | 0, exc => exceptionFields graph host prefixes exc
  | left + 1, exc =>
    match followed graph exc with
    | some cause => exceptionFields graph host prefixes exc ++
        [(py "cause", .obj (buildException left cause))]
    | none => exceptionFields graph host prefixes exc

end Exceptions

/-! ## The scope of a context -/

/-- The breadcrumbs of a context, the newest last. -/
structure Breadcrumbs where
  items : List Dict
  bounded : items.length ≤ maxBreadcrumbs

structure Scope where
  breadcrumbs : Breadcrumbs
  tags : List (PyStr × PyStr)
  user : Option PyStr

/-- `strftime("%Y-%m-%dT%H:%M:%S.")`, the milliseconds and a `Z`. -/
def nowRfc3339 (now : Timestamp) : PyStr :=
  let second := now / 1000000 % 86400
  isoDate (utcDay now) ++ py "T" ++ decimal 2 (second / 3600) ++ py ":" ++
    decimal 2 (second / 60 % 60) ++ py ":" ++ decimal 2 (second % 60) ++ py "." ++
    decimal 3 (now % 1000000 / 1000) ++ py "Z"

structure BreadcrumbInput where
  type : Option PyStr
  category : Option PyStr
  level : Option PyStr
  message : Option PyStr
  data : Option Dict

def BreadcrumbInput.crumb (input : BreadcrumbInput) (now : Timestamp) : Dict :=
  (py "timestamp", .str (nowRfc3339 now)) :: optional "type" (input.type.map .str) ++
    optional "category" (input.category.map .str) ++ optional "level" (input.level.map .str) ++
    optional "message" (input.message.map .str) ++ optional "data" (input.data.map .obj)

/-- `current[-(MAX_BREADCRUMBS - 1):] + [crumb]` -/
def Breadcrumbs.add (current : Breadcrumbs) (crumb : Dict) : Breadcrumbs where
  items := lastN (maxBreadcrumbs - 1) current.items ++ [crumb]
  bounded := by
    have hkept := lastN_length (maxBreadcrumbs - 1) current.items
    rw [List.length_append, List.length_singleton]
    exact Nat.add_le_of_le_sub (by decide) hkept

def Scope.empty : Scope := ⟨⟨[], Nat.zero_le _⟩, [], none⟩

inductive ScopeCall where
  | addBreadcrumb (input : BreadcrumbInput) (now : Timestamp)
  | setTag (key value : PyStr)
  | setUser (id : Option PyStr)
  | clear

def Scope.apply (scope : Scope) : ScopeCall → Scope
  | .addBreadcrumb input now =>
    { scope with breadcrumbs := scope.breadcrumbs.add (input.crumb now) }
  | .setTag key value => { scope with tags := Assoc.upsert scope.tags key value }
  | .setUser id => { scope with user := id }
  | .clear => .empty

/-! ## Events -/

structure Client where
  environment : PyStr
  release : Option PyStr
  inAppModulePrefixes : Option (List PyStr)

/-- The arguments of `build_event` that differ from capture to capture. -/
structure Draft (ε : Type) where
  level : PyStr
  message : Option PyStr
  excInfo : Option ε
  request : Option Dict

/-- What an event takes from where it is captured: the graph of exceptions, the scope of the
context, a fresh id and the clock. -/
structure CaptureSite (ε : Type) where
  host : Host
  graph : Graph ε
  scope : Scope
  uuid : ℕ
  now : Timestamp

section Events

variable {ε : Type} [DecidableEq ε] (client : Client) (site : CaptureSite ε)

def exceptionField (excInfo : Option ε) : Option Json :=
  excInfo.map fun exc => .obj (buildException site.graph site.host client.inAppModulePrefixes
    (maxCauseDepth - 1) exc)

def breadcrumbsField (scope : Scope) : Option Json :=
  if scope.breadcrumbs.items.isEmpty then none
  else some (.arr (scope.breadcrumbs.items.map .obj))

def tagsField (scope : Scope) : Option Json :=
  if scope.tags.isEmpty then none else some (.obj (scope.tags.map fun kv => (kv.1, .str kv.2)))

def requestField : Option Dict → Option Json
  | some (kv :: kvs) => some (.obj ((kv :: kvs).filter fun kv => !(kv.2 matches .null)))
  | _ => none

def requiredFields (level : PyStr) : Dict :=
  [(py "event_id", .str (uuidStr site.uuid)), (py "timestamp", .str (nowRfc3339 site.now)),
    (py "platform", .str (py "python")), (py "level", .str level),
    (py "environment", .str client.environment),
    (py "sdk", .obj [(py "name", .str sdkName), (py "version", .str sdkVersion)])]

def buildEvent (draft : Draft ε) : Dict :=
  requiredFields client site draft.level ++ optional "message" (draft.message.map .str) ++
    optional "exception" (exceptionField client site draft.excInfo) ++
    optional "release" (client.release.bind fun r => if r.isEmpty then none else some (.str r)) ++
    optional "breadcrumbs" (breadcrumbsField site.scope) ++
    optional "tags" (tagsField site.scope) ++
    optional "user" (site.scope.user.map fun id => .obj [(py "id", .str id)]) ++
    optional "request" (requestField draft.request)

/-- What `capture_exception` may be given. -/
inductive ExcInput (ε : Type) where
  | none
  | exception (exc : ε)
  | triple (value : Option ε)
  | other

/-- `handled` is the exception of `sys.exc_info()`. -/
def normalizeExcInfo (handled : Option ε) : ExcInput ε → Option ε
  | .none => handled
  | .exception exc => some exc
  | .triple value => value
  | .other => none

/-- A call of `capture_exception` or `capture_message`. -/
inductive Capture (ε : Type) where
  | exception (exc : ExcInput ε) (level : PyStr) (text : Option PyStr) (request : Option Dict)
  | message (text : PyStr) (level : PyStr) (request : Option Dict)

def Capture.level : Capture ε → PyStr
  | .exception _ level _ _ => level
  | .message _ level _ => level

def Capture.draft (handled : Option ε) : Capture ε → Option (Draft ε)
  | .exception exc level text request =>
    (normalizeExcInfo handled exc).map fun exc => ⟨level, text, some exc, request⟩
  | .message text level request => some ⟨level, some text, none, request⟩

/-- The event that is handed to the transport. -/
def Client.capture (handled : Option ε) (c : Capture ε) : Option Dict :=
  (c.draft handled).map (buildEvent client site)

end Events

/-! ## Handlers and hooks -/

section Handlers

variable {ε : Type}

def levelFromLogging (levelno : ℤ) : PyStr :=
  if 50 ≤ levelno then py "fatal"
  else if 40 ≤ levelno then py "error"
  else if 30 ≤ levelno then py "warning"
  else if 20 ≤ levelno then py "info"
  else py "debug"

structure LogRecord (ε : Type) where
  name : PyStr
  levelno : ℤ
  message : PyStr
  excInfo : Option ε

def isOwnRecord (record : LogRecord ε) : Bool :=
  record.name = py "crashlens" || (py "crashlens.").isPrefixOf record.name

/-- `CrashlensHandler.emit` -/
def emit (record : LogRecord ε) : Option (Capture ε) :=
  if isOwnRecord record then none
  else
    let level := levelFromLogging record.levelno
    match record.excInfo with
    | some exc => some (.exception (.triple (some exc)) level (some record.message) none)
    | none => some (.message record.message level none)

def sysHook (exc : ε) : Capture ε := .exception (.triple (some exc)) (py "fatal") none none

def threadHook : Option ε → Option (Capture ε)
  | some exc => some (.exception (.triple (some exc)) (py "fatal") none none)
  | none => none

/-- The handlers of the Flask and ASGI integrations. -/
def requestHandler (exc : ε) (request : Option Dict) : Capture ε :=
  .exception (.exception exc) (py "error") none request

end Handlers

end Crashlens.Python
