import Crashlens.Database
import Crashlens.Normalize

/-!
# The transactions of the event processor and the issue services

`processEvent`, `setIssueStatus`, `assignIssue` and `deleteIssue` as programs over the statements of
`Database`. A value that its column cannot take raises before the statement is sent.
-/

namespace Crashlens

open Transactional

abbrev Tx (α : Type) := Program Request Response DbError α

/-- `session.execute` -/
def execute (q : Request) : Tx (Response q) := Program.request q

/-- The dict `process_event` returns for a stored event. -/
structure EventResult where
  status : Status
  issueId : ℕ
  created : Bool
  regressed : Bool
  regressedInRelease : Option Text
  eventCount : ℕ
  deriving DecidableEq

inductive EventOutcome where
  | poison
  | duplicate
  | stored (r : EventResult)
  deriving DecidableEq

inductive AlertKind where
  | new
  | regression
  deriving DecidableEq, Repr

/-- The `dispatch_alerts` job enqueued after the commit, if any. -/
def EventOutcome.alert : EventOutcome → Option AlertKind
  | .stored r =>
    if r.created || r.regressed then some (if r.regressed then .regression else .new) else none
  | _ => none

/-! ## Binding parameters -/

section Bind

def textParam : Json → Option Text
  | .str s => Text.ofPyStr? s
  | _ => none

def nullableTextParam : Json → Option (Option Text)
  | .null => some none
  | v => (textParam v).map some

def uuidParam (pg : Postgres) : Json → Option ℕ
  | .str s => pg.uuidIn s
  | _ => none

def Level.ofPyStr? (s : PyStr) : Option Level :=
  if s = py "fatal" then some .fatal
  else if s = py "error" then some .error
  else if s = py "warning" then some .warning
  else if s = py "info" then some .info
  else if s = py "debug" then some .debug
  else none

/-- `ck_issues_level`, `ck_events_level` -/
def levelParam : Json → Option Level
  | .str s => Level.ofPyStr? s
  | _ => none

def bindText (v : Json) : Tx Text := .ofOption .dataError (textParam v)

def bindNullableText (v : Json) : Tx (Option Text) := .ofOption .dataError (nullableTextParam v)

def bindUuid (pg : Postgres) (v : Json) : Tx ℕ := .ofOption .dataError (uuidParam pg v)

def bindLevel (v : Json) : Tx Level :=
  match v with
  | .str _ => .ofOption .integrityError (levelParam v)
  | _ => .ofOption .dataError (levelParam v)

/-- `CAST(:payload AS jsonb)` -/
def bindPayload (payload : Dict) : Tx Dict :=
  if (Json.obj payload).storable then .pure payload else .raise .dataError

end Bind

/-! ## The event processor -/

section ProcessEvent

variable (pg : Postgres)

/-- Step 2: record a non-empty release string. -/
def recordRelease (projectId : ℕ) : Json → Tx (Option Text)
  | .str (c :: cs) => do
    let version ← bindText (.str (c :: cs))
    execute (.upsertRelease projectId version)
    return some version
  | _ => .pure none

def createdAtOf (projectId : ℕ) : Option Text → Tx (Option Timestamp)
  | some version => execute (.releaseCreatedAt projectId version)
  | none => .pure none

/-- The fix release of the pre-read issue, when there is one to look up. -/
def fixRelease (prior : Option (Status × Option Text)) : Option Text := prior.bind Prod.snd

/-- Steps 2 and 3: the release bookkeeping and the regression decision. -/
def decideShouldRegress (prep : Prepared) (fingerprint : Text) : Tx (Option Text × Bool) := do
  let eventRelease ← recordRelease prep.projectId prep.release
  let prior ← execute (.priorIssue prep.projectId fingerprint)
  let eventCreatedAt ← createdAtOf prep.projectId eventRelease
  let resolvedCreatedAt ← createdAtOf prep.projectId ((fixRelease prior).filter Text.nonempty)
  return (eventRelease,
    decideRegression (fixRelease prior) eventRelease eventCreatedAt resolvedCreatedAt)

def eventResult (row : UpsertRow) (eventRelease : Option Text) : EventResult :=
  let regressed := !row.inserted && row.priorStatus = some .resolved && row.status = .regressed
  { status := row.status
    issueId := row.id
    created := row.inserted
    regressed := regressed
    regressedInRelease := if regressed then eventRelease else none
    eventCount := row.eventCount }

/-- Steps 4 and 5: the issue upsert and the event row. -/
def storeEvent (prep : Prepared) (fingerprint : Text) (eventId : ℕ) (eventRelease : Option Text)
    (shouldRegress : Bool) : Tx EventResult := do
  let title ← bindText (.str prep.title)
  let level ← bindLevel prep.level
  let row ← execute (.upsertIssue ⟨prep.projectId, fingerprint, title, level, prep.seenAt,
    shouldRegress, eventRelease⟩)
  let environment ← bindText prep.environment
  let release ← bindNullableText prep.release
  let payload ← bindPayload prep.payload
  execute (.insertEvent ⟨prep.projectId, row.id, eventId, prep.seenAt, environment, release,
    level, payload⟩)
  return eventResult row eventRelease

/-- The transaction of `process_event`. -/
def processPrepared (prep : Prepared) : Tx EventOutcome := do
  let eventId ← bindUuid pg prep.eventId
  if ← execute (.dedupeEvent prep.projectId eventId) then
    return .duplicate
  else
    let fingerprint ← bindText (.str prep.fingerprint)
    let (eventRelease, shouldRegress) ← decideShouldRegress prep fingerprint
    return .stored (← storeEvent prep fingerprint eventId eventRelease shouldRegress)

/-- The `(project_id, event_id)` an event is stored under. -/
def EventCall.eventKey (call : EventCall) : Option (ℕ × ℕ) :=
  (uuidParam pg (call.envelope.get "event_id")).map fun eventId => (call.projectId, eventId)

def processEvent (rt : Runtime) (call : EventCall) : Tx EventOutcome :=
  match prepare rt call with
  | .ok prep => processPrepared pg prep
  | .error _ => .pure .poison

end ProcessEvent

/-! ## The issue services -/

def StatusAction.auditAction : StatusAction → String
  | .resolve => "issue.resolved"
  | .ignore => "issue.ignored"
  | .reopen => "issue.reopened"

/-- `audit.record` of an issue. -/
def recordIssueAudit (actor : Option ℕ) (action : String) (issueId : ℕ) : Tx Unit :=
  execute (.insertAudit ⟨actor, action, "issue", issueId⟩)

def setIssueStatus (projectId issueId : ℕ) (action : StatusAction) (actor : Option ℕ) :
    Tx (Option Issue) := do
  if ← execute (.loadProject projectId) then
    match ← execute (.updateStatus action issueId projectId) with
    | none => return none
    | some row =>
      recordIssueAudit actor action.auditAction issueId
      return some row
  else return none

def checkMember : Option ℕ → Tx Unit
  | none => .pure ()
  | some userId => do
    if ← execute (.isMember userId) then return () else Program.raise .invalidAssignee

def assignIssue (projectId issueId : ℕ) (userId : Option ℕ) (actor : Option ℕ) :
    Tx (Option ℕ) := do
  if ← execute (.loadProject projectId) then
    checkMember userId
    match ← execute (.updateAssignee userId issueId projectId) with
    | none => return none
    | some id =>
      recordIssueAudit actor "issue.assigned" issueId
      return some id
  else return none

def deleteIssue (projectId issueId : ℕ) (actor : Option ℕ) : Tx Bool := do
  match ← execute (.deleteIssue issueId projectId) with
  | none => return false
  | some _ =>
    recordIssueAudit actor "issue.deleted" issueId
    return true

/-! ## Any of the four -/

inductive Job where
  | event (call : EventCall)
  | status (projectId issueId : ℕ) (action : StatusAction) (actor : Option ℕ)
  | assign (projectId issueId : ℕ) (userId : Option ℕ) (actor : Option ℕ)
  | delete (projectId issueId : ℕ) (actor : Option ℕ)

inductive Outcome where
  | event (o : EventOutcome)
  | status (row : Option Issue)
  | assign (id : Option ℕ)
  | delete (deleted : Bool)
  deriving DecidableEq

def Job.program (pg : Postgres) (rt : Runtime) : Job → Tx Outcome
  | .event call => do return .event (← processEvent pg rt call)
  | .status projectId issueId action actor => do
    return .status (← setIssueStatus projectId issueId action actor)
  | .assign projectId issueId userId actor => do
    return .assign (← assignIssue projectId issueId userId actor)
  | .delete projectId issueId actor => do return .delete (← deleteIssue projectId issueId actor)

/-! ## A small project -/

section Sample

def hexValue (c : CodePoint) : ℕ :=
  if c.val ≤ 57 then c.val - 48 else if c.val ≤ 70 then c.val - 55 else c.val - 87

/-- The bytes of an ASCII text. -/
def ascii (s : PyStr) : List UInt8 := s.map fun c => UInt8.ofNat c.val

/-- Thirty-two hexadecimal digits in either case, with or without hyphens. -/
def samplePostgres : Postgres where
  uuidIn s :=
    let digits := s.filter fun c => c.val ≠ 0x2D
    if digits.length = 32 ∧ digits.all isHexDigit then
      some (digits.foldl (fun n c => 16 * n + hexValue c) 0)
    else none
  collateLt a b := decide (List.Lex (· < ·) a.val b.val)
  fitsIndex v := v.val.length ≤ 500

/-- A decoder that knows some documents. -/
def orValueError : Option Json → Except PyError Json
  | some raw => .ok raw
  | none => .error .valueError

/-- Python's runtime on ASCII text, with the digest of the one signature the sample event has. -/
def sampleRuntime : Runtime where
  isAlnum c := (48 ≤ c.val && c.val ≤ 57) || (65 ≤ c.val && c.val ≤ 90) ||
    (97 ≤ c.val && c.val ≤ 122)
  decimal c := if 48 ≤ c.val ∧ c.val ≤ 57 then some (Fin.ofNat _ (c.val - 48)) else none
  isSpace c := c.val ∈ [9, 10, 11, 12, 13, 28, 29, 30, 31, 32]
  floatRepr _ _ := [CodePoint.ofNat 0x30]
  str _ := py "1"
  sha256 data :=
    if utf8Encode (py
      "\x7b\"level\":\"error\",\"message\":\"boom\",\"platform\":\"python\",\"v\":1\x7d") =
      .ok data then 0x898ec49045d9e65b2a4fca29d01e39420003b6ddef55e066bd7b2d1b8490d8a5
    else 0
  fromisoformat s := if s = py "2026-01-01T00:00:00+00:00" then some 1767225600000000 else none
  jsonLoads _ := .error .valueError
  room := ⟨990, 1490, 1480, 980, 1480⟩
  floatRepr_ascii _ _ c hc := by
    rw [List.mem_singleton.mp hc]
    decide
  str_storable _ := by decide

def sampleEventId : PyStr := py "00000000-0000-0000-0000-000000000001"

/-- The fingerprint of every sample event. -/
def sampleFingerprint : Text :=
  ⟨toHex 64 0x898ec49045d9e65b2a4fca29d01e39420003b6ddef55e066bd7b2d1b8490d8a5, by decide⟩

/-- An accepted event of project 1; `release` may be left out. -/
def sampleCall (release : Option String) (eventId : PyStr) (seenAt : Timestamp) : EventCall where
  envelope := [
    (py "event_id", .str eventId),
    (py "timestamp", .str (py "2026-01-01T00:00:00Z")),
    (py "platform", .str (py "python")),
    (py "level", .str (py "error")),
    (py "environment", .str (py "production")),
    (py "sdk", .obj [(py "name", .str (py "crashlens")), (py "version", .str (py "1.0.0"))]),
    (py "message", .str (py "boom"))] ++
    (release.map fun v => (py "release", Json.str (py v))).toList
  orgId := 1
  projectId := 1
  seenAt := seenAt
  maps _ := none

/-- Project 1 with one partition and no rows yet. -/
def sampleDb : Db := ⟨[1], [], [0], [], [], [], [], 1⟩

end Sample

end Crashlens
