import Crashlens.Library.ReadCommitted
import Crashlens.PyValue

/-!
# The tables and statements of the issue tracker

`Db` holds the committed rows of the tables the worker and the issue services touch, for all
projects of one organisation. A transaction keeps at most one pending row of each table in a
`WriteSet`; `WriteSet.apply` is both what the transaction sees on top of the committed rows and what
its commit makes of them. `exec` executes one SQL statement and `blocks` says which row lock or
unique key of another transaction it has to wait for.

`Postgres` stands for the database functions the model does not define: the input function of the
`uuid` type, the collation order of release versions and the size limit of a unique index entry.
-/

namespace Crashlens

open Transactional

inductive Status where
  | unresolved
  | resolved
  | ignored
  | regressed
  deriving DecidableEq, Repr

inductive Level where
  | fatal
  | error
  | warning
  | info
  | debug
  deriving DecidableEq, Repr

structure Issue where
  id : ℕ
  projectId : ℕ
  fingerprint : Text
  title : Text
  level : Level
  status : Status
  firstSeen : Timestamp
  lastSeen : Timestamp
  eventCount : ℕ
  assignedTo : Option ℕ
  resolvedInRelease : Option Text
  regressedInRelease : Option Text
  deriving DecidableEq

structure Release where
  projectId : ℕ
  version : Text
  createdAt : Timestamp
  deriving DecidableEq

structure Event where
  projectId : ℕ
  issueId : ℕ
  eventId : ℕ
  receivedAt : Timestamp
  environment : Text
  release : Option Text
  level : Level
  payload : Dict

structure AuditRow where
  actorUserId : Option ℕ
  action : String
  targetType : String
  targetId : ℕ
  deriving DecidableEq, Repr

/-- Unique key `uq_issues_project_fingerprint`. -/
def Issue.key (r : Issue) : ℕ × Text := (r.projectId, r.fingerprint)

/-- Unique key `uq_releases_project_version`. -/
def Release.key (r : Release) : ℕ × Text := (r.projectId, r.version)

/-- Primary key `events_pkey`. -/
def Event.key (e : Event) : ℕ × ℕ × Timestamp := (e.projectId, e.eventId, e.receivedAt)

/-- The day of an instant, which names its partition of the events table. -/
def utcDay (t : Timestamp) : ℤ := t / 86400000000

structure Db where
  projects : List ℕ
  memberships : List ℕ
  partitions : List ℤ
  issues : List Issue
  releases : List Release
  events : List Event
  auditLog : List AuditRow
  /-- `gen_random_uuid()` hands out these ids; a rollback does not take one back. -/
  nextId : ℕ

inductive IssueWrite where
  | insert (row : Issue)
  | update (old new : Issue)
  | delete (old : Issue)
  deriving DecidableEq

def IssueWrite.key : IssueWrite → ℕ × Text
  | .insert row => row.key
  | .update old _ => old.key
  | .delete old => old.key

/-- The row other transactions can see and have to wait for. -/
def IssueWrite.locksId : IssueWrite → ℕ → Bool
  | .insert _, _ => false
  | .update old _, id => old.id = id
  | .delete old, id => old.id = id

def IssueWrite.apply : IssueWrite → List Issue → List Issue
  | .insert row, issues => issues ++ [row]
  | .update old new, issues => issues.map fun r => if r.id = old.id then new else r
  | .delete old, issues => issues.filter fun r => r.id ≠ old.id

structure WriteSet where
  issue : Option IssueWrite
  release : Option Release
  event : Option Event
  audit : Option AuditRow

def WriteSet.empty : WriteSet := ⟨none, none, none, none⟩

def WriteSet.apply (w : WriteSet) (db : Db) : Db :=
  { db with
    issues := match w.issue with
      | some iw => iw.apply db.issues
      | none => db.issues
    releases := db.releases ++ w.release.toList
    events := db.events ++ w.event.toList
    auditLog := db.auditLog ++ w.audit.toList }

/-! ## Statements -/

/-- The parameters of `_UPSERT_ISSUE_SQL`. -/
structure UpsertIssue where
  projectId : ℕ
  fingerprint : Text
  title : Text
  level : Level
  seenAt : Timestamp
  shouldRegress : Bool
  eventRelease : Option Text

/-- The row `_UPSERT_ISSUE_SQL` returns. -/
structure UpsertRow where
  id : ℕ
  status : Status
  eventCount : ℕ
  inserted : Bool
  priorStatus : Option Status
  deriving DecidableEq, Repr

inductive StatusAction where
  | resolve
  | ignore
  | reopen
  deriving DecidableEq, Repr

inductive Request where
  | dedupeEvent (projectId eventId : ℕ)
  | upsertRelease (projectId : ℕ) (version : Text)
  | priorIssue (projectId : ℕ) (fingerprint : Text)
  | releaseCreatedAt (projectId : ℕ) (version : Text)
  | upsertIssue (p : UpsertIssue)
  | insertEvent (e : Event)
  | loadProject (projectId : ℕ)
  | isMember (userId : ℕ)
  | updateStatus (action : StatusAction) (issueId projectId : ℕ)
  | updateAssignee (userId : Option ℕ) (issueId projectId : ℕ)
  | deleteIssue (issueId projectId : ℕ)
  | insertAudit (row : AuditRow)

@[reducible] def Response : Request → Type
  | .dedupeEvent _ _ => Bool
  | .upsertRelease _ _ => Unit
  | .priorIssue _ _ => Option (Status × Option Text)
  | .releaseCreatedAt _ _ => Option Timestamp
  | .upsertIssue _ => UpsertRow
  | .insertEvent _ => Unit
  | .loadProject _ => Bool
  | .isMember _ => Bool
  | .updateStatus _ _ _ => Option Issue
  | .updateAssignee _ _ _ => Option ℕ
  | .deleteIssue _ _ => Option Text
  | .insertAudit _ => Unit

/-- Errors that leave a transaction and roll it back. -/
inductive DbError where
  /-- A value that its column's type cannot take. -/
  | dataError
  | integrityError
  | invalidAssignee
  deriving DecidableEq, Repr

structure Postgres where
  /-- What the `uuid` type reads from a string, if anything. -/
  uuidIn : PyStr → Option ℕ
  collateLt : Text → Text → Bool
  /-- An index entry takes at most a third of a page. -/
  fitsIndex : Text → Bool

section Exec

variable (pg : Postgres)

/-- `ORDER BY created_at DESC, version DESC`: `a` comes before `b`. -/
def Release.before (a b : Release) : Bool :=
  b.createdAt < a.createdAt || (b.createdAt = a.createdAt && pg.collateLt b.version a.version)

/-- `SELECT version FROM releases WHERE project_id = :pid ORDER BY … LIMIT 1` -/
def latestRelease (db : Db) (projectId : ℕ) : Option Text :=
  ((db.releases.filter fun r => r.projectId = projectId).foldl (fun best r =>
    match best with
    | some b => if r.before pg b then some r else some b
    | none => some r) none).map Release.version

def findIssue (db : Db) (projectId : ℕ) (fingerprint : Text) : Option Issue :=
  db.issues.find? fun r => r.key = (projectId, fingerprint)

def findIssueById (db : Db) (issueId projectId : ℕ) : Option Issue :=
  db.issues.find? fun r => r.id = issueId ∧ r.projectId = projectId

def releaseCreatedAt (db : Db) (projectId : ℕ) (version : Text) : Option Timestamp :=
  (db.releases.find? fun r => r.key = (projectId, version)).map Release.createdAt

/-- The row inserted for a new fingerprint. -/
def UpsertIssue.newRow (p : UpsertIssue) (id : ℕ) : Issue :=
  { id := id
    projectId := p.projectId
    fingerprint := p.fingerprint
    title := p.title
    level := p.level
    status := .unresolved
    firstSeen := p.seenAt
    lastSeen := p.seenAt
    eventCount := 1
    assignedTo := none
    resolvedInRelease := none
    regressedInRelease := none }

/-- The `prior` term sees the snapshot of the statement, not the latest committed row. -/
def UpsertIssue.prior (p : UpsertIssue) (snapshot : Db) (id : ℕ) : Option Status :=
  ((findIssue snapshot p.projectId p.fingerprint).filter fun r => r.id = id).map Issue.status

/-- `ON CONFLICT … DO UPDATE SET …` -/
def UpsertIssue.onConflict (p : UpsertIssue) (r : Issue) : Issue :=
  { r with
    lastSeen := max r.lastSeen p.seenAt
    eventCount := r.eventCount + 1
    level := p.level
    status := if r.status = .resolved ∧ p.shouldRegress then .regressed else r.status
    regressedInRelease :=
      if r.status = .resolved ∧ p.shouldRegress then p.eventRelease else r.regressedInRelease }

/-- `_ACTION_SET_SQL`; the fix release is read from the statement's snapshot. -/
def StatusAction.set (snap : Db) (r : Issue) : StatusAction → Issue
  | .resolve => { r with
      status := .resolved
      regressedInRelease := none
      resolvedInRelease := latestRelease pg snap r.projectId }
  | .ignore => { r with status := .ignored, regressedInRelease := none }
  | .reopen => { r with
      status := .unresolved
      resolvedInRelease := none
      regressedInRelease := none }

/-- `UPDATE issues SET … WHERE id = :iid AND project_id = :pid`: the row must be visible in the
snapshot, and the new values are computed on its latest version. -/
def updateIssue (snap view : Db) (issueId projectId : ℕ) (f : Issue → Issue) (w : WriteSet) :
    Option Issue × WriteSet :=
  match findIssueById snap issueId projectId, findIssueById view issueId projectId with
  | some _, some old => (some (f old), { w with issue := some (.update old (f old)) })
  | _, _ => (none, w)

/-- One statement of a transaction that began at `now`. A release or an issue that is inserted
refers to its project (`fk_releases_project`, `fk_issues_project`). -/
def exec (now : Timestamp) (snapshot committed : Db) (w : WriteSet) :
    (q : Request) → Except DbError (Response q × WriteSet × Db)
  | .dedupeEvent projectId eventId =>
    .ok ((w.apply committed).events.any fun e => e.projectId = projectId ∧ e.eventId = eventId,
      w, committed)
  | .upsertRelease projectId version =>
    if !pg.fitsIndex version then .error .dataError
    else if (w.apply committed).releases.any fun r => r.key = (projectId, version) then
      .ok ((), w, committed)
    else if projectId ∉ committed.projects then .error .integrityError
    else .ok ((), { w with release := some ⟨projectId, version, now⟩ }, committed)
  | .priorIssue projectId fingerprint =>
    .ok ((findIssue (w.apply committed) projectId fingerprint).map fun r =>
      (r.status, r.resolvedInRelease), w, committed)
  | .releaseCreatedAt projectId version =>
    .ok (releaseCreatedAt (w.apply committed) projectId version, w, committed)
  | .upsertIssue p =>
    match findIssue (w.apply committed) p.projectId p.fingerprint with
    | some old =>
      let new := p.onConflict old
      .ok (⟨new.id, new.status, new.eventCount, false,
          p.prior (w.apply snapshot) new.id⟩,
        { w with issue := some (.update old new) }, committed)
    | none =>
      if p.projectId ∉ committed.projects then .error .integrityError
      else
        let new := p.newRow committed.nextId
        .ok (⟨new.id, new.status, new.eventCount, true,
            p.prior (w.apply snapshot) new.id⟩,
          { w with issue := some (.insert new) }, { committed with nextId := committed.nextId + 1 })
  | .insertEvent e =>
    if utcDay e.receivedAt ∉ committed.partitions then .error .integrityError
    else if (w.apply committed).events.any fun e' => e'.key = e.key then .error .integrityError
    else .ok ((), { w with event := some e }, committed)
  | .loadProject projectId => .ok (committed.projects.contains projectId, w, committed)
  | .isMember userId => .ok (committed.memberships.contains userId, w, committed)
  | .updateStatus action issueId projectId =>
    let (row, w') := updateIssue (w.apply snapshot) (w.apply committed) issueId projectId
      (fun r => action.set pg (w.apply snapshot) r) w
    .ok (row, w', committed)
  | .updateAssignee userId issueId projectId =>
    let (row, w') := updateIssue (w.apply snapshot) (w.apply committed) issueId projectId
      (fun r => { r with assignedTo := userId }) w
    .ok (row.map Issue.id, w', committed)
  | .deleteIssue issueId projectId =>
    match findIssueById (w.apply snapshot) issueId projectId,
      findIssueById (w.apply committed) issueId projectId with
    | some _, some old => .ok (some old.title, { w with issue := some (.delete old) }, committed)
    | _, _ => .ok (none, w, committed)
  | .insertAudit row => .ok ((), { w with audit := some row }, committed)

/-- Row locks and uncommitted unique keys are held until the writer commits or rolls back. -/
def blocks (w : WriteSet) : Request → Bool
  | .upsertRelease projectId version => w.release.any fun r => r.key = (projectId, version)
  | .upsertIssue p => w.issue.any fun iw => iw.key = (p.projectId, p.fingerprint)
  | .insertEvent e => w.event.any fun e' => e'.key = e.key
  | .updateStatus _ issueId _ => w.issue.any fun iw => iw.locksId issueId
  | .updateAssignee _ issueId _ => w.issue.any fun iw => iw.locksId issueId
  | .deleteIssue issueId _ => w.issue.any fun iw => iw.locksId issueId
  | _ => false

def store : Store Timestamp Db WriteSet DbError Request Response where
  noWrites := .empty
  merge := WriteSet.apply
  exec := exec pg
  blocks := blocks

end Exec

end Crashlens
