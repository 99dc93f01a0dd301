import Crashlens.Database
import Crashlens.Library.Program
import Crashlens.Library.RowSecurity

/-!
# The tables of all organisations

`Db` holds the tables the services of the dashboard write, for every organisation at once, with the
columns those services read or write. `statement` executes one SQL statement in the scope of its
session: the policy `tenant_isolation` filters what it sees and checks what it writes, and primary
keys, unique keys, foreign keys and checks hold for whatever it writes. `Server` is the clock of the
database and its other failures: any statement may also fail for a reason of its own.

A session is a transaction. It keeps what its statements wrote when its program returns, and nothing
when its program raises.
-/

namespace Crashlens.Tenant

open Transactional RowSecurity

inductive MemberRole where
  | admin
  | member
  deriving DecidableEq, Repr

def MemberRole.ofStr? (s : PyStr) : Option MemberRole :=
  if s = py "admin" then some .admin
  else if s = py "member" then some .member
  else none

def MemberRole.str : MemberRole → PyStr
  | .admin => py "admin"
  | .member => py "member"

inductive ChannelType where
  | email
  | slack
  | webhook
  deriving DecidableEq, Repr

def ChannelType.ofStr? (s : PyStr) : Option ChannelType :=
  if s = py "email" then some .email
  else if s = py "slack" then some .slack
  else if s = py "webhook" then some .webhook
  else none

def ChannelType.str : ChannelType → PyStr
  | .email => py "email"
  | .slack => py "slack"
  | .webhook => py "webhook"

structure User where
  id : ℕ
  email : Text
  passwordHash : Text

structure Membership where
  orgId : ℕ
  userId : ℕ
  role : MemberRole

structure Invite where
  id : ℕ
  orgId : ℕ
  email : Text
  role : MemberRole
  tokenHash : Text
  expiresAt : Timestamp
  acceptedAt : Option Timestamp

structure Project where
  id : ℕ
  orgId : ℕ
  name : Text
  slug : Text
  platform : Option Text
  samplingRate : PyFloat
  createdAt : Timestamp

structure DsnKey where
  id : ℕ
  orgId : ℕ
  projectId : ℕ
  publicKey : Text
  active : Bool
  revokedAt : Option Timestamp
  createdAt : Timestamp

structure IssueRow extends Issue where
  orgId : ℕ

structure ReleaseRow extends Release where
  orgId : ℕ

structure Comment where
  id : ℕ
  orgId : ℕ
  issueId : ℕ

/-- Without a project the channel is for the whole organisation. -/
structure Channel where
  id : ℕ
  orgId : ℕ
  projectId : Option ℕ
  type : ChannelType
  config : Dict
  enabled : Bool
  createdAt : Timestamp

structure AuditRow where
  id : ℕ
  orgId : ℕ
  actorUserId : Option ℕ
  action : String
  targetType : String
  targetId : Option Text
  data : Dict
  createdAt : Timestamp

instance : TenantRow ℕ Membership := ⟨Membership.orgId⟩

instance : TenantRow ℕ Invite := ⟨Invite.orgId⟩

instance : TenantRow ℕ Project := ⟨Project.orgId⟩

instance : TenantRow ℕ DsnKey := ⟨DsnKey.orgId⟩

instance : TenantRow ℕ IssueRow := ⟨IssueRow.orgId⟩

instance : TenantRow ℕ ReleaseRow := ⟨ReleaseRow.orgId⟩

instance : TenantRow ℕ Comment := ⟨Comment.orgId⟩

instance : TenantRow ℕ Channel := ⟨Channel.orgId⟩

instance : TenantRow ℕ AuditRow := ⟨AuditRow.orgId⟩

structure Db where
  orgs : List ℕ
  users : List User
  memberships : List Membership
  invites : List Invite
  projects : List Project
  dsnKeys : List DsnKey
  issues : List IssueRow
  releases : List ReleaseRow
  comments : List Comment
  channels : List Channel
  auditLog : List AuditRow

/-! ## Statements -/

/-- The parameters of the `INSERT` into `audit_log`. -/
structure AuditEntry where
  id : ℕ
  orgId : ℕ
  actorUserId : Option ℕ
  action : String
  targetType : String
  targetId : Option PyStr
  data : Dict

inductive Request where
  | selectProject (projectId : ℕ)
  | insertProject (id orgId : ℕ) (name slug : PyStr) (platform : Option PyStr)
  | updateSampling (samplingRate : PyFloat) (projectId : ℕ)
  | deleteProject (projectId : ℕ)
  | insertDsnKey (id orgId projectId : ℕ) (publicKey : PyStr)
  | revokeDsnKey (now : Timestamp) (keyId projectId : ℕ)
  | selectChannel (channelId : ℕ)
  | insertChannel (id orgId : ℕ) (projectId : Option ℕ) (type : PyStr) (config : Dict)
  | updateChannel (enabled : Option Bool) (config : Option Dict) (channelId : ℕ)
  | deleteChannel (channelId : ℕ)
  | selectIssue (issueId projectId : ℕ)
  | updateStatus (action : StatusAction) (issueId projectId : ℕ)
  | selectMember (userId : ℕ)
  | updateAssignee (assignee : Option ℕ) (issueId projectId : ℕ)
  | deleteIssue (issueId projectId : ℕ)
  | insertInvite (id orgId : ℕ) (email role tokenHash : PyStr) (expiresAt : Timestamp)
  | selectInvite (tokenHash : PyStr)
  | selectUser (email : PyStr)
  | insertUser (id : ℕ) (email passwordHash : PyStr)
  | insertMembership (orgId userId : ℕ) (role : MemberRole)
  | acceptInvite (now : Timestamp) (inviteId : ℕ)
  | insertAudit (entry : AuditEntry)

/-- The rows a statement returns, or their number. -/
@[reducible] def Response : Request → Type
  | .selectProject _ | .updateSampling _ _ => List Project
  | .insertProject _ _ _ _ _ => Project
  | .deleteProject _ | .deleteIssue _ _ => List Text
  | .insertDsnKey _ _ _ _ => DsnKey
  | .revokeDsnKey _ _ _ | .acceptInvite _ _ => ℕ
  | .selectChannel _ | .updateChannel _ _ _ => List Channel
  | .insertChannel _ _ _ _ _ => Channel
  | .deleteChannel _ => List ChannelType
  | .selectIssue _ _ | .updateStatus _ _ _ => List IssueRow
  | .selectMember _ => List Membership
  | .updateAssignee _ _ _ => List ℕ
  | .selectInvite _ => List Invite
  | .selectUser _ => List User
  | .insertInvite _ _ _ _ _ _ | .insertUser _ _ _ | .insertMembership _ _ _ | .insertAudit _ => Unit

/-- What `crashlens_system` may read. -/
def Request.bootstrap : Request → Bool
  | .selectProject _ | .selectMember _ | .selectInvite _ => true
  | _ => false

inductive ServiceError where
  | integrityError
  | multipleResults
  | noResult
  /-- A value that its column cannot take, or that the driver cannot encode. -/
  | dataError
  | insufficientPrivilege
  /-- Anything else a statement fails with. -/
  | database (detail : String)
  | python (e : PyError)
  | invalidRole (message : PyStr)
  | channelConfig (message : PyStr)
  | invalidAssignee (message : PyStr)
  | passwordPolicy (message : PyStr)
  | unsafeAuditData (message : PyStr)
  deriving DecidableEq

structure Server where
  pg : Postgres
  now : Timestamp
  fault : Scope ℕ → Request → Db → Option ServiceError

section Checks

def bindText (s : PyStr) : Except ServiceError Text :=
  match Text.ofPyStr? s with
  | some t => .ok t
  | none => .error .dataError

def bindNullable : Option PyStr → Except ServiceError (Option Text)
  | none => .ok none
  | some s => (bindText s).map some

/-- `CAST(:value AS jsonb)` -/
def bindJson (d : Dict) : Except ServiceError Dict :=
  if Json.storable (.obj d) then .ok d else .error .dataError

/-- A `CHECK` on the values of a column. -/
def checkValue {α : Type} : Option α → Except ServiceError α
  | some a => .ok a
  | none => .error .integrityError

def require (ok : Bool) : Except ServiceError Unit := if ok then .ok () else .error .integrityError

def permit (ok : Bool) : Except ServiceError Unit :=
  if ok then .ok () else .error .insufficientPrivilege

end Checks

namespace Db

variable (db : Db)

def hasOrg (orgId : ℕ) : Bool := db.orgs.contains orgId

def hasUser (userId : ℕ) : Bool := db.users.any fun u => u.id = userId

/-- Foreign keys are checked outside the policy. -/
def hasProject (projectId : ℕ) : Bool := db.projects.any fun p => p.id = projectId

/-- What the statements of `Database` see of these tables in a session. -/
def issueView (scope : Scope ℕ) : Crashlens.Db where
  projects := (select scope (fun _ => true) db.projects).map Project.id
  memberships := (select scope (fun _ => true) db.memberships).map Membership.userId
  partitions := []
  issues := (select scope (fun _ => true) db.issues).map IssueRow.toIssue
  releases := (select scope (fun _ => true) db.releases).map ReleaseRow.toRelease
  events := []
  auditLog := []
  nextId := 0

/-- The deletion of projects, with the rows that refer to them and the comments of their issues. -/
def deleteProjects (scope : Scope ℕ) (p : Project → Bool) : Db :=
  let gone := deletedKeys scope p Project.id db.projects
  let goneIssues := cascadedKeys gone (fun i => some i.projectId) (fun i => i.id) db.issues
  { db with
    projects := delete scope p db.projects
    dsnKeys := cascade gone (fun k => some k.projectId) db.dsnKeys
    issues := cascade gone (fun i => some i.projectId) db.issues
    releases := cascade gone (fun r => some r.projectId) db.releases
    comments := cascade goneIssues (fun c => some c.issueId) db.comments
    channels := cascade gone Channel.projectId db.channels }

/-- The deletion of issues, with their comments. -/
def deleteIssues (scope : Scope ℕ) (p : IssueRow → Bool) : Db :=
  { db with
    issues := delete scope p db.issues
    comments := cascade (deletedKeys scope p (fun i => i.id) db.issues) (fun c => some c.issueId)
      db.comments }

end Db

section Updates

def Project.setSamplingRate (samplingRate : PyFloat) (p : Project) : Project :=
  { p with samplingRate := samplingRate }

def DsnKey.revoke (now : Timestamp) (k : DsnKey) : DsnKey :=
  { k with active := false, revokedAt := some now }

def Channel.set (enabled : Option Bool) (config : Option Dict) (c : Channel) : Channel :=
  { c with enabled := enabled.getD c.enabled, config := config.getD c.config }

def IssueRow.setStatus (pg : Postgres) (snap : Crashlens.Db) (action : StatusAction)
    (i : IssueRow) : IssueRow := { i with toIssue := action.set pg snap i.toIssue }

def IssueRow.assign (assignee : Option ℕ) (i : IssueRow) : IssueRow :=
  { i with assignedTo := assignee }

def Invite.accept (now : Timestamp) (inv : Invite) : Invite := { inv with acceptedAt := some now }

end Updates

/-- One statement, in a session of the scope. -/
def statement (srv : Server) (scope : Scope ℕ) (db : Db) :
    (q : Request) → Except ServiceError (Response q × Db)
  | .selectProject projectId => .ok (select scope (fun p => p.id = projectId) db.projects, db)
  | .insertProject id orgId name slug platform => do
    let name ← bindText name
    let slug ← bindText slug
    let platform ← bindNullable platform
    permit (scope.admits orgId)
    require (db.hasOrg orgId && !db.hasProject id)
    require (db.projects.all fun p => !(p.orgId = orgId && p.slug = slug))
    let row : Project := ⟨id, orgId, name, slug, platform, .finite false 1, srv.now⟩
    .ok (row, { db with projects := db.projects ++ [row] })
  | .updateSampling samplingRate projectId =>
    let p : Project → Bool := fun p => p.id = projectId
    let f := Project.setSamplingRate samplingRate
    .ok ((select scope p db.projects).map f,
      { db with projects := update scope p f db.projects })
  | .deleteProject projectId =>
    let p : Project → Bool := fun p => p.id = projectId
    .ok ((select scope p db.projects).map Project.name, db.deleteProjects scope p)
  | .insertDsnKey id orgId projectId publicKey => do
    let publicKey ← bindText publicKey
    permit (scope.admits orgId)
    require (db.hasOrg orgId && db.hasProject projectId)
    require (db.dsnKeys.all fun k => k.id ≠ id && k.publicKey ≠ publicKey)
    let row : DsnKey := ⟨id, orgId, projectId, publicKey, true, none, srv.now⟩
    .ok (row, { db with dsnKeys := db.dsnKeys ++ [row] })
  | .revokeDsnKey now keyId projectId =>
    let p : DsnKey → Bool := fun k => k.id = keyId && k.projectId = projectId && k.active
    .ok ((select scope p db.dsnKeys).length,
      { db with dsnKeys := update scope p (DsnKey.revoke now) db.dsnKeys })
  | .selectChannel channelId => .ok (select scope (fun c => c.id = channelId) db.channels, db)
  | .insertChannel id orgId projectId type config => do
    let config ← bindJson config
    permit (scope.admits orgId)
    let type ← checkValue (ChannelType.ofStr? type)
    require (db.hasOrg orgId && projectId.all db.hasProject)
    require (db.channels.all fun c => c.id ≠ id)
    let row : Channel := ⟨id, orgId, projectId, type, config, true, srv.now⟩
    .ok (row, { db with channels := db.channels ++ [row] })
  | .updateChannel enabled config channelId => do
    let config ← config.mapM bindJson
    let p : Channel → Bool := fun c => c.id = channelId
    let f := Channel.set enabled config
    .ok ((select scope p db.channels).map f,
      { db with channels := update scope p f db.channels })
  | .deleteChannel channelId =>
    let p : Channel → Bool := fun c => c.id = channelId
    .ok ((select scope p db.channels).map Channel.type,
      { db with channels := delete scope p db.channels })
  | .selectIssue issueId projectId =>
    .ok (select scope (fun i => i.id = issueId && i.projectId = projectId) db.issues, db)
  | .updateStatus action issueId projectId =>
    let p : IssueRow → Bool := fun i => i.id = issueId && i.projectId = projectId
    let f := IssueRow.setStatus srv.pg (db.issueView scope) action
    .ok ((select scope p db.issues).map f, { db with issues := update scope p f db.issues })
  | .selectMember userId => .ok (select scope (fun m => m.userId = userId) db.memberships, db)
  | .updateAssignee assignee issueId projectId => do
    let p : IssueRow → Bool := fun i => i.id = issueId && i.projectId = projectId
    let rows := select scope p db.issues
    require (rows.isEmpty || assignee.all db.hasUser)
    .ok (rows.map fun i => i.id,
      { db with issues := update scope p (IssueRow.assign assignee) db.issues })
  | .deleteIssue issueId projectId =>
    let p : IssueRow → Bool := fun i => i.id = issueId && i.projectId = projectId
    .ok ((select scope p db.issues).map fun i => i.title, db.deleteIssues scope p)
  | .insertInvite id orgId email role tokenHash expiresAt => do
    let email ← bindText email
    let tokenHash ← bindText tokenHash
    permit (scope.admits orgId)
    let role ← checkValue (MemberRole.ofStr? role)
    require (db.hasOrg orgId && db.invites.all fun inv => inv.id ≠ id)
    .ok ((), { db with
      invites := db.invites ++ [⟨id, orgId, email, role, tokenHash, expiresAt, none⟩] })
  | .selectInvite tokenHash => do
    let tokenHash ← bindText tokenHash
    .ok (select scope (fun inv => inv.tokenHash = tokenHash) db.invites, db)
  | .selectUser email => do
    let email ← bindText email
    .ok (db.users.filter fun u => u.email = email, db)
  | .insertUser id email passwordHash => do
    let email ← bindText email
    let passwordHash ← bindText passwordHash
    require (db.users.all fun u => u.id ≠ id && u.email ≠ email)
    .ok ((), { db with users := db.users ++ [⟨id, email, passwordHash⟩] })
  | .insertMembership orgId userId role => do
    permit (scope.admits orgId)
    if db.memberships.any fun m => m.orgId = orgId && m.userId = userId then .ok ((), db)
    else
      require (db.hasOrg orgId && db.hasUser userId)
      .ok ((), { db with memberships := db.memberships ++ [⟨orgId, userId, role⟩] })
  | .acceptInvite now inviteId =>
    let p : Invite → Bool := fun inv => inv.id = inviteId && inv.acceptedAt.isNone
    .ok ((select scope p db.invites).length,
      { db with invites := update scope p (Invite.accept now) db.invites })
  | .insertAudit entry => do
    let targetId ← bindNullable entry.targetId
    let data ← bindJson entry.data
    permit (scope.admits entry.orgId)
    require (db.hasOrg entry.orgId && entry.actorUserId.all db.hasUser)
    require (db.auditLog.all fun row => row.id ≠ entry.id)
    .ok ((), { db with
      auditLog := db.auditLog ++ [⟨entry.id, entry.orgId, entry.actorUserId, entry.action,
        entry.targetType, targetId, data, srv.now⟩] })

/-- A statement that fails has written nothing. -/
def exec (srv : Server) (scope : Scope ℕ) (q : Request) (db : Db) :
    Except ServiceError (Response q) × Db :=
  match srv.fault scope q db with
  | some e => (.error e, db)
  | none =>
    if scope = .bypass ∧ q.bootstrap = false then (.error .insufficientPrivilege, db)
    else
      match statement srv scope db q with
      | .ok (r, db') => (.ok r, db')
      | .error e => (.error e, db)

theorem exec_ok {srv : Server} {scope : Scope ℕ} {q : Request} {db db' : Db} {r : Response q}
    (h : exec srv scope q db = (.ok r, db')) : statement srv scope db q = .ok (r, db') := by
  unfold exec at h
  split at h
  · cases h
  · split at h
    · cases h
    · split at h
      · next hst =>
          cases h
          exact hst
      · cases h

/-! ## Sessions -/

abbrev Tx (α : Type) := Program Request Response ServiceError α

/-- `session.execute` -/
def execute (q : Request) : Tx (Response q) := Program.request q

def oneOrNone {α : Type} : List α → Tx (Option α)
  | [] => .pure none
  | [row] => .pure (some row)
  | _ => .raise .multipleResults

def one {α : Type} : List α → Tx α
  | [] => .raise .noResult
  | [row] => .pure row
  | _ => .raise .multipleResults

/-- What a service does with the database: it returns or raises, and leaves the tables so. -/
def Service (α : Type) : Type := Db → Except ServiceError α × Db

namespace Service

variable {α β : Type}

def pure (a : α) : Service α := fun db => (.ok a, db)

def raise (e : ServiceError) : Service α := fun db => (.error e, db)

def ofExcept : Except ServiceError α → Service α
  | .ok a => pure a
  | .error e => raise e

def bind (m : Service α) (f : α → Service β) : Service β := fun db =>
  match m db with
  | (.ok a, db') => f a db'
  | (.error e, db') => (.error e, db')

instance : Monad Service where
  pure := pure
  bind := bind

/-- `except IntegrityError: return default` -/
def orOnIntegrityError (m : Service α) (default : α) : Service α := fun db =>
  match m db with
  | (.error .integrityError, db') => (.ok default, db')
  | outcome => outcome

end Service

section Sessions

variable (srv : Server) {α : Type}

def session (scope : Scope ℕ) (body : Tx α) : Service α := fun db =>
  match body.eval (exec srv scope) db with
  | (.ok a, db') => (.ok a, db')
  | (.error e, _) => (.error e, db)

def tenantSession (orgId : ℕ) (body : Tx α) : Service α := session srv (.tenant orgId) body

def systemSession (body : Tx α) : Service α := session srv .bypass body

/-- A session with neither a role nor an organisation. -/
def plainSession (body : Tx α) : Service α := session srv .unset body

end Sessions

end Crashlens.Tenant
