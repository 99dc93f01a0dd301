import Crashlens.Invites
import Crashlens.TenantDatabase
import Crashlens.Transactions

/-!
# The audited services

The thirteen services that change a project, a key, an alert channel, an issue or an invite, each
with the session it opens, its early returns and its audit row. What a service draws from the clock
and from the random generator is an argument (`Drawn`), and so is what it takes from Python's
libraries (`Libraries`).
-/

namespace Crashlens.Tenant

open Transactional RowSecurity

/-- Hashing, `urlsplit` with the scheme and the network location it finds, and the Unicode functions
`Runtime` does not name. -/
structure Libraries where
  rt : Runtime
  lower : PyStr → PyStr
  repr : PyStr → PyStr
  urlsplit : PyStr → Except PyError (PyStr × PyStr)
  hashPassword : PyStr → Except PyError PyStr
  verifyPassword : PyStr → PyStr → Except PyError Bool

/-- The uuid of a new row, a fresh key or token, the uuid of the audit row, and the time. -/
structure Drawn where
  id : ℕ
  token : PyStr
  auditId : ℕ
  now : Timestamp

def ofPython {α : Type} : Except PyError α → Except ServiceError α
  | .ok a => .ok a
  | .error e => .error (.python e)

def raiseError {α : Type} : Except ServiceError α → Tx α
  | .ok a => .pure a
  | .error e => .raise e

/-! ## Audit rows -/

def forbiddenKeySubstrings : List PyStr := [py "token", py "secret", py "password", py "url"]

section Audit

variable (lib : Libraries)

def looksSecret (key : PyStr) : Bool :=
  forbiddenKeySubstrings.any fun substring => substring <:+: lib.lower key

def unsafeKeyMessage (fullPath : PyStr) : PyStr :=
  py "Audit data key " ++ lib.repr fullPath ++
    py (" looks like it holds a secret (token/secret/password/url) and must not be recorded. " ++
      "Store a masked or renamed fact instead.")

mutual

/-- So many calls may still be nested: at each key a generator over the forbidden words, and then
the guard itself for an object below. -/
def checkDataSafety (calls : ℕ) (path : PyStr) : List (PyStr × Json) → Except ServiceError Unit
  | [] => .ok ()
  | (key, value) :: rest =>
    let fullPath := if path.isEmpty then key else path ++ py "." ++ key
    if calls = 0 then .error (.python .recursionError)
    else if looksSecret lib key then .error (.unsafeAuditData (unsafeKeyMessage lib fullPath))
    else
      match checkNested calls fullPath value with
      | .error e => .error e
      | .ok () => checkDataSafety calls path rest

def checkNested (calls : ℕ) (path : PyStr) : Json → Except ServiceError Unit
  | .obj fields => checkDataSafety (calls - 1) path fields
  | _ => .ok ()

end

/-- `json.dumps` -/
def dumpsData (payload : Dict) : Except ServiceError Unit :=
  if (Json.obj payload).depth 0 ≤ lib.rt.room.dumps then .ok ()
  else .error (.python .recursionError)

def record (draw : Drawn) (orgId : ℕ) (actorUserId : Option ℕ) (action targetType : String)
    (targetId : Option PyStr) (data : Option Dict) : Tx Unit := do
  let payload := data.getD []
  raiseError (do
    checkDataSafety lib lib.rt.room.guard [] payload
    dumpsData lib payload)
  execute (.insertAudit ⟨draw.auditId, orgId, actorUserId, action, targetType, targetId, payload⟩)

end Audit

/-! ## Alert channels -/

section ChannelConfig

variable (lib : Libraries)

def isHttpsUrl : Json → Except ServiceError Bool
  | .str s =>
    if s.isEmpty then .ok false
    else do
      let (scheme, netloc) ← ofPython (lib.urlsplit (strip lib.rt.isSpace s))
      return scheme = py "https" && !netloc.isEmpty
  | _ => .ok false

def atSign : CodePoint := CodePoint.ofNat 0x40

def dot : CodePoint := CodePoint.ofNat 0x2E

/-- `_EMAIL_RE` on an address without white space around it: one `@`, with something in front of it
and behind it a dot that is neither first nor last. -/
def matchesEmail (address : PyStr) : Bool :=
  match splitOn atSign address with
  | [user, domain] =>
    !user.isEmpty && (user ++ domain).all (fun c => !lib.rt.isSpace c) &&
      (domain.drop 1).dropLast.contains dot
  | _ => false

def stringItem : Json → Option PyStr
  | .str s => some s
  | _ => none

def validateEmailConfig (recipients : Json) : Except ServiceError Dict :=
  match recipients with
  | .null => .ok []
  | .arr items =>
    match items.mapM stringItem with
    | none => .error (.channelConfig (py "The 'to' field must be a list of email addresses."))
    | some items =>
      let cleaned := (items.map (strip lib.rt.isSpace)).filter fun item => !item.isEmpty
      match cleaned.find? fun address => !matchesEmail lib address with
      | some address =>
        .error (.channelConfig (py "'" ++ address ++ py "' is not a valid email address."))
      | none => .ok (if cleaned.isEmpty then [] else [(py "to", .arr (cleaned.map .str))])
  | _ => .error (.channelConfig (py "The 'to' field must be a list of email addresses."))

/-- The rule for a channel with one url. -/
def validateUrlConfig (key message : String) (config : Dict) : Except ServiceError Dict := do
  if ← isHttpsUrl lib (config.get key) then
    match config.get key with
    | .str url => return [(py key, .str (strip lib.rt.isSpace url))]
    | _ => .error (.channelConfig (py message))
  else .error (.channelConfig (py message))

def configDict : Json → Except ServiceError Dict
  | .null => .ok []
  | .obj config => .ok config
  | _ => .error (.channelConfig (py "Channel configuration must be an object."))

def validateChannelConfig (channelType : PyStr) (config : Json) : Except ServiceError Dict :=
  match ChannelType.ofStr? channelType with
  | none => .error (.channelConfig (py "Channel type must be one of email, slack, webhook."))
  | some type => do
    let config ← configDict config
    match type with
    | .email => validateEmailConfig lib (config.get "to")
    | .slack =>
      validateUrlConfig lib "webhook_url"
        "A Slack channel needs a 'webhook_url' that is an https URL." config
    | .webhook =>
      validateUrlConfig lib "url" "A webhook needs a 'url' that is an https URL." config

/-- `", ".join(recipients)` -/
def joinRecipients : List Json → Except ServiceError PyStr
  | [] => .ok []
  | [.str s] => .ok s
  | .str s :: rest => do return s ++ py ", " ++ (← joinRecipients rest)
  | _ => .error (.python .typeError)

/-- `a or b` -/
def Json.or (a b : Json) : Json := if Json.truthy a then a else b

def maskUrl (raw : Json) : Except ServiceError PyStr :=
  match raw with
  | .str raw =>
    if raw.isEmpty then .ok (py "(not set)")
    else do
      let (scheme, netloc) ← ofPython (lib.urlsplit raw)
      if scheme.isEmpty || netloc.isEmpty then return py "(hidden)"
      else return scheme ++ py "://" ++ netloc ++ py "/..."
  | _ => .ok (py "(not set)")

def maskTarget (channelType : PyStr) (config : Dict) : Except ServiceError PyStr :=
  if channelType = py "email" then
    match config.get "to" with
    | .arr (item :: items) => joinRecipients (item :: items)
    | _ => .ok (py "All team members")
  else maskUrl lib (Json.or (Json.or (config.get "webhook_url") (config.get "url")) (.str []))

end ChannelConfig

/-! ## Projects and their keys -/

def isSlugChar (c : CodePoint) : Bool :=
  (48 ≤ c.val && c.val ≤ 57) || (97 ≤ c.val && c.val ≤ 122)

/-- `[^a-z0-9]+` -/
def slugGap (_ : Option CodePoint) (rest : PyStr) : ℕ :=
  (rest.takeWhile fun c => !isSlugChar c).length

def dash : CodePoint := CodePoint.ofNat 0x2D

section Services

variable (lib : Libraries) (srv : Server) (draw : Drawn)

def makeProjectSlug (name : PyStr) : PyStr :=
  let base := strip (fun c => c = dash) (substitute slugGap (py "-") none 0 (lib.lower name))
  let base := if base.isEmpty then py "project" else base
  base.take 40 ++ py "-" ++ draw.token.take 8

def loadProjectRow (projectId : ℕ) : Tx (Option Project) := do
  oneOrNone (← execute (.selectProject projectId))

def createProject (orgId : ℕ) (name : PyStr) (platform : Option PyStr) (actor : Option ℕ) :
    Service (Option Project) :=
  let slug := makeProjectSlug lib draw name
  (tenantSession srv orgId do
    let row ← execute (.insertProject draw.id orgId name slug platform)
    record lib draw orgId actor "project.created" "project" (some (uuidStr draw.id))
      (some [(py "name", .str name), (py "slug", .str slug)])
    return some row).orOnIntegrityError none

def updateProjectSampling (orgId projectId : ℕ) (samplingRate : PyFloat) (actor : Option ℕ) :
    Service (Option Project) :=
  tenantSession srv orgId do
    match ← oneOrNone (← execute (.updateSampling samplingRate projectId)) with
    | none => return none
    | some row =>
      record lib draw orgId actor "sampling.updated" "project" (some (uuidStr projectId))
        (some [(py "sampling_rate", .float samplingRate)])
      return some row

def deleteProject (orgId projectId : ℕ) (actor : Option ℕ) : Service Bool :=
  tenantSession srv orgId do
    match ← oneOrNone (← execute (.deleteProject projectId)) with
    | none => return false
    | some name =>
      record lib draw orgId actor "project.deleted" "project" (some (uuidStr projectId))
        (some [(py "name", .str name.val)])
      return true

def createDsnKey (orgId projectId : ℕ) (actor : Option ℕ) : Service (Option DsnKey) :=
  tenantSession srv orgId do
    match ← loadProjectRow projectId with
    | none => return none
    | some _ =>
      let row ← execute (.insertDsnKey draw.id orgId projectId draw.token)
      record lib draw orgId actor "key.created" "dsn_key" (some (uuidStr draw.id))
        (some [(py "project_id", .str (uuidStr projectId)), (py "public_key", .str draw.token)])
      return some row

def revokeDsnKey (orgId projectId keyId : ℕ) (actor : Option ℕ) : Service Bool :=
  tenantSession srv orgId do
    let rowcount ← execute (.revokeDsnKey draw.now keyId projectId)
    if rowcount = 0 then return false
    else
      record lib draw orgId actor "key.revoked" "dsn_key" (some (uuidStr keyId))
        (some [(py "project_id", .str (uuidStr projectId))])
      return true

def loadProjectId (projectId : ℕ) : Tx (Option ℕ) := do
  return (← oneOrNone (← execute (.selectProject projectId))).map Project.id

/-- A channel for one project needs that project. -/
def channelScopeMissing : Option ℕ → Tx Bool
  | none => return false
  | some projectId => do return (← loadProjectId projectId).isNone

def createChannel (orgId : ℕ) (channelType : PyStr) (config : Json) (projectId : Option ℕ)
    (actor : Option ℕ) : Service (Option Channel) := do
  let normalized ← Service.ofExcept (validateChannelConfig lib channelType config)
  tenantSession srv orgId do
    if ← channelScopeMissing projectId then return none
    else
      let row ← execute (.insertChannel draw.id orgId projectId channelType normalized)
      let target ← raiseError (maskTarget lib channelType normalized)
      record lib draw orgId actor "channel.created" "alert_channel" (some (uuidStr draw.id))
        (some [(py "type", .str channelType), (py "target", .str target)])
      return some row

/-- The new configuration of `update_channel` with its masked target, where there is one. -/
def replacedConfig (type : ChannelType) : Json → Except ServiceError (Option (Dict × PyStr))
  | .null => .ok none
  | config => do
    let normalized ← validateChannelConfig lib type.str config
    return some (normalized, ← maskTarget lib type.str normalized)

def channelAuditData (enabled : Option Bool) (target : Option PyStr) : Dict :=
  (enabled.map fun b => (py "enabled", Json.bool b)).toList ++
    (target.map fun t => (py "target", Json.str t)).toList

def updateChannel (orgId channelId : ℕ) (enabled : Option Bool) (config : Json)
    (actor : Option ℕ) : Service (Option Channel) :=
  tenantSession srv orgId do
    match ← oneOrNone (← execute (.selectChannel channelId)) with
    | none => return none
    | some current =>
      let replaced ← raiseError (replacedConfig lib current.type config)
      if enabled.isNone && replaced.isNone then return some current
      else
        let row ← one (← execute (.updateChannel enabled (replaced.map Prod.fst) channelId))
        record lib draw orgId actor "channel.updated" "alert_channel" (some (uuidStr channelId))
          (some (channelAuditData enabled (replaced.map Prod.snd)))
        return some row

def deleteChannel (orgId channelId : ℕ) (actor : Option ℕ) : Service Bool :=
  tenantSession srv orgId do
    match ← oneOrNone (← execute (.deleteChannel channelId)) with
    | none => return false
    | some type =>
      record lib draw orgId actor "channel.deleted" "alert_channel" (some (uuidStr channelId))
        (some [(py "type", .str type.str)])
      return true

/-! ## Issues -/

/-- The keys of `_ACTION_SET_SQL`. -/
def actionOfStr? (action : PyStr) : Option StatusAction :=
  if action = py "resolve" then some .resolve
  else if action = py "ignore" then some .ignore
  else if action = py "reopen" then some .reopen
  else none

def setIssueStatus (orgId projectId issueId : ℕ) (action : PyStr) (actor : Option ℕ) :
    Service (Option IssueRow) :=
  match actionOfStr? action with
  | none => Service.raise (.python .keyError)
  | some action =>
    tenantSession srv orgId do
      match ← loadProjectRow projectId with
      | none => return none
      | some _ =>
        match ← oneOrNone (← execute (.updateStatus action issueId projectId)) with
        | none => return none
        | some row =>
          record lib draw orgId actor action.auditAction "issue" (some (uuidStr issueId))
            (some [(py "project_id", .str (uuidStr projectId))])
          return some row

/-- The issue row of `get_issue`; what it reads of events and of users besides is left out. -/
def getIssue (orgId projectId issueId : ℕ) : Service (Option IssueRow) :=
  tenantSession srv orgId do
    match ← loadProjectRow projectId with
    | none => return none
    | some _ => oneOrNone (← execute (.selectIssue issueId projectId))

def requireMember : Option ℕ → Tx Unit
  | none => return ()
  | some userId => do
    match ← oneOrNone (← execute (.selectMember userId)) with
    | none =>
      Program.raise (.invalidAssignee (py "The assignee must be a member of this organization."))
    | some _ => return ()

def uuidOrNull : Option ℕ → Json
  | none => .null
  | some userId => .str (uuidStr userId)

/-- The transaction of `assign_issue`; whether it has assigned the issue. -/
def assignInSession (orgId projectId issueId : ℕ) (userId actor : Option ℕ) : Tx Bool := do
  match ← loadProjectRow projectId with
  | none => return false
  | some _ =>
    requireMember userId
    match ← oneOrNone (← execute (.updateAssignee userId issueId projectId)) with
    | none => return false
    | some _ =>
      record lib draw orgId actor "issue.assigned" "issue" (some (uuidStr issueId))
        (some [(py "assigned_to", uuidOrNull userId)])
      return true

def assignIssue (orgId projectId issueId : ℕ) (userId actor : Option ℕ) :
    Service (Option IssueRow) := do
  if ← tenantSession srv orgId (assignInSession lib draw orgId projectId issueId userId actor) then
    getIssue srv orgId projectId issueId
  else return none

def deleteIssue (orgId projectId issueId : ℕ) (actor : Option ℕ) : Service Bool :=
  tenantSession srv orgId do
    match ← oneOrNone (← execute (.deleteIssue issueId projectId)) with
    | none => return false
    | some title =>
      record lib draw orgId actor "issue.deleted" "issue" (some (uuidStr issueId))
        (some [(py "project_id", .str (uuidStr projectId)), (py "title", .str title.val)])
      return true

/-! ## Invites -/

/-- `INVITE_TTL`, seven days. -/
def inviteTtl : ℤ := 7 * 86400000000

def hashInviteToken (rawToken : PyStr) : Except ServiceError PyStr := do
  return lib.rt.hexdigest (← ofPython (utf8Encode rawToken))

structure InviteMetadata where
  id : ℕ
  orgId : ℕ
  email : PyStr
  role : PyStr
  expiresAt : Timestamp

def createInvite (orgId : ℕ) (email role : PyStr) (actor : Option ℕ) :
    Service (InviteMetadata × PyStr) :=
  if (MemberRole.ofStr? role).isNone then
    Service.raise (.invalidRole (py "role must be one of ('admin', 'member')"))
  else do
    let tokenHash ← Service.ofExcept (hashInviteToken lib draw.token)
    let expiresAt := draw.now + inviteTtl
    tenantSession srv orgId do
      execute (.insertInvite draw.id orgId email role tokenHash expiresAt)
      record lib draw orgId actor "member.invited" "invite" (some (uuidStr draw.id))
        (some [(py "email", .str email), (py "role", .str role)])
      return (⟨draw.id, orgId, email, role, expiresAt⟩, draw.token)

def validatePassword (password : PyStr) : Option PyStr :=
  if password.length < Invites.passwordMinLength then
    some (py "Password must be at least 10 characters long.")
  else if (Invites.commonPasswords.map py).contains (lib.lower password) then
    some (py "Password is too common; choose something less guessable.")
  else none

structure Accepted where
  userId : ℕ
  email : PyStr
  orgId : ℕ
  role : MemberRole
  deriving DecidableEq

def insertNewUser (userId : ℕ) (email : PyStr) : Option PyStr → Tx Unit
  | some passwordHash => execute (.insertUser userId email passwordHash)
  | none => return ()

/-- The writes of `accept_invite`; a password hash comes with a user to create. -/
def grant (invite : Invite) (email : PyStr) (userId : ℕ) (passwordHash : Option PyStr) :
    Service (Option Accepted) :=
  tenantSession srv invite.orgId do
    insertNewUser userId email passwordHash
    execute (.insertMembership invite.orgId userId invite.role)
    let _ ← execute (.acceptInvite draw.now invite.id)
    record lib draw invite.orgId (some userId) "invite.accepted" "invite" (some (uuidStr invite.id))
      (some [(py "email", .str email), (py "role", .str invite.role.str)])
    return some ⟨userId, email, invite.orgId, invite.role⟩

def loadUserByEmail (email : PyStr) : Service (Option User) :=
  plainSession srv do oneOrNone (← execute (.selectUser email))

def inviteByToken (tokenHash : PyStr) : Service (Option Invite) :=
  systemSession srv do oneOrNone (← execute (.selectInvite tokenHash))

/-- `accept_invite` for an open invite with this email. -/
def acceptOpenInvite (invite : Invite) (email password : PyStr) : Service (Option Accepted) := do
  match ← loadUserByEmail srv email with
  | some existing =>
    if ← Service.ofExcept (ofPython (lib.verifyPassword existing.passwordHash.val password)) then
      grant lib srv draw invite email existing.id none
    else return none
  | none =>
    match validatePassword lib password with
    | some message => Service.raise (.passwordPolicy message)
    | none =>
      let passwordHash ← Service.ofExcept (ofPython (lib.hashPassword password))
      grant lib srv draw invite email draw.id (some passwordHash)

def acceptInvite (token email password : PyStr) : Service (Option Accepted) := do
  let tokenHash ← Service.ofExcept (hashInviteToken lib token)
  match ← inviteByToken srv tokenHash with
  | none => return none
  | some invite =>
    if invite.acceptedAt.isSome || invite.expiresAt ≤ draw.now then return none
    else if lib.lower invite.email.val ≠ lib.lower email then return none
    else acceptOpenInvite lib srv draw invite email password

end Services

/-! ## Calls -/

inductive Call where
  | createProject (orgId : ℕ) (name : PyStr) (platform : Option PyStr) (actor : Option ℕ)
  | updateProjectSampling (orgId projectId : ℕ) (samplingRate : PyFloat) (actor : Option ℕ)
  | deleteProject (orgId projectId : ℕ) (actor : Option ℕ)
  | createDsnKey (orgId projectId : ℕ) (actor : Option ℕ)
  | revokeDsnKey (orgId projectId keyId : ℕ) (actor : Option ℕ)
  | createChannel (orgId : ℕ) (channelType : PyStr) (config : Json) (projectId : Option ℕ)
      (actor : Option ℕ)
  | updateChannel (orgId channelId : ℕ) (enabled : Option Bool) (config : Json) (actor : Option ℕ)
  | deleteChannel (orgId channelId : ℕ) (actor : Option ℕ)
  | setIssueStatus (orgId projectId issueId : ℕ) (action : PyStr) (actor : Option ℕ)
  | assignIssue (orgId projectId issueId : ℕ) (userId actor : Option ℕ)
  | deleteIssue (orgId projectId issueId : ℕ) (actor : Option ℕ)
  | createInvite (orgId : ℕ) (email role : PyStr) (actor : Option ℕ)
  | acceptInvite (token email password : PyStr)

namespace Call

@[reducible] def Answer : Call → Type
  | .createProject _ _ _ _ | .updateProjectSampling _ _ _ _ => Option Project
  | .deleteProject _ _ _ | .revokeDsnKey _ _ _ _ | .deleteChannel _ _ _ | .deleteIssue _ _ _ _ =>
    Bool
  | .createDsnKey _ _ _ => Option DsnKey
  | .createChannel _ _ _ _ _ | .updateChannel _ _ _ _ _ => Option Channel
  | .setIssueStatus _ _ _ _ _ | .assignIssue _ _ _ _ _ => Option IssueRow
  | .createInvite _ _ _ _ => InviteMetadata × PyStr
  | .acceptInvite _ _ _ => Option Accepted

def run (lib : Libraries) (srv : Server) (draw : Drawn) : (call : Call) → Service call.Answer
  | .createProject orgId name platform actor =>
    Tenant.createProject lib srv draw orgId name platform actor
  | .updateProjectSampling orgId projectId samplingRate actor =>
    Tenant.updateProjectSampling lib srv draw orgId projectId samplingRate actor
  | .deleteProject orgId projectId actor => Tenant.deleteProject lib srv draw orgId projectId actor
  | .createDsnKey orgId projectId actor => Tenant.createDsnKey lib srv draw orgId projectId actor
  | .revokeDsnKey orgId projectId keyId actor =>
    Tenant.revokeDsnKey lib srv draw orgId projectId keyId actor
  | .createChannel orgId channelType config projectId actor =>
    Tenant.createChannel lib srv draw orgId channelType config projectId actor
  | .updateChannel orgId channelId enabled config actor =>
    Tenant.updateChannel lib srv draw orgId channelId enabled config actor
  | .deleteChannel orgId channelId actor => Tenant.deleteChannel lib srv draw orgId channelId actor
  | .setIssueStatus orgId projectId issueId action actor =>
    Tenant.setIssueStatus lib srv draw orgId projectId issueId action actor
  | .assignIssue orgId projectId issueId userId actor =>
    Tenant.assignIssue lib srv draw orgId projectId issueId userId actor
  | .deleteIssue orgId projectId issueId actor =>
    Tenant.deleteIssue lib srv draw orgId projectId issueId actor
  | .createInvite orgId email role actor => Tenant.createInvite lib srv draw orgId email role actor
  | .acceptInvite token email password => Tenant.acceptInvite lib srv draw token email password

end Call

end Crashlens.Tenant
