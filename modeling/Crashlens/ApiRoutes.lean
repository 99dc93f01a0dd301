import Crashlens.Accounts
import Crashlens.Ingest

/-!
# The routes that change something

A request to an organisation passes its dependencies first: `getCurrentUser` turns the token into a
user and `requireOrgMember` or `requireOrgAdmin` confirm the organisation of the path. `OrgContext`
is what they hand to the route, and the route's call of a service takes organisation and actor from
there. Signing up and accepting an invite have no such context.
-/

namespace Crashlens.Api

open Tenant (Libraries ServiceError MemberRole User Project DsnKey Channel IssueRow InviteMetadata
  Accepted Call Drawn)

inductive Body where
  | project (project : Project)
  | key (key : DsnKey)
  | channel (channel : Channel) (target : PyStr)
  | issue (issue : IssueRow)
  | invite (invite : InviteMetadata) (token : PyStr)
  | signedUp (token : PyStr) (userId : ℕ) (email : PyStr) (orgId : ℕ) (orgName slug : PyStr)
      (role : MemberRole)
  | joined (token : PyStr) (userId : ℕ) (email : PyStr) (orgId : ℕ) (role : MemberRole)
  | empty

inductive Response where
  | ok (status : ℕ) (body : Body)
  | error (status : ℕ) (detail : PyStr)
  /-- An exception that no handler catches. -/
  | serverError

/-- The texts that a response may repeat from the request; the others are drawn, fixed or from a
column of text. -/
def Response.texts : Response → List PyStr
  | .ok _ (.signedUp _ _ email _ orgName _ _) => [email, orgName]
  | .ok _ (.joined _ _ email _ _) => [email]
  | .ok _ (.invite invite _) => [invite.email]
  | .ok _ _ => []
  | .error _ detail => [detail]
  | .serverError => []

/-- `JSONResponse.render`: the body is encoded as UTF-8, which has no lone surrogates. -/
def Response.render (response : Response) : Response :=
  if response.texts.all fun text => text.all fun c => !c.isSurrogate then response else .serverError

/-! ## Dependencies -/

structure OrgContext where
  orgId : ℕ
  role : MemberRole
  user : User

def unauthenticated : Response := .error 401 (py "Not authenticated.")

section Dependencies

variable (host : Host)

/-- `credentials` is the token of an `Authorization: Bearer` header. -/
def getCurrentUser (credentials : Option PyStr) (s : Instance) : Except Response User :=
  match credentials with
  | none => .error unauthenticated
  | some token =>
    match host.decodeAccessToken token with
    | none => .error unauthenticated
    | some userId =>
      match (loadUserById host userId s).1 with
      | .error _ => .error .serverError
      | .ok none => .error unauthenticated
      | .ok (some user) => .ok user

def requireOrgMember (credentials : Option PyStr) (orgId : ℕ) (s : Instance) :
    Except Response OrgContext := do
  let user ← getCurrentUser host credentials s
  match (verifyMembership host user.id orgId s).1 with
  | .error _ => .error .serverError
  | .ok none => .error (.error 403 (py "You are not a member of this organization."))
  | .ok (some role) => .ok ⟨orgId, role, user⟩

def requireOrgAdmin (credentials : Option PyStr) (orgId : ℕ) (s : Instance) :
    Except Response OrgContext := do
  let user ← getCurrentUser host credentials s
  match (verifyMembership host user.id orgId s).1 with
  | .error _ => .error .serverError
  | .ok (some .admin) => .ok ⟨orgId, .admin, user⟩
  | .ok _ =>
    .error (.error 403 (py "Administrator access to this organization is required."))

end Dependencies

/-! ## Routes of an organisation -/

inductive Route where
  | createProject (name : PyStr) (platform : Option PyStr)
  | deleteProject (projectId : ℕ)
  | updateProjectSampling (projectId : ℕ) (samplingRate : PyFloat)
  | createKey (projectId : ℕ)
  | revokeKey (projectId keyId : ℕ)
  | createAlertChannel (type : PyStr) (config : Option Dict) (projectId : Option PyStr)
  | updateAlertChannel (channelId : ℕ) (enabled : Option Bool) (config : Option Dict)
  | deleteAlertChannel (channelId : ℕ)
  | resolveIssue (projectId issueId : ℕ)
  | ignoreIssue (projectId issueId : ℕ)
  | reopenIssue (projectId issueId : ℕ)
  | assignIssue (projectId issueId : ℕ) (userId : Option ℕ)
  | deleteIssue (projectId issueId : ℕ)
  | createInvite (email role : PyStr)

/-- The dependency of the route is `require_org_admin`. -/
def Route.needsAdmin : Route → Bool
  | .resolveIssue _ _ | .ignoreIssue _ _ | .reopenIssue _ _ | .assignIssue _ _ _ => false
  | _ => true

def Route.admit (host : Host) (credentials : Option PyStr) (orgId : ℕ) (route : Route)
    (s : Instance) : Except Response OrgContext :=
  if route.needsAdmin then requireOrgAdmin host credentials orgId s
  else requireOrgMember host credentials orgId s

section Routes

variable (lib : Libraries)

/-- `0.0 <= x <= 1.0` -/
def inUnitInterval : PyFloat → Bool
  | .finite negative q =>
    let x := if negative then -q else q
    0 ≤ x && x ≤ 1
  | _ => false

/-- `uuid.UUID(value)`; where `uuidOk` holds, it is the number its digits make. -/
def uuidOf (s : PyStr) : Option ℕ :=
  if uuidOk lib.rt s then
    let bare := replace (replace s (py "urn:") []) (py "uuid:") []
    let digits := replace (strip (py "\x7b\x7d").contains bare) (py "-") []
    some (((transformDecimalAndSpace lib.rt digits).filter isHexDigit).foldl
      (fun n c => 16 * n + hexValue c) 0)
  else none

def parseProjectId : Option PyStr → Except Response (Option ℕ)
  | none => .ok none
  | some [] => .ok none
  | some value =>
    match uuidOf lib value with
    | some projectId => .ok (some projectId)
    | none => .error (.error 400 (py "The project scope is not a valid id."))

def configJson : Option Dict → Json
  | none => .null
  | some config => .obj config

/-- `platform or None` of the stripped platform. -/
def platformOrNone (platform : Option PyStr) : Option PyStr :=
  (platform.map (strip lib.rt.isSpace)).filter fun platform => !platform.isEmpty

/-- The call of a service that a request comes to, unless the route rejects its body. -/
def Route.call (ctx : OrgContext) : Route → Except Response Call
  | .createProject name platform =>
    let name := strip lib.rt.isSpace name
    if name.isEmpty then .error (.error 400 (py "A project name is required."))
    else .ok (.createProject ctx.orgId name (platformOrNone lib platform) (some ctx.user.id))
  | .deleteProject projectId => .ok (.deleteProject ctx.orgId projectId (some ctx.user.id))
  | .updateProjectSampling projectId samplingRate =>
    if inUnitInterval samplingRate then
      .ok (.updateProjectSampling ctx.orgId projectId samplingRate (some ctx.user.id))
    else .error (.error 400 (py "sampling_rate must be between 0 and 1."))
  | .createKey projectId => .ok (.createDsnKey ctx.orgId projectId (some ctx.user.id))
  | .revokeKey projectId keyId => .ok (.revokeDsnKey ctx.orgId projectId keyId (some ctx.user.id))
  | .createAlertChannel type config projectId => do
    let projectId ← parseProjectId lib projectId
    return .createChannel ctx.orgId type (configJson config) projectId (some ctx.user.id)
  | .updateAlertChannel channelId enabled config =>
    .ok (.updateChannel ctx.orgId channelId enabled (configJson config) (some ctx.user.id))
  | .deleteAlertChannel channelId => .ok (.deleteChannel ctx.orgId channelId (some ctx.user.id))
  | .resolveIssue projectId issueId =>
    .ok (.setIssueStatus ctx.orgId projectId issueId (py "resolve") (some ctx.user.id))
  | .ignoreIssue projectId issueId =>
    .ok (.setIssueStatus ctx.orgId projectId issueId (py "ignore") (some ctx.user.id))
  | .reopenIssue projectId issueId =>
    .ok (.setIssueStatus ctx.orgId projectId issueId (py "reopen") (some ctx.user.id))
  | .assignIssue projectId issueId userId =>
    .ok (.assignIssue ctx.orgId projectId issueId userId (some ctx.user.id))
  | .deleteIssue projectId issueId =>
    .ok (.deleteIssue ctx.orgId projectId issueId (some ctx.user.id))
  | .createInvite email role =>
    if (MemberRole.ofStr? role).isNone then
      .error (.error 400 (py "role must be one of ('admin', 'member')."))
    else .ok (.createInvite ctx.orgId email role (some ctx.user.id))

def notFound (detail : String) : Response := .error 404 (py detail)

def ifFound {α : Type} (status : ℕ) (detail : String) (body : α → Body) : Option α → Response
  | some row => .ok status (body row)
  | none => notFound detail

def ifDone (detail : String) : Bool → Response
  | true => .ok 204 .empty
  | false => notFound detail

/-- `_channel_out` -/
def channelOut (status : ℕ) (channel : Channel) : Response :=
  match Tenant.maskTarget lib channel.type.str channel.config with
  | .ok target => .ok status (.channel channel target)
  | .error _ => .serverError

def channelIfFound (status : ℕ) (detail : String) : Option Channel → Response
  | some channel => channelOut lib status channel
  | none => notFound detail

variable (host : Host)

/-- What the route makes of the service's result. Acting on an issue reads it again. -/
def answer (db : Tenant.Db) : (call : Call) → call.Answer → Response
  | .createProject _ _ _ _, some project => .ok 201 (.project project)
  | .createProject _ _ _ _, none =>
    .error 409 (py "A project with a conflicting identifier already exists.")
  | .updateProjectSampling _ _ _ _, found => ifFound 200 "Project not found." .project found
  | .deleteProject _ _ _, done => ifDone "Project not found." done
  | .createDsnKey _ _ _, found => ifFound 201 "Project not found." .key found
  | .revokeDsnKey _ _ _ _, done => ifDone "Key not found or already revoked." done
  | .createChannel _ _ _ _ _, found =>
    channelIfFound lib 201 "The selected project was not found." found
  | .updateChannel _ _ _ _ _, found => channelIfFound lib 200 "Alert channel not found." found
  | .deleteChannel _ _ _, done => ifDone "Alert channel not found." done
  | .setIssueStatus _ _ _ _ _, none => notFound "Error not found."
  | .setIssueStatus orgId projectId issueId _ _, some _ =>
    match (Tenant.getIssue host.srv orgId projectId issueId db).1 with
    | .ok found => ifFound 200 "Error not found." .issue found
    | .error _ => .serverError
  | .assignIssue _ _ _ _ _, found => ifFound 200 "Error not found." .issue found
  | .deleteIssue _ _ _ _, done => ifDone "Error not found." done
  | .createInvite _ _ _ _, (invite, token) => .ok 201 (.invite invite token)
  | .acceptInvite _ _ _, some accepted =>
    .ok 201 (.joined (host.createAccessToken accepted.userId) accepted.userId accepted.email
      accepted.orgId accepted.role)
  | .acceptInvite _ _ _, none =>
    .error 400 (py "This invite is invalid, expired, or already used.")

/-- The errors that a route turns into a rejection. -/
def refusal : Call → ServiceError → Response
  | .createChannel _ _ _ _ _, .channelConfig message => .error 400 message
  | .updateChannel _ _ _ _ _, .channelConfig message => .error 400 message
  | .assignIssue _ _ _ _ _, .invalidAssignee message => .error 400 message
  | .acceptInvite _ _ _, .passwordPolicy message => .error 400 message
  | _, _ => .serverError

def respond (db : Tenant.Db) (call : Call) : Except ServiceError call.Answer → Response
  | .ok a => (answer lib host db call a).render
  | .error e => (refusal call e).render

def serve (draw : Drawn) (call : Call) (s : Instance) : Response × Instance :=
  let outcome := call.run lib host.srv draw s.db
  (respond lib host outcome.2 call outcome.1, { s with db := outcome.2 })

/-- The handler of the route, with the context its dependency has handed over. -/
def Route.handle (draw : Drawn) (ctx : OrgContext) (route : Route) (s : Instance) :
    Response × Instance :=
  match route.call lib ctx with
  | .error response => (response, s)
  | .ok call => serve lib host draw call s

/-! ## Routes without a context -/

/-- `accept_invite` -/
def acceptInviteRoute (draw : Drawn) (token email password : PyStr) (s : Instance) :
    Response × Instance :=
  serve lib host draw (.acceptInvite token email password) s

def signedUp (draw : NewAccount) (email orgName : PyStr) : Response :=
  .ok 201 (.signedUp (host.createAccessToken draw.userId) draw.userId email draw.orgId orgName
    (makeOrgSlug lib draw orgName) .admin)

/-- The answer to an email that is taken has ids that were never stored. -/
def signupAnswer (placeholder : NewAccount) (email orgName : PyStr) :
    Except ServiceError (Option Account) → Response
  | .ok (some account) =>
    .ok 201 (.signedUp (host.createAccessToken account.userId) account.userId account.email
      account.orgId account.orgName account.slug account.role)
  | .ok none => signedUp lib host placeholder email orgName
  | .error _ => .serverError

/-- `signup` -/
def signupRoute (draw placeholder : NewAccount) (email password orgName : PyStr) (s : Instance) :
    Response × Instance :=
  match Tenant.validatePassword lib password with
  | some message => (.error 400 message, s)
  | none =>
    let outcome := signup lib host draw email password orgName s
    ((signupAnswer lib host placeholder email orgName outcome.1).render, outcome.2)

end Routes

end Crashlens.Api
