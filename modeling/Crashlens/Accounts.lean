import Crashlens.AuditedServices

/-!
# Accounts

Signing up, and the two lookups behind every request to an organisation. `Instance` adds to the
tables of the organisations what these read and write besides: the names and slugs of the
organisations, and who administers the instance. A signup creates the user, the organisation and
the membership in one session of the new organisation, or nothing.
-/

namespace Crashlens.Api

open Transactional RowSecurity
open Tenant (Libraries Server ServiceError MemberRole Membership User)

structure Org where
  id : ℕ
  name : Text
  slug : Text

structure Instance where
  db : Tenant.Db
  orgRows : List Org
  instanceAdmins : List ℕ

/-! ## Statements -/

inductive Statement where
  | userById (userId : ℕ)
  | roleOf (userId orgId : ℕ)
  | usersExist
  | insertUser (id : ℕ) (email passwordHash : PyStr) (isInstanceAdmin : Bool)
  | insertOrg (id : ℕ) (name slug : PyStr)
  | insertFounder (orgId userId : ℕ)

@[reducible] def Rows : Statement → Type
  | .userById _ => List User
  | .roleOf _ _ => List MemberRole
  | .usersExist => Bool
  | .insertUser _ _ _ _ | .insertOrg _ _ _ | .insertFounder _ _ => Unit

/-- Of these tables `crashlens_system` may read the memberships. -/
def Statement.bootstrap : Statement → Bool
  | .roleOf _ _ => true
  | _ => false

/-- Everything around the tables: the database, its failures, and the session tokens. -/
structure Host where
  srv : Server
  fault : Scope ℕ → Statement → Instance → Option ServiceError
  createAccessToken : ℕ → PyStr
  /-- `decode_access_token`; a token that is malformed, forged or expired has no user. -/
  decodeAccessToken : PyStr → Option ℕ

def statement (scope : Scope ℕ) (s : Instance) :
    (q : Statement) → Except ServiceError (Rows q × Instance)
  | .userById userId => .ok (s.db.users.filter fun u => u.id = userId, s)
  | .roleOf userId orgId =>
    .ok ((select scope (fun m => m.userId = userId && m.orgId = orgId) s.db.memberships).map
      Membership.role, s)
  | .usersExist => .ok (!s.db.users.isEmpty, s)
  | .insertUser id email passwordHash isInstanceAdmin => do
    let email ← Tenant.bindText email
    let passwordHash ← Tenant.bindText passwordHash
    Tenant.require (s.db.users.all fun u => u.id ≠ id && u.email ≠ email)
    .ok ((), { s with
      db := { s.db with users := s.db.users ++ [⟨id, email, passwordHash⟩] }
      instanceAdmins := if isInstanceAdmin then s.instanceAdmins ++ [id] else s.instanceAdmins })
  | .insertOrg id name slug => do
    let name ← Tenant.bindText name
    let slug ← Tenant.bindText slug
    Tenant.permit (scope.admits id)
    Tenant.require (!s.db.hasOrg id && s.orgRows.all fun o => o.slug ≠ slug)
    .ok ((), { s with
      db := { s.db with orgs := s.db.orgs ++ [id] }
      orgRows := s.orgRows ++ [⟨id, name, slug⟩] })
  | .insertFounder orgId userId => do
    Tenant.permit (scope.admits orgId)
    Tenant.require (s.db.memberships.all fun m => !(m.orgId = orgId && m.userId = userId))
    Tenant.require (s.db.hasOrg orgId && s.db.hasUser userId)
    .ok ((), { s with
      db := { s.db with memberships := s.db.memberships ++ [⟨orgId, userId, .admin⟩] } })

def exec (host : Host) (scope : Scope ℕ) (q : Statement) (s : Instance) :
    Except ServiceError (Rows q) × Instance :=
  match host.fault scope q s with
  | some e => (.error e, s)
  | none =>
    if scope = .bypass ∧ q.bootstrap = false then (.error .insufficientPrivilege, s)
    else
      match statement scope s q with
      | .ok (r, s') => (.ok r, s')
      | .error e => (.error e, s)

theorem exec_ok {host : Host} {scope : Scope ℕ} {q : Statement} {s s' : Instance} {r : Rows q}
    (h : exec host scope q s = (.ok r, s')) : statement scope s q = .ok (r, s') := by
  unfold exec at h
  split at h
  · cases h
  · split at h
    · cases h
    · split at h
      · next hst =>
          cases h
          exact hst
      · cases h

abbrev Tx (α : Type) := Program Statement Rows ServiceError α

def execute (q : Statement) : Tx (Rows q) := Program.request q

/-- `scalar_one_or_none` -/
def oneOrNone {α : Type} : List α → Tx (Option α)
  | [] => .pure none
  | [row] => .pure (some row)
  | _ => .raise .multipleResults

/-! ## Actions -/

/-- A service that works on the whole instance. -/
def Action (α : Type) : Type := Instance → Except ServiceError α × Instance

namespace Action

variable {α β : Type}

def pure (a : α) : Action α := fun s => (.ok a, s)

def ofExcept (x : Except ServiceError α) : Action α := fun s => (x, s)

def bind (m : Action α) (f : α → Action β) : Action β := fun s =>
  match m s with
  | (.ok a, s') => f a s'
  | (.error e, s') => (.error e, s')

instance : Monad Action where
  pure := pure
  bind := bind

/-- A service of the tables. -/
def lift (m : Tenant.Service α) : Action α := fun s =>
  match m s.db with
  | (outcome, db) => (outcome, { s with db := db })

/-- `except IntegrityError: return default` -/
def orOnIntegrityError (m : Action α) (default : α) : Action α := fun s =>
  match m s with
  | (.error .integrityError, s') => (.ok default, s')
  | outcome => outcome

def session (host : Host) (scope : Scope ℕ) (body : Tx α) : Action α :=
  body.transact (exec host scope)

end Action

/-! ## Services -/

section Services

variable (lib : Libraries) (host : Host)

def loadUserById (userId : ℕ) : Action (Option User) :=
  .session host .unset do oneOrNone (← execute (.userById userId))

def verifyMembership (userId orgId : ℕ) : Action (Option MemberRole) :=
  .session host .bypass do oneOrNone (← execute (.roleOf userId orgId))

/-- Two uuids and a token. -/
structure NewAccount where
  userId : ℕ
  orgId : ℕ
  token : PyStr

def makeOrgSlug (draw : NewAccount) (orgName : PyStr) : PyStr :=
  let base := strip (fun c => c = Tenant.dash)
    (substitute Tenant.slugGap (py "-") none 0 (lib.lower orgName))
  let base := if base.isEmpty then py "org" else base
  base.take 40 ++ py "-" ++ draw.token.take 8

structure Account where
  userId : ℕ
  email : PyStr
  orgId : ℕ
  orgName : PyStr
  slug : PyStr
  role : MemberRole
  isInstanceAdmin : Bool

/-- The transaction of a signup. -/
def openAccount (draw : NewAccount) (email passwordHash orgName : PyStr) : Tx Account := do
  let slug := makeOrgSlug lib draw orgName
  let isFirstUser := !(← execute .usersExist)
  execute (.insertUser draw.userId email passwordHash isFirstUser)
  execute (.insertOrg draw.orgId orgName slug)
  execute (.insertFounder draw.orgId draw.userId)
  return ⟨draw.userId, email, draw.orgId, orgName, slug, .admin, isFirstUser⟩

def register (draw : NewAccount) (email passwordHash orgName : PyStr) : Action (Option Account) :=
  Action.orOnIntegrityError (do
    return some (← .session host (.tenant draw.orgId)
      (openAccount lib draw email passwordHash orgName))) none

def signup (draw : NewAccount) (email password orgName : PyStr) : Action (Option Account) := do
  let existing ← .lift (Tenant.loadUserByEmail host.srv email)
  let passwordHash ← .ofExcept (Tenant.ofPython (lib.hashPassword password))
  match existing with
  | some _ => return none
  | none => register lib host draw email passwordHash orgName

end Services

end Crashlens.Api
