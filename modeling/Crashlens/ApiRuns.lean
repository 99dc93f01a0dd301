import Crashlens.ApiRoutes
import Crashlens.Authority
import Crashlens.Library.Mealy

/-!
# Requests side by side

A request opens one session after the other, and other requests run in between. `Task` is what is
left of a request between two of its sessions, with the values its handler has read so far; a role,
an invite or an unknown email that it has read may have changed when it goes on. A request that is
left alone answers as its route does (`request_alone`). Whatever the order, the tables stay
accountable: no one acts in an organisation, or gets into it, without an admin who was there before.
-/

namespace Crashlens.Api

open Transactional RowSecurity
open Tenant (Libraries ServiceError MemberRole Membership User Invite Accepted Call Drawn Service
  Accountable Offered SoundFrom AuditedChange Trail Authorised)

inductive Request where
  | org (draw : Drawn) (credentials : Option PyStr) (orgId : ℕ) (route : Route)
  | acceptInvite (draw : Drawn) (token email password : PyStr)
  | signup (draw placeholder : NewAccount) (email password orgName : PyStr)

inductive Task where
  | handle (draw : Drawn) (ctx : OrgContext) (route : Route)
  | redeem (draw : Drawn) (token email password : PyStr) (invite : Invite)
  | grant (draw : Drawn) (token email password : PyStr) (invite : Invite) (userId : ℕ)
      (passwordHash : Option PyStr)
  | openAccount (draw placeholder : NewAccount) (email passwordHash orgName : PyStr)

section Tasks

variable (lib : Libraries) (host : Host)

/-- `accept_invite` up to the checks of the invite. -/
def openInvite (draw : Drawn) (token email : PyStr) : Service (Option Invite) := do
  let tokenHash ← Service.ofExcept (Tenant.hashInviteToken lib token)
  match ← Tenant.inviteByToken host.srv tokenHash with
  | none => return none
  | some invite =>
    if invite.acceptedAt.isSome || invite.expiresAt ≤ draw.now then return none
    else if lib.lower invite.email.val ≠ lib.lower email then return none
    else return some invite

/-- The user who gets the membership, and the password hash of one who is still to be created. -/
def identify (draw : Drawn) (email password : PyStr) : Service (Option (ℕ × Option PyStr)) := do
  match ← Tenant.loadUserByEmail host.srv email with
  | some existing =>
    if ← Service.ofExcept
        (Tenant.ofPython (lib.verifyPassword existing.passwordHash.val password)) then
      return some (existing.id, none)
    else return none
  | none =>
    match Tenant.validatePassword lib password with
    | some message => Service.raise (.passwordPolicy message)
    | none =>
      let passwordHash ← Service.ofExcept (Tenant.ofPython (lib.hashPassword password))
      return some (draw.id, some passwordHash)

/-- The first session of a request. It only reads. -/
def Request.begin : Request → Instance → Except Response Task
  | .org draw credentials orgId route, s =>
    match route.admit host credentials orgId s with
    | .error response => .error response
    | .ok ctx => .ok (.handle draw ctx route)
  | .acceptInvite draw token email password, s =>
    match (openInvite lib host draw token email s.db).1 with
    | .ok (some invite) => .ok (.redeem draw token email password invite)
    | .ok none => .error (respond lib host s.db (.acceptInvite token email password) (.ok none))
    | .error e => .error (respond lib host s.db (.acceptInvite token email password) (.error e))
  | .signup draw placeholder email password orgName, s =>
    match Tenant.validatePassword lib password with
    | some message => .error (.error 400 message)
    | none =>
      match (Tenant.loadUserByEmail host.srv email s.db).1,
          Tenant.ofPython (lib.hashPassword password) with
      | .ok none, .ok passwordHash =>
        .ok (.openAccount draw placeholder email passwordHash orgName)
      | .ok (some _), .ok _ => .error (signedUp lib host placeholder email orgName).render
      | _, _ => .error .serverError

/-- A further session: the answer, or what is left. -/
def Task.resume : Task → Instance → Except Response Task × Instance
  | .handle draw ctx route, s =>
    let outcome := route.handle lib host draw ctx s
    (.error outcome.1, outcome.2)
  | .redeem draw token email password invite, s =>
    let call : Call := .acceptInvite token email password
    match (identify lib host draw email password s.db).1 with
    | .ok (some (userId, passwordHash)) =>
      (.ok (.grant draw token email password invite userId passwordHash), s)
    | .ok none => (.error (respond lib host s.db call (.ok none)), s)
    | .error e => (.error (respond lib host s.db call (.error e)), s)
  | .grant draw token email password invite userId passwordHash, s =>
    let outcome := Tenant.grant lib host.srv draw invite email userId passwordHash s.db
    (.error (respond lib host outcome.2 (.acceptInvite token email password) outcome.1),
      { s with db := outcome.2 })
  | .openAccount draw placeholder email passwordHash orgName, s =>
    let outcome := register lib host draw email passwordHash orgName s
    (.error (signupAnswer lib host placeholder email orgName outcome.1).render, outcome.2)

/-- The request as its route serves it, with no one else about. -/
def Request.serve : Request → Instance → Response × Instance
  | .org draw credentials orgId route, s =>
    match route.admit host credentials orgId s with
    | .error response => (response, s)
    | .ok ctx => route.handle lib host draw ctx s
  | .acceptInvite draw token email password, s =>
    acceptInviteRoute lib host draw token email password s
  | .signup draw placeholder email password orgName, s =>
    signupRoute lib host draw placeholder email password orgName s

def finish : ℕ → Except Response Task × Instance → Response × Instance
  | _, (.error response, s) => (response, s)
  | 0, (.ok _, s) => (.serverError, s)
  | n + 1, (.ok task, s) => finish n (task.resume lib host s)

end Tasks

/-! ## A request alone -/

section Alone

variable {lib : Libraries} {host : Host} {draw : Drawn} {db : Tenant.Db} {invite : Invite}
  {token email password : PyStr} {α β γ : Type}

theorem bind_assoc (m : Service α) (f : α → Service β) (g : β → Service γ) :
    (m.bind f).bind g = m.bind fun a => (f a).bind g := by
  funext db
  simp only [Service.bind]
  match m db with
  | (.ok a, db') => rfl
  | (.error e, db') => rfl

/-- A service goes on after one that has only read. -/
theorem bind_read {m : Service α} (h : (m db).2 = db) (f : α → Service β) :
    m.bind f db = match (m db).1 with
      | .ok a => f a db
      | .error e => (.error e, db) := by
  unfold Service.bind
  match hm : m db with
  | (.ok a, db') =>
      obtain rfl : db' = db := by simpa [hm] using h
      rfl
  | (.error e, db') =>
      obtain rfl : db' = db := by simpa [hm] using h
      rfl

theorem bind_tables {m : Service α} {f : α → Service β} (hm : (m db).2 = db)
    (hf : ∀ a, (f a db).2 = db) : (m.bind f db).2 = db := by
  rw [bind_read hm]
  split
  · exact hf _
  · rfl

theorem openInvite_tables : (openInvite lib host draw token email db).2 = db := by
  refine bind_tables (Tenant.ofExcept_tables _ db) fun tokenHash => ?_
  refine bind_tables Tenant.inviteByToken_reads.1 fun found => ?_
  cases found with
  | none => rfl
  | some invite =>
      dsimp only
      split_ifs
      all_goals rfl

theorem identify_tables : (identify lib host draw email password db).2 = db := by
  refine bind_tables Tenant.loadUserByEmail_reads.1 fun found => ?_
  cases found with
  | some existing =>
      refine bind_tables (Tenant.ofExcept_tables _ db) fun verified => ?_
      cases verified with
      | true => rfl
      | false => rfl
  | none =>
      dsimp only
      cases Tenant.validatePassword lib password with
      | some message => rfl
      | none => exact bind_tables (Tenant.ofExcept_tables _ db) fun _ => rfl

theorem acceptOpenInvite_eq : Tenant.acceptOpenInvite lib host.srv draw invite email password =
    (identify lib host draw email password).bind fun
      | none => Service.pure none
      | some (userId, passwordHash) =>
        Tenant.grant lib host.srv draw invite email userId passwordHash := by
  unfold identify
  refine Eq.trans ?_ (bind_assoc (Tenant.loadUserByEmail host.srv email) _ _).symm
  refine congrArg _ (funext fun found => ?_)
  cases found with
  | some existing =>
      refine Eq.trans (congrArg (Service.bind _) (funext fun verified => ?_))
        (bind_assoc (Service.ofExcept _) _ _).symm
      cases verified with
      | true => rfl
      | false => rfl
  | none =>
      dsimp only
      cases Tenant.validatePassword lib password with
      | some message => rfl
      | none =>
          refine Eq.trans ?_ (bind_assoc (Service.ofExcept _) _ _).symm
          rfl

theorem acceptInvite_eq : Tenant.acceptInvite lib host.srv draw token email password =
    (openInvite lib host draw token email).bind fun
      | none => Service.pure none
      | some invite => Tenant.acceptOpenInvite lib host.srv draw invite email password := by
  unfold openInvite
  refine Eq.trans ?_ (bind_assoc (Service.ofExcept _) _ _).symm
  refine congrArg _ (funext fun tokenHash => ?_)
  refine Eq.trans ?_ (bind_assoc (Tenant.inviteByToken host.srv tokenHash) _ _).symm
  refine congrArg _ (funext fun found => ?_)
  cases found with
  | none => rfl
  | some invite =>
      dsimp only
      split_ifs
      all_goals rfl

theorem signup_eq {draw : NewAccount} {orgName : PyStr} {s : Instance} :
    signup lib host draw email password orgName s =
      match (Tenant.loadUserByEmail host.srv email s.db).1,
          Tenant.ofPython (lib.hashPassword password) with
      | .ok none, .ok passwordHash => register lib host draw email passwordHash orgName s
      | .ok (some _), .ok _ => (.ok none, s)
      | .ok _, .error e => (.error e, s)
      | .error e, _ => (.error e, s) := by
  have htables : (Tenant.loadUserByEmail host.srv email s.db).2 = s.db :=
    Tenant.loadUserByEmail_reads.1
  have hlift : Action.lift (Tenant.loadUserByEmail host.srv email) s =
      ((Tenant.loadUserByEmail host.srv email s.db).1, s) := by
    refine Prod.ext rfl ?_
    change { s with db := (Tenant.loadUserByEmail host.srv email s.db).2 } = s
    rw [htables]
  change Action.bind (Action.lift _) _ s = _
  unfold Action.bind
  rw [hlift]
  cases (Tenant.loadUserByEmail host.srv email s.db).1 with
  | error e => rfl
  | ok found =>
      cases found with
      | some existing =>
          cases Tenant.ofPython (lib.hashPassword password) with
          | error e => rfl
          | ok passwordHash => rfl
      | none =>
          cases Tenant.ofPython (lib.hashPassword password) with
          | error e => rfl
          | ok passwordHash => rfl

/-- A request without another between its sessions answers, and leaves the tables, as its route. -/
theorem request_alone (request : Request) (s : Instance) :
    finish lib host 2 (request.begin lib host s, s) = request.serve lib host s := by
  cases request with
  | org draw credentials orgId route =>
      simp only [Request.begin, Request.serve]
      cases route.admit host credentials orgId s with
      | error response => rfl
      | ok ctx => rfl
  | acceptInvite draw token email password =>
      have hroute : Request.serve lib host (.acceptInvite draw token email password) s =
          (respond lib host
            (Tenant.acceptInvite lib host.srv draw token email password s.db).2
            (.acceptInvite token email password)
            (Tenant.acceptInvite lib host.srv draw token email password s.db).1,
            { s with db := (Tenant.acceptInvite lib host.srv draw token email password s.db).2 }) :=
        rfl
      rw [hroute, acceptInvite_eq, bind_read openInvite_tables]
      simp only [Request.begin]
      cases (openInvite lib host draw token email s.db).1 with
      | error e => rfl
      | ok found =>
          cases found with
          | none => rfl
          | some invite =>
              dsimp only
              rw [acceptOpenInvite_eq, bind_read identify_tables, finish, Task.resume]
              cases (identify lib host draw email password s.db).1 with
              | error e => rfl
              | ok found =>
                  cases found with
                  | none => rfl
                  | some found => rfl
  | signup draw placeholder email password orgName =>
      simp only [Request.begin, Request.serve, signupRoute]
      cases Tenant.validatePassword lib password with
      | some message => rfl
      | none =>
          dsimp only
          rw [signup_eq]
          cases (Tenant.loadUserByEmail host.srv email s.db).1 with
          | error e => rfl
          | ok found =>
              cases Tenant.ofPython (lib.hashPassword password) with
              | error e =>
                  cases found with
                  | none => rfl
                  | some existing => rfl
              | ok passwordHash =>
                  cases found with
                  | none => rfl
                  | some existing => rfl

end Alone

/-! ## What a dependency confirms -/

section Dependencies

variable {lib : Libraries} {host : Host} {s : Instance} {credentials : Option PyStr}
  {ctx : OrgContext} {orgId : ℕ} {route : Route} {call : Call}

/-- The user of the context is a member, an admin where the route asks for one. -/
def OrgContext.Holds (ctx : OrgContext) (route : Route) (members : List Membership) : Prop :=
  ∃ m ∈ members, m.orgId = ctx.orgId ∧ m.userId = ctx.user.id ∧
    (route.needsAdmin = true → m.role = .admin)

theorem verifyMembership_ok {userId : ℕ} {role : MemberRole}
    (h : (verifyMembership host userId orgId s).1 = .ok (some role)) :
    ⟨orgId, userId, role⟩ ∈ s.db.memberships := by
  have hbody : Program.Ensures (exec host .bypass)
      (fun found _ => ∀ role ∈ found, (⟨orgId, userId, role⟩ : Membership) ∈ s.db.memberships)
      ((execute (.roleOf userId orgId)).bind oneOrNone) s := by
    refine ⟨trivial, fun roles s' hexec => ?_⟩
    obtain ⟨hroles, -⟩ := Prod.mk.inj (Except.ok.inj (exec_ok hexec))
    have hrows : ∀ role ∈ roles, (⟨orgId, userId, role⟩ : Membership) ∈ s.db.memberships := by
      intro role hrole
      rw [← hroles] at hrole
      obtain ⟨m, hm, rfl⟩ := List.mem_map.mp hrole
      obtain ⟨hmem, -, hkey⟩ := mem_select.mp hm
      obtain ⟨rfl, rfl⟩ : m.userId = userId ∧ m.orgId = orgId := by simpa using hkey
      exact hmem
    match roles with
    | [] => exact fun role hrole => by cases hrole
    | [row] => exact fun role hrole => hrows role (by simpa using hrole.symm)
    | _ :: _ :: _ => trivial
  obtain ⟨e, hs⟩ | ⟨found, s', hs, hfound⟩ := Program.transact_cases hbody
  · cases (congrArg Prod.fst hs).symm.trans h
  · cases (congrArg Prod.fst hs).symm.trans h
    exact hfound role rfl

theorem requireOrgMember_ok (h : requireOrgMember host credentials orgId s = .ok ctx) :
    ctx.orgId = orgId ∧ ⟨ctx.orgId, ctx.user.id, ctx.role⟩ ∈ s.db.memberships := by
  obtain ⟨user, -, h⟩ := bind_ok h
  split at h
  · cases h
  · cases h
  · next role hrole =>
      cases h
      exact ⟨rfl, verifyMembership_ok hrole⟩

theorem requireOrgAdmin_ok (h : requireOrgAdmin host credentials orgId s = .ok ctx) :
    ctx.orgId = orgId ∧ ⟨ctx.orgId, ctx.user.id, .admin⟩ ∈ s.db.memberships := by
  obtain ⟨user, -, h⟩ := bind_ok h
  split at h
  · cases h
  · next hrole =>
      cases h
      exact ⟨rfl, verifyMembership_ok hrole⟩
  · cases h

theorem admit_holds (h : route.admit host credentials orgId s = .ok ctx) :
    ctx.Holds route s.db.memberships := by
  unfold Route.admit at h
  split at h
  · obtain ⟨-, hmem⟩ := requireOrgAdmin_ok h
    exact ⟨_, hmem, rfl, rfl, fun _ => rfl⟩
  · next hmember =>
      obtain ⟨-, hmem⟩ := requireOrgMember_ok h
      exact ⟨_, hmem, rfl, rfl, fun hadmin => absurd hadmin hmember⟩

/-- A route acts for the user of its context, in the organisation of its context. -/
theorem routeCall_madeBy (h : route.call lib ctx = .ok call) :
    call.MadeBy ctx.orgId ctx.user.id ∧ (call.needsAdmin = true → route.needsAdmin = true) := by
  cases route with
  | createProject name platform =>
      simp only [Route.call] at h
      split at h
      · cases h
      · cases h
        exact ⟨⟨rfl, rfl⟩, fun _ => rfl⟩
  | updateProjectSampling projectId samplingRate =>
      simp only [Route.call] at h
      split at h
      · cases h
        exact ⟨⟨rfl, rfl⟩, fun _ => rfl⟩
      · cases h
  | createAlertChannel type config projectId =>
      obtain ⟨projectId', -, h⟩ := bind_ok h
      cases h
      exact ⟨⟨rfl, rfl⟩, fun _ => rfl⟩
  | createInvite email role =>
      simp only [Route.call] at h
      split at h
      · cases h
      · cases h
        exact ⟨⟨rfl, rfl⟩, fun _ => rfl⟩
  | _ =>
    cases h
    exact ⟨⟨rfl, rfl⟩, id⟩

end Dependencies

/-! ## What a session does -/

section Sessions

variable {lib : Libraries} {host : Host} {s : Instance} {task : Task} {db db' : Tenant.Db}

/-- A new user with an organisation of the user's own. -/
def Opened (draw : NewAccount) (db db' : Tenant.Db) : Prop :=
  ∃ user : User, user.id = draw.userId ∧ draw.orgId ∉ db.orgs ∧
    user.email ∉ db.users.map User.email ∧
    db' = { db with
      users := db.users ++ [user]
      orgs := db.orgs ++ [draw.orgId]
      memberships := db.memberships ++ [⟨draw.orgId, draw.userId, .admin⟩] }

/-- The tables are those of before, the log says who changed what within which organisation, or an
account has been opened. -/
def Explained (db db' : Tenant.Db) : Prop :=
  db' = db ∨ (∃ t, AuditedChange t db db' ∧ Tenant.Within t.orgId db db') ∨
    ∃ draw, Opened draw db db'

/-- What a request has read still allows what it is about to write. -/
def Task.Holds (db : Tenant.Db) : Task → Prop
  | .handle _ ctx route => ctx.Holds route db.memberships
  | .redeem _ _ _ _ invite | .grant _ _ _ _ invite _ _ =>
    ∃ inviter ∈ db.memberships, Offered db inviter invite.orgId invite.id invite.role
  | .openAccount _ _ _ _ _ => True

theorem offer_mono (h : SoundFrom db db') {invite : Invite}
    (hoffer : ∃ inviter ∈ db.memberships, Offered db inviter invite.orgId invite.id invite.role) :
    ∃ inviter ∈ db'.memberships, Offered db' inviter invite.orgId invite.id invite.role := by
  obtain ⟨inviter, hmem, hoffered⟩ := hoffer
  exact ⟨inviter, h.members hmem, hoffered.mono h.log⟩

theorem Task.Holds.mono (h : SoundFrom db db') (htask : task.Holds db) : task.Holds db' := by
  cases task with
  | handle draw ctx route =>
      obtain ⟨m, hm, hctx⟩ := htask
      exact ⟨m, h.members hm, hctx⟩
  | redeem draw token email password invite => exact offer_mono h htask
  | grant draw token email password invite userId passwordHash => exact offer_mono h htask
  | openAccount draw placeholder email passwordHash orgName => trivial

theorem openAccount_opened {draw : NewAccount} {email passwordHash orgName : PyStr} :
    Program.Ensures (exec host (.tenant draw.orgId)) (fun _ s' => Opened draw s.db s'.db)
      (openAccount lib draw email passwordHash orgName) s := by
  refine ⟨trivial, fun _ s₁ h₁ => ⟨trivial, fun _ s₂ h₂ => ⟨trivial, fun _ s₃ h₃ =>
    ⟨trivial, fun _ s₄ h₄ => ?_⟩⟩⟩⟩
  cases exec_ok h₁
  obtain ⟨email', -, h₂⟩ := bind_ok (exec_ok h₂)
  obtain ⟨passwordHash', -, h₂⟩ := bind_ok h₂
  obtain ⟨_, hnew, h₂⟩ := bind_ok h₂
  cases h₂
  obtain ⟨name, -, h₃⟩ := bind_ok (exec_ok h₃)
  obtain ⟨slug, -, h₃⟩ := bind_ok h₃
  obtain ⟨_, -, h₃⟩ := bind_ok h₃
  obtain ⟨_, horg, h₃⟩ := bind_ok h₃
  cases h₃
  obtain ⟨_, -, h₄⟩ := bind_ok (exec_ok h₄)
  obtain ⟨_, -, h₄⟩ := bind_ok h₄
  obtain ⟨_, -, h₄⟩ := bind_ok h₄
  cases h₄
  refine ⟨⟨draw.userId, email', passwordHash'⟩, rfl, fun hmem => ?_, fun hmem => ?_, rfl⟩
  · have hfree := (Bool.and_eq_true_iff.mp (Tenant.require_ok horg)).1
    simp [Tenant.Db.hasOrg, hmem] at hfree
  · obtain ⟨u, hu, hemail⟩ := List.mem_map.mp hmem
    have hfree := List.all_eq_true.mp (Tenant.require_ok hnew) u hu
    simp [hemail] at hfree

theorem register_cases {draw : NewAccount} {email passwordHash orgName : PyStr} :
    (register lib host draw email passwordHash orgName s).2 = s ∨
      Opened draw s.db (register lib host draw email passwordHash orgName s).2.db := by
  have hopens : Program.Ensures (exec host (.tenant draw.orgId))
      (fun _ s' => Opened draw s.db s'.db)
      (openAccount lib draw email passwordHash orgName) s := openAccount_opened
  obtain ⟨e, hs⟩ | ⟨account, s', hs, hopened⟩ := Program.transact_cases hopens
  · left
    change (Action.orOnIntegrityError (Action.bind (Action.session _ _ _) _) none s).2 = s
    simp only [Action.orOnIntegrityError, Action.bind, Action.session, hs]
    cases e with
    | integrityError => rfl
    | _ => rfl
  · right
    change Opened draw s.db
      (Action.orOnIntegrityError (Action.bind (Action.session _ _ _) _) none s).2.db
    simp only [Action.orOnIntegrityError, Action.bind, Action.session, hs]
    exact hopened

theorem Opened.soundFrom {draw : NewAccount} (hdb : db.Sound) (h : Opened draw db db') :
    SoundFrom db db' := by
  obtain ⟨user, -, horg, hemail, rfl⟩ := h
  refine hdb.found horg rfl rfl rfl rfl { hdb.consistent with } ?_
  rw [List.map_append, List.map_singleton, ← List.concat_eq_append]
  exact hdb.emails.concat hemail

theorem openInvite_mem {draw : Drawn} {token email : PyStr} {invite : Invite}
    (h : (openInvite lib host draw token email db).1 = .ok (some invite)) :
    invite ∈ db.invites := by
  obtain ⟨tokenHash, -, h⟩ := Tenant.Service.ofExcept_bind_ok (Prod.ext h rfl)
  obtain ⟨found, db₁, hfound, h⟩ := Tenant.Service.bind_ok h
  cases found with
  | none => cases h
  | some row =>
      have hmem := (Tenant.inviteByToken_reads.2 _ (congrArg Prod.fst hfound) row rfl).1
      dsimp only at h
      split_ifs at h
      all_goals cases h
      exact hmem

theorem begin_holds {request : Request} (hdb : s.db.Sound)
    (h : request.begin lib host s = .ok task) : task.Holds s.db := by
  cases request with
  | org draw credentials orgId route =>
      simp only [Request.begin] at h
      split at h
      · cases h
      · next ctx hctx =>
          cases h
          exact admit_holds hctx
  | acceptInvite draw token email password =>
      simp only [Request.begin] at h
      split at h
      · next invite hinvite =>
          cases h
          exact hdb.invites invite (openInvite_mem hinvite)
      · cases h
      · cases h
  | signup draw placeholder email password orgName =>
      simp only [Request.begin] at h
      split at h
      · cases h
      · split at h
        · cases h
          trivial
        · cases h
        · cases h

theorem explained_call {draw : Drawn} {call : Call} (hdb : db.Consistent) :
    Explained db (call.run lib host.srv draw db).2 := by
  obtain ⟨hsame, -⟩ | ⟨⟨t, tables, -, -, hchange⟩, -⟩ :=
    Tenant.call_allOrNothing lib host.srv draw call db
  · exact .inl hsame
  · exact .inr (.inl ⟨t, hchange, hchange.within fun _ => hdb⟩)

theorem handle_sound (lib : Libraries) (host : Host) (draw : Drawn) {ctx : OrgContext}
    {route : Route} (hdb : s.db.Sound)
    (hctx : ctx.Holds route s.db.memberships) :
    SoundFrom s.db (route.handle lib host draw ctx s).2.db ∧
      Explained s.db (route.handle lib host draw ctx s).2.db := by
  unfold Route.handle
  split
  · exact ⟨hdb.refl, .inl rfl⟩
  · next call hcall =>
      obtain ⟨hmade, hadmin⟩ := routeCall_madeBy hcall
      obtain ⟨m, hm, horg, huser, hrole⟩ := hctx
      exact ⟨Tenant.madeBy_sound hdb hmade hm horg huser fun h => hrole (hadmin h),
        explained_call hdb.consistent⟩

theorem explained_grant {draw : Drawn} {invite : Invite} {email : PyStr} {userId : ℕ}
    {passwordHash : Option PyStr} (hdb : db.Consistent) :
    Explained db (Tenant.grant lib host.srv draw invite email userId passwordHash db).2 := by
  have haudited : (Tenant.grant lib host.srv draw invite email userId passwordHash).Audited db
      (fun a => a = none) _ := Tenant.grant_audited
  obtain ⟨hsame, -⟩ | ⟨⟨t, tables, -, -, hchange⟩, -⟩ := haudited
  · exact .inl hsame
  · exact .inr (.inl ⟨t, hchange, hchange.within fun _ => hdb⟩)

theorem resume_sound (lib : Libraries) (host : Host) (hdb : s.db.Sound) (htask : task.Holds s.db) :
    SoundFrom s.db (task.resume lib host s).2.db ∧ Explained s.db (task.resume lib host s).2.db ∧
      ∀ next, (task.resume lib host s).1 = .ok next → next.Holds s.db := by
  cases task with
  | handle draw ctx route =>
      obtain ⟨hsound, hexplained⟩ :=
        handle_sound lib host draw hdb htask
      exact ⟨hsound, hexplained, fun next h => by cases h⟩
  | redeem draw token email password invite =>
      simp only [Task.resume]
      split
      · refine ⟨hdb.refl, .inl rfl, fun next h => ?_⟩
        cases h
        exact htask
      · exact ⟨hdb.refl, .inl rfl, fun next h => by cases h⟩
      · exact ⟨hdb.refl, .inl rfl, fun next h => by cases h⟩
  | grant draw token email password invite userId passwordHash =>
      exact ⟨Tenant.grant_sound hdb htask, explained_grant hdb.consistent, fun next h => by cases h⟩
  | openAccount draw placeholder email passwordHash orgName =>
      have hcases : (register lib host draw email passwordHash orgName s).2 = s ∨
          Opened draw s.db (register lib host draw email passwordHash orgName s).2.db :=
        register_cases
      obtain hsame | hopened := hcases
      · have htables := congrArg Instance.db hsame
        refine ⟨?_, .inl htables, fun next h => by cases h⟩
        exact htables.symm ▸ hdb.refl
      · exact ⟨hopened.soundFrom hdb, .inr (.inr ⟨draw, hopened⟩), fun next h => by cases h⟩

end Sessions

/-! ## Runs -/

/-- The requests between two sessions, in the order in which they got there. -/
structure State where
  inst : Instance
  pending : List Task

inductive Input where
  | arrive (host : Host) (request : Request)
  | resume (host : Host) (index : ℕ)

section Runs

variable (lib : Libraries)

def fresh : State := ⟨⟨⟨[], [], [], [], [], [], [], [], [], [], []⟩, [], []⟩, []⟩

def settle (pending : List Task) : Except Response Task × Instance → Option Response × State
  | (.error response, inst) => (some response, ⟨inst, pending⟩)
  | (.ok task, inst) => (none, ⟨inst, pending ++ [task]⟩)

/-- One session of one request; the answer, if it is the last. -/
def step (s : State) : Input → Option Response × State
  | .arrive host request => settle s.pending (request.begin lib host s.inst, s.inst)
  | .resume host index =>
    match s.pending[index]? with
    | some task => settle (s.pending.eraseIdx index) (task.resume lib host s.inst)
    | none => (none, s)

def run (inputs : List Input) : State := Mealy.final (step lib) fresh inputs

variable {lib}

structure State.Sound (s : State) : Prop where
  tables : s.inst.db.Sound
  pending : ∀ task ∈ s.pending, task.Holds s.inst.db

theorem fresh_sound : fresh.Sound where
  tables :=
    { founded := fun _ h => by cases h
      invited := fun before _ _ h => by cases before <;> cases h
      logged := fun _ h => by cases h
      consistent := by
        refine ⟨List.nodup_nil, List.nodup_nil, ?_, ?_, ?_, ?_, ?_⟩
        all_goals exact fun _ h => by cases h
      orgs := fun _ h => by cases h
      invites := fun _ h => by cases h
      emails := List.nodup_nil }
  pending _ h := by cases h

theorem settle_sound {inst : Instance} {pending : List Task}
    {outcome : Except Response Task × Instance} (htables : SoundFrom inst.db outcome.2.db)
    (hpending : ∀ task ∈ pending, task.Holds inst.db)
    (hnext : ∀ task, outcome.1 = .ok task → task.Holds inst.db) :
    (settle pending outcome).2.Sound := by
  match outcome with
  | (.error response, inst') =>
      exact ⟨htables.toSound, fun task htask => (hpending task htask).mono htables⟩
  | (.ok next, inst') =>
      refine ⟨htables.toSound, fun task htask => ?_⟩
      obtain hold | hnew := List.mem_append.mp htask
      · exact (hpending task hold).mono htables
      · rw [List.mem_singleton.mp hnew]
        exact (hnext next rfl).mono htables

theorem settle_tables {pending : List Task} {outcome : Except Response Task × Instance} :
    (settle pending outcome).2.inst = outcome.2 := by
  match outcome with
  | (.error response, inst') => rfl
  | (.ok next, inst') => rfl

theorem step_sound {s : State} (hs : s.Sound) (input : Input) :
    (step lib s input).2.Sound ∧ Explained s.inst.db (step lib s input).2.inst.db := by
  cases input with
  | arrive host request =>
      refine ⟨settle_sound hs.tables.refl hs.pending fun task => begin_holds hs.tables, ?_⟩
      exact .inl (congrArg Instance.db settle_tables)
  | resume host index =>
      simp only [step]
      cases hindex : s.pending[index]? with
      | none => exact ⟨hs, .inl rfl⟩
      | some task =>
          have hmem : task ∈ s.pending := List.mem_of_getElem? hindex
          obtain ⟨hsound, hexplained, hnext⟩ :=
            resume_sound lib host hs.tables (hs.pending task hmem)
          refine ⟨settle_sound hsound (fun other hother => ?_) hnext, ?_⟩
          · exact hs.pending other (List.mem_of_mem_eraseIdx hother)
          · rw [settle_tables]
            exact hexplained

theorem run_sound (lib : Libraries) (inputs : List Input) : (run lib inputs).Sound :=
  Mealy.final_invariant (I := State.Sound) (fun _ input hs => (step_sound hs input).1) fresh_sound
    inputs

/-- In whatever order the sessions of the requests come. -/
theorem everyone_is_accountable (inputs : List Input) (input : Input) :
    let s := run lib inputs
    Accountable s.inst.db ∧ Explained s.inst.db (step lib s input).2.inst.db :=
  ⟨(run_sound lib inputs).tables.toAccountable, (step_sound (run_sound lib inputs) input).2⟩

end Runs

end Crashlens.Api
