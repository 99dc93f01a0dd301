import Crashlens.AuditTrail

/-!
# The role an acceptance grants

No service changes or removes the role someone holds in an organisation (`runCalls_roles`). An
acceptance therefore grants the role of its invite where the accepting user held none, and reports
that role in any case.
-/

namespace Crashlens.Tenant

open Transactional RowSecurity

/-- The roles of the user in the organisation; `uq_memberships_org_user` allows one. -/
def Db.roles (db : Db) (orgId userId : ℕ) : List MemberRole :=
  (db.memberships.filter fun m => m.orgId = orgId && m.userId = userId).map Membership.role

def KeepsRoles (db db' : Db) : Prop :=
  ∀ orgId userId, db.roles orgId userId ≠ [] → db'.roles orgId userId = db.roles orgId userId

section Roles

variable {srv : Server} {scope : Scope ℕ} {db db₁ db₂ : Db} {orgId userId : ℕ}

theorem roles_congr (h : db₁.memberships = db.memberships) (orgId userId : ℕ) :
    db₁.roles orgId userId = db.roles orgId userId := by rw [Db.roles, h, Db.roles]

theorem roles_eq_nil_iff : db.roles orgId userId = [] ↔
    (db.memberships.any fun m => m.orgId = orgId && m.userId = userId) = false := by
  rw [Db.roles, List.map_eq_nil_iff, List.filter_eq_nil_iff, List.any_eq_false]

theorem keepsRoles_refl : KeepsRoles db db := fun _ _ _ => rfl

theorem keepsRoles_trans (h₁ : KeepsRoles db db₁) (h₂ : KeepsRoles db₁ db₂) :
    KeepsRoles db db₂ := fun orgId userId hne => by
  have heq := h₁ orgId userId hne
  rw [← heq]
  exact h₂ orgId userId (heq.symm ▸ hne)

/-- `ON CONFLICT DO NOTHING` -/
theorem roles_insertMembership {role : MemberRole} {u : Unit}
    (h : exec srv scope (.insertMembership orgId userId role) db = (.ok u, db₁)) (org user : ℕ) :
    db₁.roles org user =
      if (org = orgId ∧ user = userId) ∧ db.roles org user = [] then [role]
      else db.roles org user := by
  have hst := exec_ok h
  simp only [statement] at hst
  obtain ⟨_, -, hst⟩ := bind_ok hst
  split at hst
  · next hany =>
      cases hst
      refine (if_neg ?_).symm
      rintro ⟨⟨rfl, rfl⟩, hnil⟩
      rw [roles_eq_nil_iff.mp hnil] at hany
      cases hany
  · next hany =>
      obtain ⟨_, -, hst⟩ := bind_ok hst
      cases hst
      rw [Db.roles, List.filter_append, List.map_append, ← Db.roles]
      by_cases hkey : org = orgId ∧ user = userId
      · obtain ⟨rfl, rfl⟩ := hkey
        have hnil : db.roles org user = [] :=
          roles_eq_nil_iff.mpr (Bool.eq_false_of_not_eq_true hany)
        rw [if_pos ⟨⟨rfl, rfl⟩, hnil⟩, hnil]
        simp
      · rw [if_neg fun h => hkey h.1]
        have hother : ¬(orgId = org ∧ userId = user) := fun h => hkey ⟨h.1.symm, h.2.symm⟩
        simp [hother]

theorem memberships_statement {q : Request} {r : Response q}
    (hq : ∀ orgId userId role, q ≠ .insertMembership orgId userId role)
    (h : statement srv scope db q = .ok (r, db₁)) : db₁.memberships = db.memberships := by
  cases q with
  | insertMembership orgId userId role => exact absurd rfl (hq orgId userId role)
  | _ =>
    simp only [statement] at h
    repeat obtain ⟨_, -, h⟩ := bind_ok h
    cases h
    rfl

theorem keepsRoles_exec {q : Request} {r : Response q} (h : exec srv scope q db = (.ok r, db₁)) :
    KeepsRoles db db₁ := by
  by_cases hq : ∀ orgId userId role, q ≠ .insertMembership orgId userId role
  · exact fun orgId userId _ => roles_congr (memberships_statement hq (exec_ok h)) orgId userId
  · push Not at hq
    obtain ⟨orgId, userId, role, rfl⟩ := hq
    intro org user hne
    rw [roles_insertMembership h org user, if_neg fun hnil => hne hnil.2]

end Roles

/-! ## What no service does -/

/-- Whatever the service returns or raises, no one's role has changed. -/
def Service.KeepsRoles {α : Type} (m : Service α) : Prop := ∀ db, Tenant.KeepsRoles db (m db).2

section Services

variable {lib : Libraries} {srv : Server} {draw : Drawn} {scope : Scope ℕ} {α β : Type}

theorem guarantees_keepsRoles (body : Tx α) (db : Db) :
    Guarantees srv scope body db fun _ db₁ => KeepsRoles db db₁ := by
  induction body generalizing db with
  | pure a => exact keepsRoles_refl
  | raise e => exact guarantees_raise
  | call q next ih =>
      refine ⟨trivial, fun r db₁ h => ?_⟩
      exact Program.wp_mono (fun _ _ hkept => keepsRoles_trans (keepsRoles_exec h) hkept)
        (ih r db₁)

theorem keepsRoles_session (body : Tx α) : (session srv scope body).KeepsRoles := fun db => by
  obtain ⟨e, hs⟩ | ⟨a, db₁, hs, hkept⟩ := session_cases (guarantees_keepsRoles body db)
  · rw [hs]
    exact keepsRoles_refl
  · rw [hs]
    exact hkept

theorem keepsRoles_pure (a : α) : (Service.pure a).KeepsRoles := fun _ => keepsRoles_refl

theorem keepsRoles_raise (e : ServiceError) : (Service.raise e : Service α).KeepsRoles :=
  fun _ => keepsRoles_refl

theorem keepsRoles_ofExcept (x : Except ServiceError α) : (Service.ofExcept x).KeepsRoles :=
  fun db => (ofExcept_tables x db).symm ▸ keepsRoles_refl

theorem keepsRoles_bind {m : Service β} {f : β → Service α} (hm : m.KeepsRoles)
    (hf : ∀ b, (f b).KeepsRoles) : (m.bind f).KeepsRoles := fun db => by
  have hdb := hm db
  unfold Service.bind
  match h : m db with
  | (.ok b, db₁) =>
      rw [h] at hdb
      exact keepsRoles_trans hdb (hf b db₁)
  | (.error e, db₁) =>
      rw [h] at hdb
      exact hdb

theorem keepsRoles_orOnIntegrityError {m : Service α} {default : α} (hm : m.KeepsRoles) :
    (m.orOnIntegrityError default).KeepsRoles := fun db => by
  have hdb := hm db
  unfold Service.orOnIntegrityError
  split
  · next db₁ h =>
      rw [h] at hdb
      exact hdb
  · exact hdb

theorem keepsRoles_acceptOpenInvite (invite : Invite) (email password : PyStr) :
    (acceptOpenInvite lib srv draw invite email password).KeepsRoles := by
  refine keepsRoles_bind (keepsRoles_session _) fun found => ?_
  cases found with
  | some existing =>
      refine keepsRoles_bind (keepsRoles_ofExcept _) fun verified => ?_
      cases verified with
      | true => exact keepsRoles_session _
      | false => exact keepsRoles_pure none
  | none =>
      dsimp only
      split
      · exact keepsRoles_raise _
      · exact keepsRoles_bind (keepsRoles_ofExcept _) fun _ => keepsRoles_session _

theorem keepsRoles_acceptInvite (token email password : PyStr) :
    (acceptInvite lib srv draw token email password).KeepsRoles := by
  refine keepsRoles_bind (keepsRoles_ofExcept _) fun tokenHash => ?_
  refine keepsRoles_bind (keepsRoles_session _) fun found => ?_
  cases found with
  | none => exact keepsRoles_pure none
  | some invite =>
      dsimp only
      split
      · exact keepsRoles_pure none
      · split
        · exact keepsRoles_pure none
        · exact keepsRoles_acceptOpenInvite invite email password

theorem keepsRoles_run (call : Call) : (call.run lib srv draw).KeepsRoles := by
  cases call with
  | createProject => exact keepsRoles_orOnIntegrityError (keepsRoles_session _)
  | createChannel =>
      exact keepsRoles_bind (keepsRoles_ofExcept _) fun _ => keepsRoles_session _
  | setIssueStatus orgId projectId issueId action actor =>
      dsimp only [Call.run, setIssueStatus]
      split
      · exact keepsRoles_raise _
      · exact keepsRoles_session _
  | assignIssue =>
      refine keepsRoles_bind (keepsRoles_session _) fun assigned => ?_
      cases assigned with
      | true => exact keepsRoles_session _
      | false => exact keepsRoles_pure none
  | createInvite orgId email role actor =>
      dsimp only [Call.run, createInvite]
      split
      · exact keepsRoles_raise _
      · exact keepsRoles_bind (keepsRoles_ofExcept _) fun _ => keepsRoles_session _
  | acceptInvite token email password => exact keepsRoles_acceptInvite token email password
  | _ => exact keepsRoles_session _

theorem runCalls_roles (calls : List (Drawn × Call)) (db : Db) :
    KeepsRoles db (runCalls lib srv calls db) := by
  induction calls generalizing db with
  | nil => exact keepsRoles_refl
  | cons c calls ih => exact keepsRoles_trans (keepsRoles_run c.2 db) (ih _)

end Services

/-! ## What an acceptance reads -/

section Reads

variable {lib : Libraries} {srv : Server} {draw : Drawn} {scope : Scope ℕ} {db db₁ : Db}
  {α β : Type}

/-- The invites of the token. -/
def Db.invitesOf (lib : Libraries) (token : PyStr) (db : Db) : List Invite :=
  db.invites.filter fun invite => hashInviteToken lib token = .ok invite.tokenHash.val

/-- The user with the email, or the one the acceptance creates. -/
def Db.acceptingUser (draw : Drawn) (email : PyStr) (db : Db) : ℕ :=
  match db.users.find? fun u => u.email.val = email with
  | some existing => existing.id
  | none => draw.id

theorem session_ok {body : Tx α} {a : α} (post : α → Db → Prop)
    (hbody : Guarantees srv scope body db post) (h : session srv scope body db = (.ok a, db₁)) :
    post a db₁ := by
  obtain ⟨e, hs⟩ | ⟨a', db', hs, hpost⟩ := session_cases hbody
  · cases hs.symm.trans h
  · cases hs.symm.trans h
    exact hpost

theorem Service.bind_ok {m : Service β} {f : β → Service α} {a : α} {db₂ : Db}
    (h : m.bind f db = (.ok a, db₂)) : ∃ b db₁, m db = (.ok b, db₁) ∧ f b db₁ = (.ok a, db₂) := by
  unfold Service.bind at h
  match hm : m db with
  | (.ok b, db₁) =>
      rw [hm] at h
      exact ⟨b, db₁, rfl, h⟩
  | (.error e, db₁) =>
      rw [hm] at h
      cases h

theorem Service.ofExcept_bind_ok {x : Except ServiceError β} {f : β → Service α} {a : α}
    (h : (Service.ofExcept x).bind f db = (.ok a, db₁)) :
    ∃ b, x = .ok b ∧ f b db = (.ok a, db₁) := by
  cases x with
  | error e => cases h
  | ok b => exact ⟨b, rfl, h⟩

theorem guarantees_all {rows : List β} :
    Guarantees srv scope (oneOrNone rows) db fun a db₁ => db₁ = db ∧ a.toList = rows :=
  guarantees_oneOrNone (fun hnil => ⟨rfl, hnil.symm⟩) fun _ hrow => ⟨rfl, hrow.symm⟩

/-- Looking a text up finds the rows that have it. -/
theorem filter_bindText {key : α → Text} {s : PyStr} {t : Text} (ht : bindText s = .ok t)
    (rows : List α) :
    (rows.filter fun row => key row = t) = rows.filter fun row => (key row).val = s := by
  refine List.filter_congr fun row _ => decide_eq_decide.mpr ?_
  rw [← bindText_val ht]
  exact Subtype.ext_iff

theorem inviteByToken_ok {tokenHash : PyStr} {found : Option Invite}
    (h : inviteByToken srv tokenHash db = (.ok found, db₁)) :
    (db₁ = db ∧
        found.toList = db.invites.filter fun invite => invite.tokenHash.val = tokenHash) ∧
      tokenHash.storable = true := by
  refine session_ok (fun found db₁ => (db₁ = db ∧ found.toList = db.invites.filter _) ∧ _)
    (guarantees_execute fun rows db₂ hex => ?_) h
  have hst := exec_ok hex
  simp only [statement] at hst
  obtain ⟨tokenHash', hbind, hst⟩ := bind_ok hst
  cases hst
  rw [← filter_bindText hbind]
  exact Program.wp_mono (fun _ _ hread => ⟨hread, bindText_val hbind ▸ tokenHash'.2⟩) guarantees_all

theorem loadUserByEmail_ok {email : PyStr} {found : Option User}
    (h : loadUserByEmail srv email db = (.ok found, db₁)) :
    db₁ = db ∧ found.toList = db.users.filter fun u => u.email.val = email := by
  refine session_ok (fun found db₁ => db₁ = db ∧ found.toList = db.users.filter _)
    (guarantees_execute fun rows db₂ hex => ?_) h
  have hst := exec_ok hex
  simp only [statement] at hst
  obtain ⟨email', hbind, hst⟩ := bind_ok hst
  cases hst
  rw [← filter_bindText hbind]
  exact guarantees_all

theorem acceptingUser_eq {email : PyStr} {found : Option User}
    (h : found.toList = db.users.filter fun u => u.email.val = email) :
    db.acceptingUser draw email = (found.map User.id).getD draw.id := by
  rw [Db.acceptingUser, ← List.head?_filter, ← h]
  cases found <;> rfl

end Reads

/-! ## What an acceptance grants -/

section Grants

variable {lib : Libraries} {srv : Server} {draw : Drawn} {db db₁ : Db} {invite : Invite}
  {email password : PyStr} {userId : ℕ} {acc : Accepted}

/-- The parameters of the row an acceptance leaves in the log. -/
def acceptedEntry (draw : Drawn) (invite : Invite) (email : PyStr) (userId : ℕ) : AuditEntry :=
  ⟨draw.auditId, invite.orgId, some userId, "invite.accepted", "invite", some (uuidStr invite.id),
    [(py "email", .str email), (py "role", .str invite.role.str)]⟩

/-- What a grant leaves behind. -/
structure Grants (draw : Drawn) (invite : Invite) (email : PyStr) (userId : ℕ) (acc : Accepted)
    (db db₁ : Db) : Prop where
  answer : acc = ⟨userId, email, invite.orgId, invite.role⟩
  roles : ∀ org user, db₁.roles org user =
    if (org = invite.orgId ∧ user = userId) ∧ db.roles org user = [] then [invite.role]
    else db.roles org user
  logged : ∃ row : AuditRow, db₁.auditLog = db.auditLog ++ [row] ∧
    row.Holds (acceptedEntry draw invite email userId)

theorem insertNewUser_tables {org : ℕ} {passwordHash : Option PyStr} :
    Guarantees srv (.tenant org) (insertNewUser userId email passwordHash) db fun _ db₁ =>
      db₁.memberships = db.memberships ∧ db₁.auditLog = db.auditLog := by
  cases passwordHash with
  | none => exact guarantees_pure ⟨rfl, rfl⟩
  | some passwordHash =>
      refine guarantees_execute fun _ db₁ h => ?_
      have hchange : Change True org db db₁ := exec_insertUser h
      exact ⟨memberships_statement (fun _ _ _ heq => by cases heq) (exec_ok h), hchange.auditLog⟩

theorem grant_ok {passwordHash : Option PyStr}
    (h : grant lib srv draw invite email userId passwordHash db = (.ok (some acc), db₁)) :
    Grants draw invite email userId acc db db₁ := by
  refine session_ok (fun a db₁ => ∀ acc, a = some acc → Grants draw invite email userId acc db db₁)
    (guarantees_bind ?_) h acc rfl
  refine Program.wp_mono (fun _ db₂ ⟨hmember, hlog⟩ => ?_) insertNewUser_tables
  refine guarantees_execute fun _ db₃ hinsert => guarantees_execute fun _ db₄ haccept => ?_
  refine guarantees_bind (guarantees_raiseError fun _ _ => ⟨trivial, fun _ db₅ haudit => ?_⟩)
  refine guarantees_pure fun acc hacc => ?_
  cases hacc
  obtain ⟨row, rfl, hrow⟩ := exec_insertAudit_row haudit
  have hroles : db₄.memberships = db₃.memberships :=
    memberships_statement (fun _ _ _ heq => by cases heq) (exec_ok haccept)
  have hlog₄ : db₄.auditLog = db.auditLog :=
    (exec_acceptInvite haccept).auditLog.trans ((exec_insertMembership hinsert).auditLog.trans hlog)
  refine ⟨rfl, fun org user => ?_, row, by rw [hlog₄], hrow⟩
  rw [← roles_congr hmember org user, ← roles_insertMembership hinsert org user]
  exact roles_congr hroles org user

theorem acceptOpenInvite_ok
    (h : acceptOpenInvite lib srv draw invite email password db = (.ok (some acc), db₁)) :
    Grants draw invite email (db.acceptingUser draw email) acc db db₁ := by
  obtain ⟨found, db₂, hfound, h⟩ := Service.bind_ok h
  obtain ⟨rfl, hrows⟩ := loadUserByEmail_ok hfound
  rw [acceptingUser_eq hrows]
  cases found with
  | some existing =>
      obtain ⟨verified, -, h⟩ := Service.ofExcept_bind_ok h
      cases verified with
      | true => exact grant_ok h
      | false => cases h
  | none =>
      dsimp only at h
      cases hpolicy : validatePassword lib password with
      | some message =>
          rw [hpolicy] at h
          cases h
      | none =>
          rw [hpolicy] at h
          obtain ⟨passwordHash, -, h⟩ := Service.ofExcept_bind_ok h
          exact grant_ok h

theorem acceptInvite_ok {token : PyStr}
    (h : acceptInvite lib srv draw token email password db = (.ok (some acc), db₁)) :
    ∃ invite, db.invitesOf lib token = [invite] ∧
      Grants draw invite email (db.acceptingUser draw email) acc db db₁ := by
  obtain ⟨tokenHash, hhash, h⟩ := Service.ofExcept_bind_ok h
  obtain ⟨found, db₂, hfound, h⟩ := Service.bind_ok h
  obtain ⟨⟨rfl, hrows⟩, -⟩ := inviteByToken_ok hfound
  cases found with
  | none => cases h
  | some invite =>
      have hinvite : db₂.invitesOf lib token = [invite] := by
        rw [← Option.toList_some, hrows]
        refine List.filter_congr fun invite _ => decide_eq_decide.mpr ?_
        rw [hhash, Except.ok.injEq]
        exact eq_comm
      refine ⟨invite, hinvite, ?_⟩
      dsimp only at h
      split at h
      · cases h
      · split at h
        · cases h
        · exact acceptOpenInvite_ok h

/-- The role of the invite is the one the user has afterwards, the one in the answer and the one in
the new row of the log. -/
structure GrantsReported (invite : Invite) (acc : Accepted) (db db₁ : Db) : Prop where
  granted : db₁.roles invite.orgId acc.userId = [invite.role]
  returned : acc.role = invite.role
  recorded : ∃ row : AuditRow, db₁.auditLog = db.auditLog ++ [row] ∧
    row.action = "invite.accepted" ∧ row.data.get "role" = .str invite.role.str

theorem acceptance_grants_iff (token : PyStr)
    (h : acceptInvite lib srv draw token email password db = (.ok (some acc), db₁)) :
    ∃ invite, db.invitesOf lib token = [invite] ∧ acc.userId = db.acceptingUser draw email ∧
      (GrantsReported invite acc db db₁ ↔
        db.roles invite.orgId (db.acceptingUser draw email) = [] ∨
          db.roles invite.orgId (db.acceptingUser draw email) = [invite.role]) := by
  obtain ⟨invite, hinvite, hgrants⟩ := acceptInvite_ok h
  have huser : acc.userId = db.acceptingUser draw email := by rw [hgrants.answer]
  have hroles := hgrants.roles invite.orgId (db.acceptingUser draw email)
  refine ⟨invite, hinvite, huser, fun hreported => ?_, fun hbefore => ⟨?_, ?_, ?_⟩⟩
  · have hgranted := hreported.granted
    rw [huser, hroles] at hgranted
    by_cases hnil : db.roles invite.orgId (db.acceptingUser draw email) = []
    · exact .inl hnil
    · rw [if_neg fun hkey => hnil hkey.2] at hgranted
      exact .inr hgranted
  · rw [huser, hroles]
    obtain hnil | hsame := hbefore
    · exact if_pos ⟨⟨rfl, rfl⟩, hnil⟩
    · rw [hsame]
      exact if_neg fun hkey => List.cons_ne_nil _ _ hkey.2
  · rw [hgrants.answer]
  · obtain ⟨row, hlog, hrow⟩ := hgrants.logged
    refine ⟨row, hlog, hrow.action, ?_⟩
    rw [hrow.data]
    rfl

def invitation (role : MemberRole) : Invite :=
  ⟨9, 1, ⟨py "m@x.io", rfl⟩, role, ⟨sampleRuntime.hexdigest [], by decide +kernel⟩, 100, none⟩

/-- A user with the memberships, and the invitation of that user. -/
def invitedUser (role : MemberRole) (memberships : List Membership) : Db :=
  { twoOrganisations with
    users := [⟨3, ⟨py "m@x.io", rfl⟩, ⟨py "hunter2hunter2", rfl⟩⟩]
    memberships := memberships
    invites := [invitation role] }

def acceptAs (db : Db) : Except ServiceError (Option Accepted) × Db :=
  acceptInvite sampleLibraries sampleServer ⟨7, [], 8, 0⟩ (py "t") (py "m@x.io")
    (py "hunter2hunter2") db

theorem eq_of_fst {α β : Type} {x : α × β} {a : α} (h : x.1 = a) : x = (a, x.2) := Prod.ext h rfl

theorem newMember_grants_iff :
    let db := invitedUser .admin []
    let acc : Accepted := ⟨3, py "m@x.io", 1, .admin⟩
    acceptAs db = (.ok (some acc), (acceptAs db).2) ∧
      ∃ invite, db.invitesOf sampleLibraries (py "t") = [invite] ∧
        acc.userId = db.acceptingUser ⟨7, [], 8, 0⟩ (py "m@x.io") ∧
        (GrantsReported invite acc db (acceptAs db).2 ↔
          db.roles invite.orgId (db.acceptingUser ⟨7, [], 8, 0⟩ (py "m@x.io")) = [] ∨
            db.roles invite.orgId (db.acceptingUser ⟨7, [], 8, 0⟩ (py "m@x.io")) =
              [invite.role]) := by
  have hok : (acceptAs (invitedUser .admin [])).1 = .ok (some ⟨3, py "m@x.io", 1, .admin⟩) := by
    decide +kernel
  exact ⟨eq_of_fst hok, acceptance_grants_iff (py "t") (eq_of_fst hok)⟩

/-- A member who accepts an invite as an admin stays a member. -/
theorem member_stays_member :
    let db := invitedUser .admin [⟨1, 3, .member⟩]
    let acc : Accepted := ⟨3, py "m@x.io", 1, .admin⟩
    acceptAs db = (.ok (some acc), (acceptAs db).2) ∧
      db.invitesOf sampleLibraries (py "t") = [invitation .admin] ∧
      (acceptAs db).2.roles 1 3 = [.member] ∧
      (acceptAs db).2.auditLog.map (fun row => stringItem (row.data.get "role")) =
        [some (py "admin")] ∧
      ¬GrantsReported (invitation .admin) acc db (acceptAs db).2 := by
  have hok : (acceptAs (invitedUser .admin [⟨1, 3, .member⟩])).1 =
      .ok (some ⟨3, py "m@x.io", 1, .admin⟩) := by decide +kernel
  have hmember : (acceptAs (invitedUser .admin [⟨1, 3, .member⟩])).2.roles 1 3 = [.member] := by
    decide +kernel
  have hhash : hashInviteToken sampleLibraries (py "t") =
      .ok (invitation .admin).tokenHash.val := by decide +kernel
  refine ⟨eq_of_fst hok, List.filter_cons_of_pos (decide_eq_true hhash), hmember, ?_, fun h => ?_⟩
  · decide +kernel
  · cases hmember.symm.trans h.granted

end Grants

end Crashlens.Tenant
