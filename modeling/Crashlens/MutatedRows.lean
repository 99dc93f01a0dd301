import Crashlens.AuditedServices
import Crashlens.TenantIsolation

/-!
# The rows of a mutation

`Call.Mutates` says of each call which row it is about and what becomes of the tables besides the
audit log: a row with the drawn id is new, or the row with the id of the call is changed or gone,
and all other rows are as they were. Each statement does to the tables what its call says of them.
-/

namespace Crashlens.Tenant

open Transactional RowSecurity

/-- What the audit log has to say about a mutation. -/
structure Trail where
  orgId : ℕ
  actorUserId : Option ℕ
  action : String
  targetType : String
  targetId : PyStr

/-- The organisation has such a row. -/
def Has {ρ : Type} [TenantRow ℕ ρ] (org : ℕ) (p : ρ → Bool) (rows : List ρ) : Prop :=
  ∃ row ∈ rows, p row = true ∧ TenantRow.tenant row = org

/-- The members once the user is one of the organisation's. -/
def joined (memberships : List Membership) (orgId userId : ℕ) (role : MemberRole) :
    List Membership :=
  if memberships.any fun m => m.orgId = orgId && m.userId = userId then memberships
  else memberships ++ [⟨orgId, userId, role⟩]

/-- What `accept_invite` writes for the user. -/
def Granted (draw : Drawn) (db : Db) (invite : Invite) (email : PyStr) (userId : ℕ) (tables : Db) :
    Prop :=
  ∃ users, (users = db.users ∨ ∃ u : User, u.id = userId ∧ u.email.val = email ∧
      users = db.users ++ [u]) ∧
    tables = { db with
      users := users
      memberships := joined db.memberships invite.orgId userId invite.role
      invites := update (.tenant invite.orgId)
        (fun inv => inv.id = invite.id && inv.acceptedAt.isNone) (Invite.accept draw.now)
        db.invites }

/-- What the call makes of the tables, next to its audit row. -/
def Call.Mutates (lib : Libraries) (srv : Server) (draw : Drawn) (db : Db) :
    Call → Trail → Db → Prop
  | .createProject orgId name _ _, _, tables =>
    ∃ row : Project, row.id = draw.id ∧ row.orgId = orgId ∧ row.name.val = name ∧
      tables = { db with projects := db.projects ++ [row] }
  | .updateProjectSampling orgId projectId samplingRate _, _, tables =>
    Has orgId (fun p => p.id = projectId) db.projects ∧
      tables = { db with
        projects := update (.tenant orgId) (fun p => p.id = projectId)
          (Project.setSamplingRate samplingRate) db.projects }
  | .deleteProject orgId projectId _, _, tables =>
    Has orgId (fun p => p.id = projectId) db.projects ∧
      tables = db.deleteProjects (.tenant orgId) fun p => p.id = projectId
  | .createDsnKey orgId projectId _, _, tables =>
    ∃ row : DsnKey, row.id = draw.id ∧ row.orgId = orgId ∧ row.projectId = projectId ∧
      row.publicKey.val = draw.token ∧ row.active = true ∧
      tables = { db with dsnKeys := db.dsnKeys ++ [row] }
  | .revokeDsnKey orgId projectId keyId _, _, tables =>
    Has orgId (fun k => k.id = keyId && k.projectId = projectId && k.active) db.dsnKeys ∧
      tables = { db with
        dsnKeys := update (.tenant orgId)
          (fun k => k.id = keyId && k.projectId = projectId && k.active)
          (DsnKey.revoke draw.now) db.dsnKeys }
  | .createChannel orgId channelType config projectId _, _, tables =>
    ∃ row : Channel, row.id = draw.id ∧ row.orgId = orgId ∧ row.projectId = projectId ∧
      ChannelType.ofStr? channelType = some row.type ∧
      validateChannelConfig lib channelType config = .ok row.config ∧
      tables = { db with channels := db.channels ++ [row] }
  | .updateChannel orgId channelId enabled config _, _, tables =>
    ∃ c ∈ db.channels, c.id = channelId ∧ c.orgId = orgId ∧
      ∃ replaced, replacedConfig lib c.type config = .ok replaced ∧
        tables = { db with
          channels := update (.tenant orgId) (fun c => c.id = channelId)
            (Channel.set enabled (replaced.map Prod.fst)) db.channels }
  | .deleteChannel orgId channelId _, _, tables =>
    Has orgId (fun c => c.id = channelId) db.channels ∧
      tables = { db with
        channels := delete (.tenant orgId) (fun c => c.id = channelId) db.channels }
  | .setIssueStatus orgId projectId issueId action _, _, tables =>
    ∃ a, actionOfStr? action = some a ∧
      Has orgId (fun i => i.id = issueId && i.projectId = projectId) db.issues ∧
      tables = { db with
        issues := update (.tenant orgId) (fun i => i.id = issueId && i.projectId = projectId)
          (IssueRow.setStatus srv.pg (db.issueView (.tenant orgId)) a) db.issues }
  | .assignIssue orgId projectId issueId userId _, _, tables =>
    Has orgId (fun i => i.id = issueId && i.projectId = projectId) db.issues ∧
      tables = { db with
        issues := update (.tenant orgId) (fun i => i.id = issueId && i.projectId = projectId)
          (IssueRow.assign userId) db.issues }
  | .deleteIssue orgId projectId issueId _, _, tables =>
    Has orgId (fun i => i.id = issueId && i.projectId = projectId) db.issues ∧
      tables = db.deleteIssues (.tenant orgId) fun i => i.id = issueId && i.projectId = projectId
  | .createInvite orgId email role _, _, tables =>
    ∃ row : Invite, row.id = draw.id ∧ row.orgId = orgId ∧ row.email.val = email ∧
      MemberRole.ofStr? role = some row.role ∧ row.acceptedAt = none ∧
      tables = { db with invites := db.invites ++ [row] }
  | .acceptInvite _ email _, t, tables =>
    ∃ invite ∈ db.invites, invite.acceptedAt = none ∧ t.orgId = invite.orgId ∧
      t.targetId = uuidStr invite.id ∧ ∃ userId, t.actorUserId = some userId ∧
        Granted draw db invite email userId tables

section Rows

variable {srv : Server} {db db₁ : Db} {org : ℕ}

theorem bindJson_val {d d' : Dict} (h : bindJson d = .ok d') : d' = d := by
  unfold bindJson at h
  split at h
  · exact (Except.ok.inj h).symm
  · cases h

theorem has_of_selected {ρ : Type} [TenantRow ℕ ρ] {p : ρ → Bool} {rows : List ρ}
    (h : select (.tenant org) p rows ≠ []) : Has org p rows := by
  obtain ⟨r, hr⟩ := List.exists_mem_of_ne_nil _ h
  obtain ⟨hmem, hadmits, hr⟩ := mem_select.mp hr
  exact ⟨r, hmem, hr, admits_tenant.mp hadmits⟩

theorem ne_nil_of_map {α β : Type} {f : α → β} {xs : List α} {b : β} (h : xs.map f = [b]) :
    xs ≠ [] := by
  rintro rfl
  cases h

theorem rows_insertProject {id orgId : ℕ} {name slug : PyStr} {platform : Option PyStr}
    {row : Project}
    (h : exec srv (.tenant org) (.insertProject id orgId name slug platform) db = (.ok row, db₁)) :
    row.id = id ∧ row.orgId = orgId ∧ row.name.val = name ∧
      db₁ = { db with projects := db.projects ++ [row] } := by
  have hst := exec_ok h
  simp only [statement] at hst
  obtain ⟨name', hname, hst⟩ := bind_ok hst
  obtain ⟨slug', -, hst⟩ := bind_ok hst
  obtain ⟨platform', -, hst⟩ := bind_ok hst
  obtain ⟨_, -, hst⟩ := bind_ok hst
  obtain ⟨_, -, hst⟩ := bind_ok hst
  obtain ⟨_, -, hst⟩ := bind_ok hst
  cases hst
  exact ⟨rfl, rfl, bindText_val hname, rfl⟩

theorem rows_updateSampling {samplingRate : PyFloat} {projectId : ℕ} {row : Project}
    (h : exec srv (.tenant org) (.updateSampling samplingRate projectId) db = (.ok [row], db₁)) :
    Has org (fun p => p.id = projectId) db.projects ∧
      db₁ = { db with
        projects := update (.tenant org) (fun p => p.id = projectId)
          (Project.setSamplingRate samplingRate) db.projects } := by
  have hst := exec_ok h
  obtain ⟨hrows, hdb⟩ := Prod.mk.inj (Except.ok.inj hst)
  exact ⟨has_of_selected (ne_nil_of_map hrows), hdb.symm⟩

theorem rows_deleteProject {projectId : ℕ} {name : Text}
    (h : exec srv (.tenant org) (.deleteProject projectId) db = (.ok [name], db₁)) :
    Has org (fun p => p.id = projectId) db.projects ∧
      db₁ = db.deleteProjects (.tenant org) fun p => p.id = projectId := by
  obtain ⟨hrows, hdb⟩ := Prod.mk.inj (Except.ok.inj (exec_ok h))
  exact ⟨has_of_selected (ne_nil_of_map hrows), hdb.symm⟩

theorem rows_insertDsnKey {id orgId projectId : ℕ} {publicKey : PyStr} {row : DsnKey}
    (h : exec srv (.tenant org) (.insertDsnKey id orgId projectId publicKey) db =
      (.ok row, db₁)) :
    row.id = id ∧ row.orgId = orgId ∧ row.projectId = projectId ∧ row.publicKey.val = publicKey ∧
      row.active = true ∧ db₁ = { db with dsnKeys := db.dsnKeys ++ [row] } := by
  have hst := exec_ok h
  simp only [statement] at hst
  obtain ⟨publicKey', hkey, hst⟩ := bind_ok hst
  obtain ⟨_, -, hst⟩ := bind_ok hst
  obtain ⟨_, -, hst⟩ := bind_ok hst
  obtain ⟨_, -, hst⟩ := bind_ok hst
  cases hst
  exact ⟨rfl, rfl, rfl, bindText_val hkey, rfl, rfl⟩

theorem rows_revokeDsnKey {now : Timestamp} {keyId projectId rowcount : ℕ}
    (hcount : rowcount ≠ 0)
    (h : exec srv (.tenant org) (.revokeDsnKey now keyId projectId) db = (.ok rowcount, db₁)) :
    Has org (fun k => k.id = keyId && k.projectId = projectId && k.active) db.dsnKeys ∧
      db₁ = { db with
        dsnKeys := update (.tenant org)
          (fun k => k.id = keyId && k.projectId = projectId && k.active)
          (DsnKey.revoke now) db.dsnKeys } := by
  obtain ⟨hrows, hdb⟩ := Prod.mk.inj (Except.ok.inj (exec_ok h))
  refine ⟨has_of_selected fun hnil => hcount ?_, hdb.symm⟩
  rw [← hrows, hnil, List.length_nil]

theorem rows_insertChannel {id orgId : ℕ} {projectId : Option ℕ} {type : PyStr} {config : Dict}
    {row : Channel}
    (h : exec srv (.tenant org) (.insertChannel id orgId projectId type config) db =
      (.ok row, db₁)) :
    row.id = id ∧ row.orgId = orgId ∧ row.projectId = projectId ∧
      ChannelType.ofStr? type = some row.type ∧ row.config = config ∧
      db₁ = { db with channels := db.channels ++ [row] } := by
  have hst := exec_ok h
  simp only [statement] at hst
  obtain ⟨config', hconfig, hst⟩ := bind_ok hst
  obtain ⟨_, -, hst⟩ := bind_ok hst
  obtain ⟨type', htype, hst⟩ := bind_ok hst
  obtain ⟨_, -, hst⟩ := bind_ok hst
  obtain ⟨_, -, hst⟩ := bind_ok hst
  cases hst
  exact ⟨rfl, rfl, rfl, checkValue_ok htype, bindJson_val hconfig, rfl⟩

theorem rows_selectChannel {channelId : ℕ} {row : Channel}
    (h : exec srv (.tenant org) (.selectChannel channelId) db = (.ok [row], db₁)) :
    row ∈ db.channels ∧ row.id = channelId ∧ row.orgId = org := by
  obtain ⟨hrows, -⟩ := Prod.mk.inj (Except.ok.inj (exec_ok h))
  obtain ⟨hmem, hadmits, hid⟩ := mem_select.mp (hrows ▸ List.mem_singleton_self row)
  exact ⟨hmem, of_decide_eq_true hid, admits_tenant.mp hadmits⟩

theorem mapM_bindJson {config config' : Option Dict} (h : config.mapM bindJson = .ok config') :
    config' = config := by
  cases config with
  | none =>
      cases h
      rfl
  | some config =>
      obtain ⟨d, hd, heq⟩ := bind_ok h
      cases heq
      rw [bindJson_val hd]

theorem rows_updateChannel {enabled : Option Bool} {config : Option Dict} {channelId : ℕ}
    {rows : List Channel}
    (h : exec srv (.tenant org) (.updateChannel enabled config channelId) db = (.ok rows, db₁)) :
    db₁ = { db with
      channels := update (.tenant org) (fun c => c.id = channelId) (Channel.set enabled config)
        db.channels } := by
  have hst := exec_ok h
  simp only [statement] at hst
  obtain ⟨config', hconfig, hst⟩ := bind_ok hst
  cases hst
  rw [mapM_bindJson hconfig]

theorem rows_deleteChannel {channelId : ℕ} {type : ChannelType}
    (h : exec srv (.tenant org) (.deleteChannel channelId) db = (.ok [type], db₁)) :
    Has org (fun c => c.id = channelId) db.channels ∧
      db₁ = { db with
        channels := delete (.tenant org) (fun c => c.id = channelId) db.channels } := by
  obtain ⟨hrows, hdb⟩ := Prod.mk.inj (Except.ok.inj (exec_ok h))
  exact ⟨has_of_selected (ne_nil_of_map hrows), hdb.symm⟩

theorem rows_updateStatus {action : StatusAction} {issueId projectId : ℕ} {row : IssueRow}
    (h : exec srv (.tenant org) (.updateStatus action issueId projectId) db = (.ok [row], db₁)) :
    Has org (fun i => i.id = issueId && i.projectId = projectId) db.issues ∧
      db₁ = { db with
        issues := update (.tenant org) (fun i => i.id = issueId && i.projectId = projectId)
          (IssueRow.setStatus srv.pg (db.issueView (.tenant org)) action) db.issues } := by
  obtain ⟨hrows, hdb⟩ := Prod.mk.inj (Except.ok.inj (exec_ok h))
  exact ⟨has_of_selected (ne_nil_of_map hrows), hdb.symm⟩

theorem rows_updateAssignee {assignee : Option ℕ} {issueId projectId id : ℕ}
    (h : exec srv (.tenant org) (.updateAssignee assignee issueId projectId) db =
      (.ok [id], db₁)) :
    Has org (fun i => i.id = issueId && i.projectId = projectId) db.issues ∧
      db₁ = { db with
        issues := update (.tenant org) (fun i => i.id = issueId && i.projectId = projectId)
          (IssueRow.assign assignee) db.issues } := by
  have hst := exec_ok h
  simp only [statement] at hst
  obtain ⟨_, -, hst⟩ := bind_ok hst
  obtain ⟨hrows, hdb⟩ := Prod.mk.inj (Except.ok.inj hst)
  exact ⟨has_of_selected (ne_nil_of_map hrows), hdb.symm⟩

theorem rows_deleteIssue {issueId projectId : ℕ} {title : Text}
    (h : exec srv (.tenant org) (.deleteIssue issueId projectId) db = (.ok [title], db₁)) :
    Has org (fun i => i.id = issueId && i.projectId = projectId) db.issues ∧
      db₁ = db.deleteIssues (.tenant org) fun i => i.id = issueId && i.projectId = projectId := by
  obtain ⟨hrows, hdb⟩ := Prod.mk.inj (Except.ok.inj (exec_ok h))
  exact ⟨has_of_selected (ne_nil_of_map hrows), hdb.symm⟩

theorem rows_insertInvite {id orgId : ℕ} {email role tokenHash : PyStr} {expiresAt : Timestamp}
    {u : Unit}
    (h : exec srv (.tenant org) (.insertInvite id orgId email role tokenHash expiresAt) db =
      (.ok u, db₁)) :
    ∃ row : Invite, row.id = id ∧ row.orgId = orgId ∧ row.email.val = email ∧
      MemberRole.ofStr? role = some row.role ∧ row.acceptedAt = none ∧
      db₁ = { db with invites := db.invites ++ [row] } := by
  have hst := exec_ok h
  simp only [statement] at hst
  obtain ⟨email', hemail, hst⟩ := bind_ok hst
  obtain ⟨tokenHash', -, hst⟩ := bind_ok hst
  obtain ⟨_, -, hst⟩ := bind_ok hst
  obtain ⟨role', hrole, hst⟩ := bind_ok hst
  obtain ⟨_, -, hst⟩ := bind_ok hst
  cases hst
  exact ⟨_, rfl, rfl, bindText_val hemail, checkValue_ok hrole, rfl, rfl⟩

theorem rows_insertUser {id : ℕ} {email passwordHash : PyStr} {scope : Scope ℕ} {u : Unit}
    (h : exec srv scope (.insertUser id email passwordHash) db = (.ok u, db₁)) :
    ∃ row : User, row.id = id ∧ row.email.val = email ∧
      db₁ = { db with users := db.users ++ [row] } := by
  have hst := exec_ok h
  simp only [statement] at hst
  obtain ⟨email', hemail, hst⟩ := bind_ok hst
  obtain ⟨passwordHash', -, hst⟩ := bind_ok hst
  obtain ⟨_, -, hst⟩ := bind_ok hst
  cases hst
  exact ⟨_, rfl, bindText_val hemail, rfl⟩

theorem rows_insertMembership {orgId userId : ℕ} {role : MemberRole} {u : Unit}
    (h : exec srv (.tenant org) (.insertMembership orgId userId role) db = (.ok u, db₁)) :
    db₁ = { db with memberships := joined db.memberships orgId userId role } := by
  have hst := exec_ok h
  simp only [statement] at hst
  obtain ⟨_, -, hst⟩ := bind_ok hst
  unfold joined
  split_ifs at hst ⊢
  · cases hst
    rfl
  · obtain ⟨_, -, hst⟩ := bind_ok hst
    cases hst
    rfl

theorem rows_acceptInvite {now : Timestamp} {inviteId rowcount : ℕ}
    (h : exec srv (.tenant org) (.acceptInvite now inviteId) db = (.ok rowcount, db₁)) :
    db₁ = { db with
      invites := update (.tenant org) (fun inv => inv.id = inviteId && inv.acceptedAt.isNone)
        (Invite.accept now) db.invites } := by
  cases exec_ok h
  rfl

theorem granted_of_rows {draw : Drawn} {invite : Invite} {email : PyStr} {userId : ℕ}
    {db₂ db₃ : Db}
    (huser : db₁ = db ∨ ∃ row : User, row.id = userId ∧ row.email.val = email ∧
      db₁ = { db with users := db.users ++ [row] })
    (hmember : db₂ = { db₁ with
      memberships := joined db₁.memberships invite.orgId userId invite.role })
    (haccept : db₃ = { db₂ with
      invites := update (.tenant invite.orgId)
        (fun inv => inv.id = invite.id && inv.acceptedAt.isNone) (Invite.accept draw.now)
        db₂.invites }) : Granted draw db invite email userId db₃ := by
  subst haccept hmember
  obtain rfl | ⟨row, hid, hemail, rfl⟩ := huser
  · exact ⟨_, .inl rfl, rfl⟩
  · exact ⟨_, .inr ⟨row, hid, hemail, rfl⟩, rfl⟩

end Rows

end Crashlens.Tenant
