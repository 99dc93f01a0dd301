import Crashlens.TenantDatabase

/-!
# What a statement changes

Every statement of a tenant session but the audit row itself is a `Change` of its organisation: the
rows of the other organisations stay (`Within`) and so does the audit log.

A deletion also removes the rows that refer to what it deletes, and PostgreSQL does not ask whether
they belong to the same organisation. `Db.Consistent` says that they do; a service that inserts such
a row looks the other row up under the policy first. It is what the two deletions with a cascade
need to stay within the organisation, and every statement keeps it.
-/

namespace Crashlens.Tenant

open Transactional RowSecurity

structure Db.Consistent (db : Db) : Prop where
  projectIds : (db.projects.map Project.id).Nodup
  issueIds : (db.issues.map fun i => i.id).Nodup
  dsnKeys : Owned Project.id db.projects (fun k : DsnKey => some k.projectId) db.dsnKeys
  issues : Owned Project.id db.projects (fun i : IssueRow => some i.projectId) db.issues
  releases : Owned Project.id db.projects (fun r : ReleaseRow => some r.projectId) db.releases
  channels : Owned Project.id db.projects Channel.projectId db.channels
  comments : Owned (fun i : IssueRow => i.id) db.issues (fun c : Comment => some c.issueId)
    db.comments

/-- Users belong to no organisation; they are only added. -/
structure Within (org : ℕ) (db db' : Db) : Prop where
  orgs : db'.orgs = db.orgs
  users : db.users <+: db'.users
  memberships : elsewhere org db'.memberships = elsewhere org db.memberships
  invites : elsewhere org db'.invites = elsewhere org db.invites
  projects : elsewhere org db'.projects = elsewhere org db.projects
  dsnKeys : elsewhere org db'.dsnKeys = elsewhere org db.dsnKeys
  issues : elsewhere org db'.issues = elsewhere org db.issues
  releases : elsewhere org db'.releases = elsewhere org db.releases
  comments : elsewhere org db'.comments = elsewhere org db.comments
  channels : elsewhere org db'.channels = elsewhere org db.channels

/-- `P` is what the change needs to stay within the organisation. -/
structure Change (P : Prop) (org : ℕ) (db db' : Db) : Prop where
  auditLog : db'.auditLog = db.auditLog
  within : P → Within org db db'
  consistent : db.Consistent → db'.Consistent

section Changes

variable {P : Prop} {org : ℕ} {db db₁ db₂ : Db}

theorem Within.refl : Within org db db :=
  ⟨rfl, List.prefix_rfl, rfl, rfl, rfl, rfl, rfl, rfl, rfl, rfl⟩

theorem Within.trans (h₁ : Within org db db₁) (h₂ : Within org db₁ db₂) : Within org db db₂ where
  orgs := h₂.orgs.trans h₁.orgs
  users := h₁.users.trans h₂.users
  memberships := h₂.memberships.trans h₁.memberships
  invites := h₂.invites.trans h₁.invites
  projects := h₂.projects.trans h₁.projects
  dsnKeys := h₂.dsnKeys.trans h₁.dsnKeys
  issues := h₂.issues.trans h₁.issues
  releases := h₂.releases.trans h₁.releases
  comments := h₂.comments.trans h₁.comments
  channels := h₂.channels.trans h₁.channels

theorem Change.refl : Change P org db db := ⟨rfl, fun _ => .refl, id⟩

theorem Change.trans (h₁ : Change P org db db₁) (h₂ : Change P org db₁ db₂) :
    Change P org db db₂ :=
  ⟨h₂.auditLog.trans h₁.auditLog, fun h => (h₁.within h).trans (h₂.within h),
    fun h => h₂.consistent (h₁.consistent h)⟩

end Changes

section Tables

variable {org : ℕ} {db : Db}

theorem nodup_map_append {α : Type} {key : α → ℕ} {rows : List α} {row : α}
    (h : (rows.map key).Nodup) (hnew : key row ∉ rows.map key) :
    ((rows ++ [row]).map key).Nodup := by
  rw [List.map_append, List.map_singleton, ← List.concat_eq_append]
  exact h.concat hnew

theorem nodup_map_delete {α : Type} [TenantRow ℕ α] {key : α → ℕ} {rows : List α} {s : Scope ℕ}
    {p : α → Bool} (h : (rows.map key).Nodup) : ((delete s p rows).map key).Nodup :=
  h.sublist (List.filter_sublist.map key)

theorem nodup_map_cascade {α : Type} {key : α → ℕ} {rows : List α} {gone : ℕ → Bool}
    {fk : α → Option ℕ} (h : (rows.map key).Nodup) : ((cascade gone fk rows).map key).Nodup :=
  h.sublist (List.filter_sublist.map key)

/-- The project is the organisation's own. -/
def Db.OwnsProject (db : Db) (org projectId : ℕ) : Prop :=
  ∃ p ∈ db.projects, p.id = projectId ∧ p.orgId = org

theorem change_insertProject {row : Project} (horg : row.orgId = org)
    (hnew : db.hasProject row.id = false) :
    Change True org db { db with projects := db.projects ++ [row] } where
  auditLog := rfl
  within _ := { Within.refl with projects := elsewhere_append horg }
  consistent h := by
    refine { h with
      projectIds := nodup_map_append h.projectIds fun hmem => ?_
      dsnKeys := h.dsnKeys.append_parent row
      issues := h.issues.append_parent row
      releases := h.releases.append_parent row
      channels := h.channels.append_parent row }
    obtain ⟨p, hp, hid⟩ := List.mem_map.mp hmem
    have hsome : db.hasProject row.id = true := List.any_eq_true.mpr ⟨p, hp, decide_eq_true hid⟩
    rw [hnew] at hsome
    cases hsome

theorem change_updateProjects {p : Project → Bool} {f : Project → Project}
    (hid : ∀ r, (f r).id = r.id) (horg : ∀ r, (f r).orgId = r.orgId) :
    Change True org db { db with projects := update (.tenant org) p f db.projects } where
  auditLog := rfl
  within _ := { Within.refl with projects := elsewhere_update horg }
  consistent h := { h with
    projectIds := (map_update hid).symm ▸ h.projectIds
    dsnKeys := h.dsnKeys.update_parents hid horg
    issues := h.issues.update_parents hid horg
    releases := h.releases.update_parents hid horg
    channels := h.channels.update_parents hid horg }

theorem change_deleteProjects {p : Project → Bool} :
    Change db.Consistent org db (db.deleteProjects (.tenant org) p) := by
  have hgone : GoneWithin org Project.id db.projects
      (deletedKeys (.tenant org) p Project.id db.projects) := goneWithin_deletedKeys
  have hkept : ∀ r ∈ db.projects, deletedKeys (.tenant org) p Project.id db.projects r.id = false →
      r ∈ delete (.tenant org) p db.projects := fun r hr => mem_delete_of_kept hr
  refine ⟨rfl, fun h => { Within.refl with
    projects := elsewhere_delete
    dsnKeys := elsewhere_cascade h.dsnKeys h.projectIds hgone
    issues := elsewhere_cascade h.issues h.projectIds hgone
    releases := elsewhere_cascade h.releases h.projectIds hgone
    channels := elsewhere_cascade h.channels h.projectIds hgone
    comments := elsewhere_cascade h.comments h.issueIds (hgone.cascaded h.issues h.projectIds) },
    fun h =>
      { projectIds := nodup_map_delete h.projectIds
        issueIds := nodup_map_cascade h.issueIds
        dsnKeys := h.dsnKeys.cascade hkept
        issues := h.issues.cascade hkept
        releases := h.releases.cascade hkept
        channels := h.channels.cascade hkept
        comments := h.comments.cascade fun _ hi => mem_cascade_of_kept hi }⟩

theorem change_insertDsnKey {row : DsnKey} (horg : row.orgId = org)
    (hproject : db.OwnsProject org row.projectId) :
    Change True org db { db with dsnKeys := db.dsnKeys ++ [row] } where
  auditLog := rfl
  within _ := { Within.refl with dsnKeys := elsewhere_append horg }
  consistent h := { h with
    dsnKeys := h.dsnKeys.append_child fun k hk => by
      obtain ⟨p, hp, hid, hown⟩ := hproject
      exact ⟨p, hp, hid.trans (Option.mem_some_iff.mp hk), hown.trans horg.symm⟩ }

theorem change_updateDsnKeys {p : DsnKey → Bool} {f : DsnKey → DsnKey}
    (hproject : ∀ r, (f r).projectId = r.projectId) (horg : ∀ r, (f r).orgId = r.orgId) :
    Change True org db { db with dsnKeys := update (.tenant org) p f db.dsnKeys } where
  auditLog := rfl
  within _ := { Within.refl with dsnKeys := elsewhere_update horg }
  consistent h := { h with
    dsnKeys := h.dsnKeys.update_children (fun r => congrArg some (hproject r)) horg }

theorem change_insertChannel {row : Channel} (horg : row.orgId = org)
    (hproject : ∀ projectId ∈ row.projectId, db.OwnsProject org projectId) :
    Change True org db { db with channels := db.channels ++ [row] } where
  auditLog := rfl
  within _ := { Within.refl with channels := elsewhere_append horg }
  consistent h := { h with
    channels := h.channels.append_child fun k hk => by
      obtain ⟨p, hp, hid, hown⟩ := hproject k hk
      exact ⟨p, hp, hid, hown.trans horg.symm⟩ }

theorem change_updateChannels {p : Channel → Bool} {f : Channel → Channel}
    (hproject : ∀ r, (f r).projectId = r.projectId) (horg : ∀ r, (f r).orgId = r.orgId) :
    Change True org db { db with channels := update (.tenant org) p f db.channels } where
  auditLog := rfl
  within _ := { Within.refl with channels := elsewhere_update horg }
  consistent h := { h with channels := h.channels.update_children hproject horg }

theorem change_deleteChannels {p : Channel → Bool} :
    Change True org db { db with channels := delete (.tenant org) p db.channels } where
  auditLog := rfl
  within _ := { Within.refl with channels := elsewhere_delete }
  consistent h := { h with channels := h.channels.delete_children }

theorem change_updateIssues {p : IssueRow → Bool} {f : IssueRow → IssueRow}
    (hid : ∀ r, (f r).id = r.id) (hproject : ∀ r, (f r).projectId = r.projectId)
    (horg : ∀ r, (f r).orgId = r.orgId) :
    Change True org db { db with issues := update (.tenant org) p f db.issues } := by
  have hids : (update (.tenant org) p f db.issues).map (fun i => i.id) =
      db.issues.map fun i => i.id := map_update hid
  exact ⟨rfl, fun _ => { Within.refl with issues := elsewhere_update horg }, fun h => { h with
    issueIds := hids ▸ h.issueIds
    issues := h.issues.update_children (fun r => congrArg some (hproject r)) horg
    comments := h.comments.update_parents hid horg }⟩

theorem change_deleteIssues {p : IssueRow → Bool} :
    Change db.Consistent org db (db.deleteIssues (.tenant org) p) where
  auditLog := rfl
  within h := { Within.refl with
    issues := elsewhere_delete
    comments := elsewhere_cascade h.comments h.issueIds goneWithin_deletedKeys }
  consistent h := { h with
    issueIds := nodup_map_delete h.issueIds
    issues := h.issues.delete_children
    comments := h.comments.cascade fun _ hi => mem_delete_of_kept hi }

theorem change_insertInvite {row : Invite} (horg : row.orgId = org) :
    Change True org db { db with invites := db.invites ++ [row] } where
  auditLog := rfl
  within _ := { Within.refl with invites := elsewhere_append horg }
  consistent h := { h with }

theorem change_updateInvites {p : Invite → Bool} {f : Invite → Invite}
    (horg : ∀ r, (f r).orgId = r.orgId) :
    Change True org db { db with invites := update (.tenant org) p f db.invites } where
  auditLog := rfl
  within _ := { Within.refl with invites := elsewhere_update horg }
  consistent h := { h with }

theorem change_insertUser {row : User} :
    Change True org db { db with users := db.users ++ [row] } where
  auditLog := rfl
  within _ := { Within.refl with users := List.prefix_append _ _ }
  consistent h := { h with }

theorem change_insertMembership {row : Membership} (horg : row.orgId = org) :
    Change True org db { db with memberships := db.memberships ++ [row] } where
  auditLog := rfl
  within _ := { Within.refl with memberships := elsewhere_append horg }
  consistent h := { h with }

end Tables

/-! ## Statements of a tenant session -/

section Statements

variable {srv : Server} {org : ℕ} {db db' : Db}

theorem require_ok {ok : Bool} {u : Unit} (h : require ok = .ok u) : ok = true := by
  unfold require at h
  split at h
  · assumption
  · cases h

theorem permit_ok {ok : Bool} {u : Unit} (h : permit ok = .ok u) : ok = true := by
  unfold permit at h
  split at h
  · assumption
  · cases h

theorem checkValue_ok {α : Type} {x : Option α} {a : α} (h : checkValue x = .ok a) :
    x = some a := by
  cases x with
  | none => cases h
  | some b => rw [Except.ok.inj h]

theorem bindText_val {s : PyStr} {t : Text} (h : bindText s = .ok t) : t.val = s := by
  unfold bindText Text.ofPyStr? at h
  split at h
  · next heq =>
      split at heq
      · cases heq
        cases h
        rfl
      · cases heq
  · cases h

theorem exec_selectProject {scope : Scope ℕ} {projectId : ℕ} {rows : List Project}
    (h : exec srv scope (.selectProject projectId) db = (.ok rows, db')) :
    db' = db ∧ rows = select scope (fun p => p.id = projectId) db.projects := by
  cases exec_ok h
  exact ⟨rfl, rfl⟩

theorem ownsProject_of_selected {projectId : ℕ} {row : Project}
    (h : row ∈ select (.tenant org) (fun p => p.id = projectId) db.projects) :
    db.OwnsProject org projectId := by
  obtain ⟨hrow, hadm, hid⟩ := mem_select.mp h
  exact ⟨row, hrow, of_decide_eq_true hid, admits_tenant.mp hadm⟩

theorem exec_insertProject {id orgId : ℕ} {name slug : PyStr} {platform : Option PyStr}
    {row : Project}
    (h : exec srv (.tenant org) (.insertProject id orgId name slug platform) db = (.ok row, db')) :
    Change True org db db' := by
  have hst := exec_ok h
  simp only [statement] at hst
  obtain ⟨name', -, hst⟩ := bind_ok hst
  obtain ⟨slug', -, hst⟩ := bind_ok hst
  obtain ⟨platform', -, hst⟩ := bind_ok hst
  obtain ⟨_, hpermit, hst⟩ := bind_ok hst
  obtain ⟨_, hid, hst⟩ := bind_ok hst
  obtain ⟨_, -, hst⟩ := bind_ok hst
  cases hst
  have hnew : db.hasProject id = false := by
    have := require_ok hid
    simpa using (Bool.and_eq_true_iff.mp this).2
  exact change_insertProject (admits_tenant.mp (permit_ok hpermit)) hnew

theorem exec_updateSampling {samplingRate : PyFloat} {projectId : ℕ} {rows : List Project}
    (h : exec srv (.tenant org) (.updateSampling samplingRate projectId) db = (.ok rows, db')) :
    (rows = [] → db' = db) ∧ Change True org db db' := by
  cases exec_ok h
  refine ⟨fun hrows => ?_, change_updateProjects (fun _ => rfl) fun _ => rfl⟩
  rw [update_of_select_nil (List.map_eq_nil_iff.mp hrows)]

theorem exec_deleteProject {projectId : ℕ} {names : List Text}
    (h : exec srv (.tenant org) (.deleteProject projectId) db = (.ok names, db')) :
    (names = [] → db' = db) ∧ Change db.Consistent org db db' := by
  cases exec_ok h
  refine ⟨fun hrows => ?_, change_deleteProjects⟩
  have hnil := List.map_eq_nil_iff.mp hrows
  simp only [Db.deleteProjects, deletedKeys_of_select_nil hnil, delete_of_select_nil hnil,
    cascade_none, cascadedKeys_none]

theorem exec_insertDsnKey {id orgId projectId : ℕ} {publicKey : PyStr} {row : DsnKey}
    (hproject : db.OwnsProject org projectId)
    (h : exec srv (.tenant org) (.insertDsnKey id orgId projectId publicKey) db =
      (.ok row, db')) : Change True org db db' := by
  have hst := exec_ok h
  simp only [statement] at hst
  obtain ⟨publicKey', -, hst⟩ := bind_ok hst
  obtain ⟨_, hpermit, hst⟩ := bind_ok hst
  obtain ⟨_, -, hst⟩ := bind_ok hst
  obtain ⟨_, -, hst⟩ := bind_ok hst
  cases hst
  exact change_insertDsnKey (admits_tenant.mp (permit_ok hpermit)) hproject

theorem exec_revokeDsnKey {now : Timestamp} {keyId projectId rowcount : ℕ}
    (h : exec srv (.tenant org) (.revokeDsnKey now keyId projectId) db = (.ok rowcount, db')) :
    (rowcount = 0 → db' = db) ∧ Change True org db db' := by
  cases exec_ok h
  refine ⟨fun hcount => ?_, change_updateDsnKeys (fun _ => rfl) fun _ => rfl⟩
  rw [update_of_select_nil (List.length_eq_zero_iff.mp hcount)]

theorem exec_selectChannel {channelId : ℕ} {rows : List Channel} {scope : Scope ℕ}
    (h : exec srv scope (.selectChannel channelId) db = (.ok rows, db')) : db' = db := by
  cases exec_ok h
  rfl

theorem exec_insertChannel {id orgId : ℕ} {projectId : Option ℕ} {type : PyStr} {config : Dict}
    {row : Channel} (hproject : ∀ p ∈ projectId, db.OwnsProject org p)
    (h : exec srv (.tenant org) (.insertChannel id orgId projectId type config) db =
      (.ok row, db')) : Change True org db db' := by
  have hst := exec_ok h
  simp only [statement] at hst
  obtain ⟨config', -, hst⟩ := bind_ok hst
  obtain ⟨_, hpermit, hst⟩ := bind_ok hst
  obtain ⟨type', -, hst⟩ := bind_ok hst
  obtain ⟨_, -, hst⟩ := bind_ok hst
  obtain ⟨_, -, hst⟩ := bind_ok hst
  cases hst
  exact change_insertChannel (admits_tenant.mp (permit_ok hpermit)) hproject

theorem exec_updateChannel {enabled : Option Bool} {config : Option Dict} {channelId : ℕ}
    {rows : List Channel}
    (h : exec srv (.tenant org) (.updateChannel enabled config channelId) db = (.ok rows, db')) :
    Change True org db db' := by
  have hst := exec_ok h
  simp only [statement] at hst
  obtain ⟨config', -, hst⟩ := bind_ok hst
  cases hst
  exact change_updateChannels (fun _ => rfl) fun _ => rfl

theorem exec_deleteChannel {channelId : ℕ} {types : List ChannelType}
    (h : exec srv (.tenant org) (.deleteChannel channelId) db = (.ok types, db')) :
    (types = [] → db' = db) ∧ Change True org db db' := by
  cases exec_ok h
  refine ⟨fun hrows => ?_, change_deleteChannels⟩
  rw [delete_of_select_nil (List.map_eq_nil_iff.mp hrows)]

theorem exec_selectIssue {issueId projectId : ℕ} {rows : List IssueRow} {scope : Scope ℕ}
    (h : exec srv scope (.selectIssue issueId projectId) db = (.ok rows, db')) : db' = db := by
  cases exec_ok h
  rfl

theorem setStatus_key (snap : Crashlens.Db) (action : StatusAction) (r : IssueRow) :
    (r.setStatus srv.pg snap action).id = r.id ∧
      (r.setStatus srv.pg snap action).projectId = r.projectId := by
  cases action <;> exact ⟨rfl, rfl⟩

theorem exec_updateStatus {action : StatusAction} {issueId projectId : ℕ} {rows : List IssueRow}
    (h : exec srv (.tenant org) (.updateStatus action issueId projectId) db = (.ok rows, db')) :
    (rows = [] → db' = db) ∧ Change True org db db' := by
  cases exec_ok h
  refine ⟨fun hrows => ?_, change_updateIssues (fun r => (setStatus_key _ action r).1)
    (fun r => (setStatus_key _ action r).2) fun _ => rfl⟩
  rw [update_of_select_nil (List.map_eq_nil_iff.mp hrows)]

theorem exec_selectMember {userId : ℕ} {rows : List Membership} {scope : Scope ℕ}
    (h : exec srv scope (.selectMember userId) db = (.ok rows, db')) : db' = db := by
  cases exec_ok h
  rfl

theorem exec_updateAssignee {assignee : Option ℕ} {issueId projectId : ℕ} {ids : List ℕ}
    (h : exec srv (.tenant org) (.updateAssignee assignee issueId projectId) db =
      (.ok ids, db')) : (ids = [] → db' = db) ∧ Change True org db db' := by
  have hst := exec_ok h
  simp only [statement] at hst
  obtain ⟨_, -, hst⟩ := bind_ok hst
  cases hst
  refine ⟨fun hrows => ?_, change_updateIssues (fun _ => rfl) (fun _ => rfl) fun _ => rfl⟩
  rw [update_of_select_nil (List.map_eq_nil_iff.mp hrows)]

theorem exec_deleteIssue {issueId projectId : ℕ} {titles : List Text}
    (h : exec srv (.tenant org) (.deleteIssue issueId projectId) db = (.ok titles, db')) :
    (titles = [] → db' = db) ∧ Change db.Consistent org db db' := by
  cases exec_ok h
  refine ⟨fun hrows => ?_, change_deleteIssues⟩
  have hnil := List.map_eq_nil_iff.mp hrows
  simp only [Db.deleteIssues, deletedKeys_of_select_nil hnil, delete_of_select_nil hnil,
    cascade_none]

theorem exec_insertInvite {id orgId : ℕ} {email role tokenHash : PyStr} {expiresAt : Timestamp}
    {u : Unit}
    (h : exec srv (.tenant org) (.insertInvite id orgId email role tokenHash expiresAt) db =
      (.ok u, db')) : Change True org db db' := by
  have hst := exec_ok h
  simp only [statement] at hst
  obtain ⟨email', -, hst⟩ := bind_ok hst
  obtain ⟨tokenHash', -, hst⟩ := bind_ok hst
  obtain ⟨_, hpermit, hst⟩ := bind_ok hst
  obtain ⟨role', -, hst⟩ := bind_ok hst
  obtain ⟨_, -, hst⟩ := bind_ok hst
  cases hst
  exact change_insertInvite (admits_tenant.mp (permit_ok hpermit))

theorem exec_selectInvite {tokenHash : PyStr} {rows : List Invite} {scope : Scope ℕ}
    (h : exec srv scope (.selectInvite tokenHash) db = (.ok rows, db')) :
    db' = db ∧ ∀ inv ∈ rows, inv ∈ db.invites ∧ inv.tokenHash.val = tokenHash := by
  have hst := exec_ok h
  simp only [statement] at hst
  obtain ⟨tokenHash', hbind, hst⟩ := bind_ok hst
  cases hst
  refine ⟨rfl, fun inv hinv => ?_⟩
  obtain ⟨hmem, -, heq⟩ := mem_select.mp hinv
  rw [of_decide_eq_true heq, bindText_val hbind]
  exact ⟨hmem, rfl⟩

theorem exec_selectUser {email : PyStr} {rows : List User} {scope : Scope ℕ}
    (h : exec srv scope (.selectUser email) db = (.ok rows, db')) :
    db' = db ∧ ∀ u ∈ rows, u ∈ db.users ∧ u.email.val = email := by
  have hst := exec_ok h
  simp only [statement] at hst
  obtain ⟨email', hbind, hst⟩ := bind_ok hst
  cases hst
  refine ⟨rfl, fun u hu => ?_⟩
  obtain ⟨hmem, heq⟩ := List.mem_filter.mp hu
  rw [of_decide_eq_true heq, bindText_val hbind]
  exact ⟨hmem, rfl⟩

theorem exec_insertUser {id : ℕ} {email passwordHash : PyStr} {scope : Scope ℕ} {u : Unit}
    (h : exec srv scope (.insertUser id email passwordHash) db = (.ok u, db')) :
    Change True org db db' := by
  have hst := exec_ok h
  simp only [statement] at hst
  obtain ⟨email', -, hst⟩ := bind_ok hst
  obtain ⟨passwordHash', -, hst⟩ := bind_ok hst
  obtain ⟨_, -, hst⟩ := bind_ok hst
  cases hst
  exact change_insertUser

theorem exec_insertMembership {orgId userId : ℕ} {role : MemberRole} {u : Unit}
    (h : exec srv (.tenant org) (.insertMembership orgId userId role) db = (.ok u, db')) :
    Change True org db db' := by
  have hst := exec_ok h
  simp only [statement] at hst
  obtain ⟨_, hpermit, hst⟩ := bind_ok hst
  split at hst
  · cases hst
    exact Change.refl
  · obtain ⟨_, -, hst⟩ := bind_ok hst
    cases hst
    exact change_insertMembership (admits_tenant.mp (permit_ok hpermit))

theorem exec_acceptInvite {now : Timestamp} {inviteId rowcount : ℕ}
    (h : exec srv (.tenant org) (.acceptInvite now inviteId) db = (.ok rowcount, db')) :
    Change True org db db' := by
  cases exec_ok h
  exact change_updateInvites fun _ => rfl

end Statements

end Crashlens.Tenant
