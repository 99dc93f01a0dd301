import Crashlens.AuditTrail
import Crashlens.Library.Coupling

/-!
# What an organisation sees of the tables

Two states of the tables look the same to an organisation when its own rows are the same, and the
accounts: users, memberships and invites, which organisations share. A statement that works in the
organisation answers alike in both and leaves them looking alike. What it inserts has a key that is
drawn, and unique keys are checked across organisations; so a drawn key must be unused in both.
-/

namespace Crashlens.Tenant

open Transactional RowSecurity

structure Accounts where
  orgs : List ℕ
  users : List User
  memberships : List Membership
  invites : List Invite

structure OwnRows where
  projects : List Project
  dsnKeys : List DsnKey
  issues : List IssueRow
  releases : List ReleaseRow
  comments : List Comment
  channels : List Channel
  auditLog : List AuditRow

namespace Db

def accounts (db : Db) : Accounts := ⟨db.orgs, db.users, db.memberships, db.invites⟩

def ownRows (db : Db) (org : ℕ) : OwnRows where
  projects := own org db.projects
  dsnKeys := own org db.dsnKeys
  issues := own org db.issues
  releases := own org db.releases
  comments := own org db.comments
  channels := own org db.channels
  auditLog := own org db.auditLog

end Db

/-- No row has a key that is drawn. -/
structure Unused (draw : Drawn) (db : Db) : Prop where
  project : draw.id ∉ db.projects.map Project.id
  dsnKey : draw.id ∉ db.dsnKeys.map DsnKey.id
  publicKey : draw.token ∉ db.dsnKeys.map fun k => k.publicKey.val
  channel : draw.id ∉ db.channels.map Channel.id

def Unlogged (draw : Drawn) (db : Db) : Prop := draw.auditId ∉ db.auditLog.map AuditRow.id

structure Distinct (d d' : Drawn) : Prop where
  id : d.id ≠ d'.id
  token : d.token ≠ d'.token
  auditId : d.auditId ≠ d'.auditId

/-- The accounts are these, and what is still to be drawn is unused. -/
structure Ready (rows audits : List Drawn) (acc : Accounts) (db : Db) : Prop where
  accounts : db.accounts = acc
  unused : ∀ d ∈ rows, Unused d db
  unlogged : ∀ d ∈ audits, Unlogged d db

/-- To the organisation the two states look the same. -/
structure Together (org : ℕ) (rows audits : List Drawn) (acc : Accounts) (db db' : Db) : Prop where
  left : Ready rows audits acc db
  right : Ready rows audits acc db'
  ownRows : db'.ownRows org = db.ownRows org

/-- Failures do not depend on what is stored. -/
def Server.Oblivious (srv : Server) : Prop :=
  ∀ scope q db db', srv.fault scope q db = srv.fault scope q db'

section Ready

variable {rows audits rows' audits' : List Drawn} {acc : Accounts} {db db₁ db' db₁' : Db} {org : ℕ}

theorem Ready.mono (h : Ready rows audits acc db) (hrows : rows' ⊆ rows)
    (haudits : audits' ⊆ audits) : Ready rows' audits' acc db :=
  ⟨h.accounts, fun d hd => h.unused d (hrows hd), fun d hd => h.unlogged d (haudits hd)⟩

theorem Together.mono (h : Together org rows audits acc db db') (hrows : rows' ⊆ rows)
    (haudits : audits' ⊆ audits) : Together org rows' audits' acc db db' :=
  ⟨h.left.mono hrows haudits, h.right.mono hrows haudits, h.ownRows⟩

/-- Nothing is inserted but into the audit log and the accounts. -/
structure NoNewKeys (db db₁ : Db) : Prop where
  projects : db₁.projects.map Project.id ⊆ db.projects.map Project.id
  dsnKeys : db₁.dsnKeys.map DsnKey.id ⊆ db.dsnKeys.map DsnKey.id
  publicKeys : (db₁.dsnKeys.map fun k => k.publicKey.val) ⊆ db.dsnKeys.map fun k => k.publicKey.val
  channels : db₁.channels.map Channel.id ⊆ db.channels.map Channel.id

theorem NoNewKeys.refl : NoNewKeys db db :=
  ⟨List.Subset.refl _, List.Subset.refl _, List.Subset.refl _, List.Subset.refl _⟩

theorem Unused.of_noNewKeys {d : Drawn} (h : Unused d db) (hkeys : NoNewKeys db db₁) :
    Unused d db₁ where
  project hmem := h.project (hkeys.projects hmem)
  dsnKey hmem := h.dsnKey (hkeys.dsnKeys hmem)
  publicKey hmem := h.publicKey (hkeys.publicKeys hmem)
  channel hmem := h.channel (hkeys.channels hmem)

theorem Ready.of_noNewKeys {acc₁ : Accounts} (h : Ready rows audits acc db)
    (hkeys : NoNewKeys db db₁) (haccounts : db₁.accounts = acc₁)
    (hlog : db₁.auditLog = db.auditLog) : Ready rows audits acc₁ db₁ :=
  ⟨haccounts, fun d hd => (h.unused d hd).of_noNewKeys hkeys,
    fun d hd => by
      rw [Unlogged, hlog]
      exact h.unlogged d hd⟩

end Ready

/-! ## Deletions and updates take no new keys -/

section Keys

variable {scope : Scope ℕ} {db : Db}

theorem subset_of_eq {α : Type} {xs ys : List α} (h : xs = ys) : xs ⊆ ys :=
  h ▸ List.Subset.refl _

theorem noNewKeys_updateProjects {p : Project → Bool} {f : Project → Project}
    (hid : ∀ r, (f r).id = r.id) :
    NoNewKeys db { db with projects := update scope p f db.projects } :=
  { NoNewKeys.refl with projects := subset_of_eq (map_update hid) }

theorem noNewKeys_updateDsnKeys {p : DsnKey → Bool} {f : DsnKey → DsnKey}
    (hid : ∀ r, (f r).id = r.id) (hkey : ∀ r, (f r).publicKey = r.publicKey) :
    NoNewKeys db { db with dsnKeys := update scope p f db.dsnKeys } :=
  have hval : ∀ r, (f r).publicKey.val = r.publicKey.val := fun r => congrArg Subtype.val (hkey r)
  { NoNewKeys.refl with
    dsnKeys := subset_of_eq (map_update hid)
    publicKeys := subset_of_eq (map_update (fun r => hval r)) }

theorem noNewKeys_updateChannels {p : Channel → Bool} {f : Channel → Channel}
    (hid : ∀ r, (f r).id = r.id) :
    NoNewKeys db { db with channels := update scope p f db.channels } :=
  { NoNewKeys.refl with channels := subset_of_eq (map_update hid) }

theorem noNewKeys_deleteChannels {p : Channel → Bool} :
    NoNewKeys db { db with channels := delete scope p db.channels } :=
  { NoNewKeys.refl with channels := List.Sublist.subset (List.filter_sublist.map _) }

theorem noNewKeys_deleteProjects {p : Project → Bool} :
    NoNewKeys db (db.deleteProjects scope p) where
  projects := List.Sublist.subset (List.filter_sublist.map _)
  dsnKeys := List.Sublist.subset (List.filter_sublist.map _)
  publicKeys := List.Sublist.subset (List.filter_sublist.map _)
  channels := List.Sublist.subset (List.filter_sublist.map _)

end Keys

/-! ## Statements in the organisation -/

/-- Both statements give the same rows, or fail with the same error. -/
inductive SameStatement {α : Type} (post : α → Db → Db → Prop) :
    Except ServiceError (α × Db) → Except ServiceError (α × Db) → Prop where
  | ok {r r' : α} {t t' : Db} (hr : r = r') (h : post r t t') :
      SameStatement post (.ok (r, t)) (.ok (r', t'))
  | error {e : ServiceError} : SameStatement post (.error e) (.error e)

section Statements

variable {srv : Server} {org : ℕ} {rows audits : List Drawn} {acc : Accounts}
  {db db' : Db} {α β : Type} {post : α → Db → Db → Prop}

theorem sameStatement_bind {x x' : Except ServiceError β}
    {f f' : β → Except ServiceError (α × Db)} (hx : x = x')
    (h : ∀ b, x = .ok b → SameStatement post (f b) (f' b)) :
    SameStatement post (x >>= f) (x' >>= f') := by
  subst hx
  cases x with
  | error e => exact .error
  | ok b => exact h b rfl

theorem sameOutcome_exec (hsrv : srv.Oblivious) {scope : Scope ℕ} {q : Request}
    {post : Response q → Db → Db → Prop}
    (h : SameStatement post (statement srv scope db q) (statement srv scope db' q)) :
    SameOutcome post (exec srv scope q db) (exec srv scope q db') := by
  unfold exec
  rw [hsrv scope q db' db]
  cases srv.fault scope q db with
  | some e => exact .error
  | none =>
      dsimp only
      split
      · exact .error
      · generalize statement srv scope db q = x at h ⊢
        generalize statement srv scope db' q = x' at h ⊢
        cases h with
        | ok hr h =>
            subst hr
            exact .ok h
        | error => exact .error

/-- The rows a statement in the organisation sees are the organisation's own. -/
theorem select_same {α : Type} [TenantRow ℕ α] {xs xs' : List α} (h : own org xs' = own org xs)
    (p : α → Bool) : select (.tenant org) p xs = select (.tenant org) p xs' := by
  rw [select_own, ← h, ← select_own]

theorem deletedKeys_same {α : Type} [TenantRow ℕ α] {xs xs' : List α} {key : α → ℕ}
    (hxs : own org xs' = own org xs) (p : α → Bool) :
    deletedKeys (.tenant org) p key xs' = deletedKeys (.tenant org) p key xs := by
  rw [deletedKeys_own, hxs, ← deletedKeys_own]

namespace Together

variable (h : Together org rows audits acc db db')

include h

theorem accounts_eq : db'.accounts = db.accounts := h.right.accounts.trans h.left.accounts.symm

theorem hasOrg_eq (o : ℕ) : db'.hasOrg o = db.hasOrg o := by
  have horgs : db'.orgs = db.orgs := congrArg Accounts.orgs h.accounts_eq
  rw [Db.hasOrg, Db.hasOrg, horgs]

theorem hasUser_eq (userId : ℕ) : db'.hasUser userId = db.hasUser userId := by
  have husers : db'.users = db.users := congrArg Accounts.users h.accounts_eq
  rw [Db.hasUser, Db.hasUser, husers]

theorem projects : own org db'.projects = own org db.projects :=
  congrArg OwnRows.projects h.ownRows

theorem dsnKeys : own org db'.dsnKeys = own org db.dsnKeys := congrArg OwnRows.dsnKeys h.ownRows

theorem issues : own org db'.issues = own org db.issues := congrArg OwnRows.issues h.ownRows

theorem releases : own org db'.releases = own org db.releases :=
  congrArg OwnRows.releases h.ownRows

theorem comments : own org db'.comments = own org db.comments :=
  congrArg OwnRows.comments h.ownRows

theorem channels : own org db'.channels = own org db.channels :=
  congrArg OwnRows.channels h.ownRows

theorem auditLog : own org db'.auditLog = own org db.auditLog :=
  congrArg OwnRows.auditLog h.ownRows

theorem ownsProject {projectId : ℕ} (hown : db.OwnsProject org projectId) :
    db'.OwnsProject org projectId := by
  obtain ⟨p, hp, hid, horg⟩ := hown
  have hmem : p ∈ own org db'.projects := h.projects ▸ mem_own.mpr ⟨hp, horg⟩
  exact ⟨p, (mem_own.mp hmem).1, hid, horg⟩

end Together

theorem ownRows_ext {t t' : Db} (hprojects : own org t'.projects = own org t.projects)
    (hdsnKeys : own org t'.dsnKeys = own org t.dsnKeys)
    (hissues : own org t'.issues = own org t.issues)
    (hreleases : own org t'.releases = own org t.releases)
    (hcomments : own org t'.comments = own org t.comments)
    (hchannels : own org t'.channels = own org t.channels)
    (hauditLog : own org t'.auditLog = own org t.auditLog) : t'.ownRows org = t.ownRows org := by
  rw [Db.ownRows, Db.ownRows, hprojects, hdsnKeys, hissues, hreleases, hcomments, hchannels,
    hauditLog]

/-- What both states do without new keys. -/
theorem Together.step {t t' : Db} (h : Together org rows audits acc db db') (hkeys : NoNewKeys db t)
    (hkeys' : NoNewKeys db' t') (haccounts : t.accounts = db.accounts)
    (haccounts' : t'.accounts = db'.accounts) (hlog : t.auditLog = db.auditLog)
    (hlog' : t'.auditLog = db'.auditLog) (hown : t'.ownRows org = t.ownRows org) :
    Together org rows audits acc t t' where
  left := h.left.of_noNewKeys hkeys (haccounts.trans h.left.accounts) hlog
  right := h.right.of_noNewKeys hkeys' (haccounts'.trans h.right.accounts) hlog'
  ownRows := hown

variable (h : Together org rows audits acc db db')

include h

theorem same_selectProject (projectId : ℕ) :
    SameStatement
      (fun found t t' => Together org rows audits acc t t' ∧
        ∀ p ∈ found, t.OwnsProject org projectId ∧ t'.OwnsProject org projectId)
      (statement srv (.tenant org) db (.selectProject projectId))
      (statement srv (.tenant org) db' (.selectProject projectId)) := by
  refine .ok (select_same h.projects _) ⟨h, fun p hp => ?_⟩
  have hown : db.OwnsProject org projectId := ownsProject_of_selected hp
  exact ⟨hown, h.ownsProject hown⟩

theorem same_updateSampling (samplingRate : PyFloat) (projectId : ℕ) :
    SameStatement (fun _ => Together org rows audits acc)
      (statement srv (.tenant org) db (.updateSampling samplingRate projectId))
      (statement srv (.tenant org) db' (.updateSampling samplingRate projectId)) :=
  .ok (congrArg _ (select_same h.projects _))
    (h.step (noNewKeys_updateProjects fun _ => rfl) (noNewKeys_updateProjects fun _ => rfl)
      rfl rfl rfl rfl (ownRows_ext (own_update_congr h.projects fun _ => rfl) h.dsnKeys h.issues
        h.releases h.comments h.channels h.auditLog))

theorem same_revokeDsnKey (now : Timestamp) (keyId projectId : ℕ) :
    SameStatement (fun _ => Together org rows audits acc)
      (statement srv (.tenant org) db (.revokeDsnKey now keyId projectId))
      (statement srv (.tenant org) db' (.revokeDsnKey now keyId projectId)) :=
  .ok (congrArg _ (select_same h.dsnKeys _))
    (h.step (noNewKeys_updateDsnKeys (fun _ => rfl) fun _ => rfl)
      (noNewKeys_updateDsnKeys (fun _ => rfl) fun _ => rfl) rfl rfl rfl rfl
      (ownRows_ext h.projects (own_update_congr h.dsnKeys fun _ => rfl) h.issues h.releases
        h.comments h.channels h.auditLog))

theorem same_selectChannel (channelId : ℕ) :
    SameStatement (fun _ => Together org rows audits acc)
      (statement srv (.tenant org) db (.selectChannel channelId))
      (statement srv (.tenant org) db' (.selectChannel channelId)) :=
  .ok (select_same h.channels _) h

theorem same_updateChannel (enabled : Option Bool) (config : Option Dict) (channelId : ℕ) :
    SameStatement (fun _ => Together org rows audits acc)
      (statement srv (.tenant org) db (.updateChannel enabled config channelId))
      (statement srv (.tenant org) db' (.updateChannel enabled config channelId)) := by
  refine sameStatement_bind rfl fun config _ => ?_
  exact .ok (congrArg _ (select_same h.channels _))
    (h.step (noNewKeys_updateChannels fun _ => rfl) (noNewKeys_updateChannels fun _ => rfl)
      rfl rfl rfl rfl (ownRows_ext h.projects h.dsnKeys h.issues h.releases h.comments
        (own_update_congr h.channels fun _ => rfl) h.auditLog))

theorem same_deleteChannel (channelId : ℕ) :
    SameStatement (fun _ => Together org rows audits acc)
      (statement srv (.tenant org) db (.deleteChannel channelId))
      (statement srv (.tenant org) db' (.deleteChannel channelId)) :=
  .ok (congrArg _ (select_same h.channels _))
    (h.step noNewKeys_deleteChannels noNewKeys_deleteChannels rfl rfl rfl rfl
      (ownRows_ext h.projects h.dsnKeys h.issues h.releases h.comments
        (own_delete_congr h.channels) h.auditLog))

theorem same_selectIssue (issueId projectId : ℕ) :
    SameStatement (fun _ => Together org rows audits acc)
      (statement srv (.tenant org) db (.selectIssue issueId projectId))
      (statement srv (.tenant org) db' (.selectIssue issueId projectId)) :=
  .ok (select_same h.issues _) h

theorem same_selectMember (userId : ℕ) :
    SameStatement (fun _ => Together org rows audits acc)
      (statement srv (.tenant org) db (.selectMember userId))
      (statement srv (.tenant org) db' (.selectMember userId)) := by
  have hmembers : db'.memberships = db.memberships := congrArg Accounts.memberships h.accounts_eq
  exact .ok (select_same (congrArg _ hmembers) _) h

/-- What an update of an issue reads of the other tables. -/
theorem issueView_same : db'.issueView (.tenant org) = db.issueView (.tenant org) := by
  have hmembers : db'.memberships = db.memberships := congrArg Accounts.memberships h.accounts_eq
  rw [Db.issueView, Db.issueView, hmembers, select_same h.projects, select_same h.issues,
    select_same h.releases]

/-- An update of issues of the organisation, the same in both states. -/
theorem together_updateIssues {p : IssueRow → Bool} {f : IssueRow → IssueRow}
    (hf : ∀ r, (f r).orgId = r.orgId) :
    Together org rows audits acc
      { db with issues := RowSecurity.update (.tenant org) p f db.issues }
      { db' with issues := RowSecurity.update (.tenant org) p f db'.issues } :=
  h.step { NoNewKeys.refl with } { NoNewKeys.refl with } rfl rfl rfl rfl
    (ownRows_ext h.projects h.dsnKeys (own_update_congr h.issues hf) h.releases h.comments
      h.channels h.auditLog)

theorem same_updateStatus (action : StatusAction) (issueId projectId : ℕ) :
    SameStatement (fun _ => Together org rows audits acc)
      (statement srv (.tenant org) db (.updateStatus action issueId projectId))
      (statement srv (.tenant org) db' (.updateStatus action issueId projectId)) := by
  simp only [statement, issueView_same h]
  exact .ok (congrArg _ (select_same h.issues _)) (together_updateIssues h fun _ => rfl)

theorem same_updateAssignee (assignee : Option ℕ) (issueId projectId : ℕ) :
    SameStatement (fun _ => Together org rows audits acc)
      (statement srv (.tenant org) db (.updateAssignee assignee issueId projectId))
      (statement srv (.tenant org) db' (.updateAssignee assignee issueId projectId)) := by
  have husers : db'.hasUser = db.hasUser := funext h.hasUser_eq
  refine sameStatement_bind ?_ fun _ _ => ?_
  · rw [husers, select_same h.issues]
  · exact .ok (congrArg _ (select_same h.issues _)) (together_updateIssues h fun _ => rfl)

/-! ## Deletions with a cascade -/

theorem together_deleteProjects (hdb : db.Consistent) (hdb' : db'.Consistent)
    (p : Project → Bool) :
    Together org rows audits acc (db.deleteProjects (.tenant org) p)
      (db'.deleteProjects (.tenant org) p) := by
  have hgone : deletedKeys (.tenant org) p Project.id db'.projects =
      deletedKeys (.tenant org) p Project.id db.projects := deletedKeys_same h.projects p
  have hgoneIssues : cascadedKeys (deletedKeys (.tenant org) p Project.id db'.projects)
      (fun i : IssueRow => some i.projectId) (fun i => i.id) db'.issues =
      cascadedKeys (deletedKeys (.tenant org) p Project.id db.projects)
        (fun i => some i.projectId) (fun i => i.id) db.issues := by
    rw [cascadedKeys_own hdb.issues hdb.projectIds goneWithin_deletedKeys,
      cascadedKeys_own hdb'.issues hdb'.projectIds goneWithin_deletedKeys, hgone, h.issues]
  exact h.step noNewKeys_deleteProjects noNewKeys_deleteProjects rfl rfl rfl rfl
    (ownRows_ext (own_delete_congr h.projects) (own_cascade_congr h.dsnKeys hgone)
      (own_cascade_congr h.issues hgone) (own_cascade_congr h.releases hgone)
      (own_cascade_congr h.comments hgoneIssues) (own_cascade_congr h.channels hgone) h.auditLog)

theorem same_deleteProject (hdb : db.Consistent) (hdb' : db'.Consistent) (projectId : ℕ) :
    SameStatement (fun _ => Together org rows audits acc)
      (statement srv (.tenant org) db (.deleteProject projectId))
      (statement srv (.tenant org) db' (.deleteProject projectId)) :=
  .ok (congrArg _ (select_same h.projects _)) (together_deleteProjects h hdb hdb' _)

theorem same_deleteIssue (issueId projectId : ℕ) :
    SameStatement (fun _ => Together org rows audits acc)
      (statement srv (.tenant org) db (.deleteIssue issueId projectId))
      (statement srv (.tenant org) db' (.deleteIssue issueId projectId)) :=
  .ok (congrArg _ (select_same h.issues _))
    (h.step { NoNewKeys.refl with } { NoNewKeys.refl with } rfl rfl rfl rfl
      (ownRows_ext h.projects h.dsnKeys (own_delete_congr h.issues) h.releases
        (own_cascade_congr h.comments (deletedKeys_same h.issues _)) h.channels h.auditLog))

end Statements

/-! ## Insertions -/

section Insertions

variable {srv : Server} {org : ℕ} {draw : Drawn} {rows audits : List Drawn} {acc : Accounts}
  {db db' : Db}

theorem notMem_map_append {α β : Type} {key : α → β} {xs : List α} {x : α} {k : β}
    (h : k ∉ xs.map key) (hne : k ≠ key x) : k ∉ (xs ++ [x]).map key := by
  rw [List.map_append, List.map_singleton, List.mem_append, List.mem_singleton]
  exact not_or.mpr ⟨h, hne⟩

theorem hasProject_of_unused (h : Unused draw db) : db.hasProject draw.id = false := by
  rw [Db.hasProject, List.any_eq_false]
  intro p hp hid
  exact h.project (List.mem_map.mpr ⟨p, hp, of_decide_eq_true hid⟩)

/-- A constraint on the organisation's own rows. -/
theorem all_same {α : Type} [TenantRow ℕ α] {xs xs' : List α} (h : own org xs' = own org xs)
    (q : α → Bool) : (xs'.all fun r => !(tenant r = org && q r)) =
      xs.all fun r => !(tenant r = org && q r) := by
  have hown : ∀ xs : List α, (xs.all fun r => !(tenant r = org && q r)) =
      (own org xs).all fun r => !q r := by
    intro xs
    induction xs with
    | nil => rfl
    | cons r xs ih =>
        rw [List.all_cons, ih, own, own, List.filter_cons]
        by_cases hr : tenant r = org
        · simp [hr]
        · simp [hr]
  rw [hown xs', h, hown xs]

theorem same_insertProject (h : Together org (draw :: rows) audits acc db db')
    (hdraw : ∀ d ∈ rows, Distinct d draw) (name slug : PyStr) (platform : Option PyStr) :
    SameStatement (fun _ => Together org rows audits acc)
      (statement srv (.tenant org) db (.insertProject draw.id org name slug platform))
      (statement srv (.tenant org) db' (.insertProject draw.id org name slug platform)) := by
  have hready : ∀ {db : Db} {row : Project}, row.id = draw.id →
      Ready (draw :: rows) audits acc db →
      Ready rows audits acc { db with projects := db.projects ++ [row] } := by
    intro db row hrow hr
    refine ⟨hr.accounts, fun d hd => ?_, hr.unlogged⟩
    have hunused := hr.unused d (List.mem_cons_of_mem _ hd)
    exact { hunused with
      project := notMem_map_append hunused.project (hrow ▸ (hdraw d hd).id) }
  have hnew := hasProject_of_unused (h.left.unused draw List.mem_cons_self)
  have hnew' := hasProject_of_unused (h.right.unused draw List.mem_cons_self)
  refine sameStatement_bind rfl fun name _ => sameStatement_bind rfl fun slug _ =>
    sameStatement_bind rfl fun platform _ => sameStatement_bind rfl fun _ _ =>
    sameStatement_bind ?_ fun _ _ => sameStatement_bind ?_ fun _ _ => ?_
  · rw [hnew, hnew', h.hasOrg_eq]
  · exact congrArg require (all_same h.projects _).symm
  · exact .ok rfl ⟨hready rfl h.left, hready rfl h.right,
      ownRows_ext (own_append_congr h.projects _) h.dsnKeys h.issues h.releases h.comments
        h.channels h.auditLog⟩

theorem hasProject_of_owned {projectId : ℕ} (h : db.OwnsProject org projectId) :
    db.hasProject projectId = true := by
  obtain ⟨p, hp, hid, -⟩ := h
  exact List.any_eq_true.mpr ⟨p, hp, decide_eq_true hid⟩

theorem newKey_of_unused (h : Unused draw db) {publicKey : Text}
    (hkey : publicKey.val = draw.token) :
    (db.dsnKeys.all fun k => k.id ≠ draw.id && k.publicKey ≠ publicKey) = true := by
  refine List.all_eq_true.mpr fun k hk => Bool.and_eq_true_iff.mpr ⟨?_, ?_⟩
  · exact decide_eq_true fun hid => h.dsnKey (List.mem_map.mpr ⟨k, hk, hid⟩)
  · refine decide_eq_true fun heq => h.publicKey (List.mem_map.mpr ⟨k, hk, ?_⟩)
    rw [heq, hkey]

theorem same_insertDsnKey (h : Together org (draw :: rows) audits acc db db')
    (hdraw : ∀ d ∈ rows, Distinct d draw) {projectId : ℕ} (hown : db.OwnsProject org projectId) :
    SameStatement (fun _ => Together org rows audits acc)
      (statement srv (.tenant org) db (.insertDsnKey draw.id org projectId draw.token))
      (statement srv (.tenant org) db' (.insertDsnKey draw.id org projectId draw.token)) := by
  have hready : ∀ {db : Db} {row : DsnKey}, row.id = draw.id → row.publicKey.val = draw.token →
      Ready (draw :: rows) audits acc db →
      Ready rows audits acc { db with dsnKeys := db.dsnKeys ++ [row] } := by
    intro db row hid hkey hr
    refine ⟨hr.accounts, fun d hd => ?_, hr.unlogged⟩
    have hunused := hr.unused d (List.mem_cons_of_mem _ hd)
    exact { hunused with
      dsnKey := notMem_map_append hunused.dsnKey (hid ▸ (hdraw d hd).id)
      publicKey := notMem_map_append hunused.publicKey (hkey ▸ (hdraw d hd).token) }
  refine sameStatement_bind rfl fun publicKey hkey => sameStatement_bind rfl fun _ _ =>
    sameStatement_bind ?_ fun _ _ => sameStatement_bind ?_ fun _ _ => ?_
  · rw [hasProject_of_owned hown, hasProject_of_owned (h.ownsProject hown), h.hasOrg_eq]
  · rw [newKey_of_unused (h.left.unused draw List.mem_cons_self) (bindText_val hkey),
      newKey_of_unused (h.right.unused draw List.mem_cons_self) (bindText_val hkey)]
  · exact .ok rfl ⟨hready rfl (bindText_val hkey) h.left, hready rfl (bindText_val hkey) h.right,
      ownRows_ext h.projects (own_append_congr h.dsnKeys _) h.issues h.releases h.comments
        h.channels h.auditLog⟩

theorem newChannel_of_unused (h : Unused draw db) :
    (db.channels.all fun c => c.id ≠ draw.id) = true :=
  List.all_eq_true.mpr fun c hc =>
    decide_eq_true fun hid => h.channel (List.mem_map.mpr ⟨c, hc, hid⟩)

theorem scope_of_owned {projectId : Option ℕ} (hown : ∀ p ∈ projectId, db.OwnsProject org p) :
    projectId.all db.hasProject = true := by
  cases projectId with
  | none => rfl
  | some projectId => exact hasProject_of_owned (hown projectId rfl)

theorem same_insertChannel (h : Together org (draw :: rows) audits acc db db')
    (hdraw : ∀ d ∈ rows, Distinct d draw) {projectId : Option ℕ}
    (hown : ∀ p ∈ projectId, db.OwnsProject org p) (type : PyStr) (config : Dict) :
    SameStatement (fun _ => Together org rows audits acc)
      (statement srv (.tenant org) db (.insertChannel draw.id org projectId type config))
      (statement srv (.tenant org) db' (.insertChannel draw.id org projectId type config)) := by
  have hready : ∀ {db : Db} {row : Channel}, row.id = draw.id →
      Ready (draw :: rows) audits acc db →
      Ready rows audits acc { db with channels := db.channels ++ [row] } := by
    intro db row hid hr
    refine ⟨hr.accounts, fun d hd => ?_, hr.unlogged⟩
    have hunused := hr.unused d (List.mem_cons_of_mem _ hd)
    exact { hunused with
      channel := notMem_map_append hunused.channel (hid ▸ (hdraw d hd).id) }
  refine sameStatement_bind rfl fun config _ => sameStatement_bind rfl fun _ _ =>
    sameStatement_bind rfl fun type _ => sameStatement_bind ?_ fun _ _ =>
    sameStatement_bind ?_ fun _ _ => ?_
  · rw [scope_of_owned hown, scope_of_owned fun p hp => h.ownsProject (hown p hp), h.hasOrg_eq]
  · rw [newChannel_of_unused (h.left.unused draw List.mem_cons_self),
      newChannel_of_unused (h.right.unused draw List.mem_cons_self)]
  · exact .ok rfl ⟨hready rfl h.left, hready rfl h.right,
      ownRows_ext h.projects h.dsnKeys h.issues h.releases h.comments
        (own_append_congr h.channels _) h.auditLog⟩

theorem newAudit_of_unlogged (h : Unlogged draw db) :
    (db.auditLog.all fun row => row.id ≠ draw.auditId) = true :=
  List.all_eq_true.mpr fun row hrow =>
    decide_eq_true fun hid => h (List.mem_map.mpr ⟨row, hrow, hid⟩)

/-- An audit row of any organisation. -/
theorem same_insertAudit {scope : Scope ℕ} (h : Together org rows (draw :: audits) acc db db')
    (hdraw : ∀ d ∈ audits, Distinct d draw) {entry : AuditEntry} (hid : entry.id = draw.auditId) :
    SameStatement (fun _ => Together org rows audits acc)
      (statement srv scope db (.insertAudit entry))
      (statement srv scope db' (.insertAudit entry)) := by
  have hready : ∀ {db : Db} {row : AuditRow}, row.id = draw.auditId →
      Ready rows (draw :: audits) acc db →
      Ready rows audits acc { db with auditLog := db.auditLog ++ [row] } := by
    intro db row hrow hr
    refine ⟨hr.accounts, fun d hd => { hr.unused d hd with }, fun d hd => ?_⟩
    exact notMem_map_append (hr.unlogged d (List.mem_cons_of_mem _ hd))
      (hrow ▸ (hdraw d hd).auditId)
  have husers : db'.hasUser = db.hasUser := funext h.hasUser_eq
  refine sameStatement_bind rfl fun targetId _ => sameStatement_bind rfl fun data _ =>
    sameStatement_bind rfl fun _ _ => sameStatement_bind ?_ fun _ _ =>
    sameStatement_bind ?_ fun _ _ => ?_
  · rw [h.hasOrg_eq, husers]
  · rw [hid, newAudit_of_unlogged (h.left.unlogged draw List.mem_cons_self),
      newAudit_of_unlogged (h.right.unlogged draw List.mem_cons_self)]
  · exact .ok rfl ⟨hready hid h.left, hready hid h.right,
      ownRows_ext h.projects h.dsnKeys h.issues h.releases h.comments h.channels
        (own_append_congr h.auditLog _)⟩

end Insertions

/-! ## Accounts, in any session -/

section Accounts

variable {srv : Server} {scope : Scope ℕ} {org : ℕ} {rows audits : List Drawn} {acc : Accounts}
  {db db' : Db}

/-- The two states look the same, whatever the accounts are. -/
def Alike (org : ℕ) (rows audits : List Drawn) (db db' : Db) : Prop :=
  ∃ acc, Together org rows audits acc db db'

/-- What both states do with nothing but the accounts. -/
theorem Together.accountStep {t t' : Db} (h : Together org rows audits acc db db')
    (hkeys : NoNewKeys db t) (hkeys' : NoNewKeys db' t') (hlog : t.auditLog = db.auditLog)
    (hlog' : t'.auditLog = db'.auditLog) (hown : t'.ownRows org = t.ownRows org)
    (haccounts : t'.accounts = t.accounts) : Alike org rows audits t t' :=
  ⟨t.accounts, h.left.of_noNewKeys hkeys rfl hlog, h.right.of_noNewKeys hkeys' haccounts hlog',
    hown⟩

variable (h : Together org rows audits acc db db')

include h

namespace Together

theorem orgs : db'.orgs = db.orgs := congrArg Accounts.orgs h.accounts_eq

theorem users : db'.users = db.users := congrArg Accounts.users h.accounts_eq

theorem memberships : db'.memberships = db.memberships :=
  congrArg Accounts.memberships h.accounts_eq

theorem invites : db'.invites = db.invites := congrArg Accounts.invites h.accounts_eq

end Together

theorem same_selectInvite (tokenHash : PyStr) :
    SameStatement (fun _ => Together org rows audits acc)
      (statement srv scope db (.selectInvite tokenHash))
      (statement srv scope db' (.selectInvite tokenHash)) := by
  refine sameStatement_bind rfl fun tokenHash _ => ?_
  exact .ok (by rw [h.invites]) h

theorem same_selectUser (email : PyStr) :
    SameStatement (fun _ => Together org rows audits acc)
      (statement srv scope db (.selectUser email))
      (statement srv scope db' (.selectUser email)) := by
  refine sameStatement_bind rfl fun email _ => ?_
  exact .ok (by rw [h.users]) h

theorem same_insertInvite (id orgId : ℕ) (email role tokenHash : PyStr) (expiresAt : Timestamp) :
    SameStatement (fun _ => Alike org rows audits)
      (statement srv scope db (.insertInvite id orgId email role tokenHash expiresAt))
      (statement srv scope db' (.insertInvite id orgId email role tokenHash expiresAt)) := by
  refine sameStatement_bind rfl fun email _ => sameStatement_bind rfl fun tokenHash _ =>
    sameStatement_bind rfl fun _ _ => sameStatement_bind rfl fun role _ =>
    sameStatement_bind ?_ fun _ _ => ?_
  · rw [h.hasOrg_eq, h.invites]
  · refine .ok rfl (h.accountStep { NoNewKeys.refl with } { NoNewKeys.refl with } rfl rfl
      (ownRows_ext h.projects h.dsnKeys h.issues h.releases h.comments h.channels h.auditLog) ?_)
    simp only [Db.accounts, h.orgs, h.users, h.memberships, h.invites]

theorem same_insertUser (id : ℕ) (email passwordHash : PyStr) :
    SameStatement (fun _ => Alike org rows audits)
      (statement srv scope db (.insertUser id email passwordHash))
      (statement srv scope db' (.insertUser id email passwordHash)) := by
  refine sameStatement_bind rfl fun email _ => sameStatement_bind rfl fun passwordHash _ =>
    sameStatement_bind ?_ fun _ _ => ?_
  · rw [h.users]
  · refine .ok rfl (h.accountStep { NoNewKeys.refl with } { NoNewKeys.refl with } rfl rfl
      (ownRows_ext h.projects h.dsnKeys h.issues h.releases h.comments h.channels h.auditLog) ?_)
    simp only [Db.accounts, h.orgs, h.users, h.memberships, h.invites]

theorem same_insertMembership (orgId userId : ℕ) (role : MemberRole) :
    SameStatement (fun _ => Alike org rows audits)
      (statement srv scope db (.insertMembership orgId userId role))
      (statement srv scope db' (.insertMembership orgId userId role)) := by
  refine sameStatement_bind rfl fun _ _ => ?_
  rw [h.memberships]
  split
  · exact .ok rfl ⟨acc, h⟩
  · refine sameStatement_bind ?_ fun _ _ => ?_
    · rw [h.hasOrg_eq, h.hasUser_eq]
    · refine .ok rfl (h.accountStep { NoNewKeys.refl with } { NoNewKeys.refl with } rfl rfl
        (ownRows_ext h.projects h.dsnKeys h.issues h.releases h.comments h.channels h.auditLog) ?_)
      simp only [Db.accounts, h.orgs, h.users, h.invites]

theorem same_acceptInvite (now : Timestamp) (inviteId : ℕ) :
    SameStatement (fun _ => Alike org rows audits)
      (statement srv scope db (.acceptInvite now inviteId))
      (statement srv scope db' (.acceptInvite now inviteId)) := by
  refine .ok (by rw [h.invites]) (h.accountStep { NoNewKeys.refl with } { NoNewKeys.refl with } rfl
    rfl (ownRows_ext h.projects h.dsnKeys h.issues h.releases h.comments h.channels h.auditLog) ?_)
  simp only [Db.accounts, h.orgs, h.users, h.memberships, h.invites]

end Accounts

end Crashlens.Tenant
