import Crashlens.GrantedRoles
import Crashlens.ServiceStatements

/-!
# Who may do what, and who let them

`Accountable` reads the tables themselves: every organisation has a first member who is an admin,
every further member was invited by an admin who was there before, and every row of the audit log
names a member, an admin where the action takes one. A call that is made by a member, with the role
its route asks for, and an acceptance of an invite both keep it.
-/

namespace Crashlens.Tenant

open Transactional RowSecurity

/-- The actions that need no admin. -/
def memberActions : List String :=
  ["issue.resolved", "issue.ignored", "issue.reopened", "issue.assigned", "invite.accepted"]

/-- The log says that the inviter, an admin of the organisation, offered the role. -/
structure Offered (db : Db) (inviter : Membership) (orgId inviteId : ℕ) (role : MemberRole) :
    Prop where
  ofOrg : inviter.orgId = orgId
  isAdmin : inviter.role = .admin
  sent : ∃ row ∈ db.auditLog, row.orgId = orgId ∧ row.action = "member.invited" ∧
    row.actorUserId = some inviter.userId ∧
    row.targetId.map (fun s => s.val) = some (uuidStr inviteId) ∧
    row.data.get "role" = .str role.str

/-- The member took up the offer. -/
def Joined (db : Db) (m : Membership) (inviteId : ℕ) : Prop :=
  ∃ row ∈ db.auditLog, row.orgId = m.orgId ∧ row.action = "invite.accepted" ∧
    row.actorUserId = some m.userId ∧ row.targetId.map (fun s => s.val) = some (uuidStr inviteId)

/-- The actor is a member of the row's organisation, an admin where the action takes one. -/
def Authorised (memberships : List Membership) (row : AuditRow) : Prop :=
  ∃ m ∈ memberships, m.orgId = row.orgId ∧ row.actorUserId = some m.userId ∧
    (row.action ∉ memberActions → m.role = .admin)

structure Accountable (db : Db) : Prop where
  founded : ∀ orgId ∈ db.orgs, ∃ m, db.memberships.find? (fun m => m.orgId = orgId) = some m ∧
    m.role = .admin
  invited : ∀ before m after, db.memberships = before ++ m :: after →
    (∃ m' ∈ before, m'.orgId = m.orgId) →
      ∃ inviter ∈ before, ∃ inviteId, Offered db inviter m.orgId inviteId m.role ∧
        Joined db m inviteId
  logged : ∀ row ∈ db.auditLog, Authorised db.memberships row

/-- What keeps the tables accountable besides: the invites that are still to be accepted. -/
structure Db.Sound (db : Db) : Prop extends Accountable db where
  consistent : db.Consistent
  orgs : ∀ m ∈ db.memberships, m.orgId ∈ db.orgs
  invites : ∀ invite ∈ db.invites, ∃ inviter ∈ db.memberships,
    Offered db inviter invite.orgId invite.id invite.role
  emails : (db.users.map User.email).Nodup

/-- Sound tables that have the members and the log of before. -/
structure SoundFrom (db db' : Db) : Prop extends db'.Sound where
  members : db.memberships ⊆ db'.memberships
  log : db.auditLog ⊆ db'.auditLog

theorem Db.Sound.refl {db : Db} (h : db.Sound) : SoundFrom db db :=
  ⟨h, List.Subset.refl _, List.Subset.refl _⟩

/-! ## Statements -/

/-- The invites are those of before, whether or not they have been accepted since. -/
def InvitesFrom (db db' : Db) : Prop :=
  ∀ invite' ∈ db'.invites, ∃ invite ∈ db.invites,
    invite'.id = invite.id ∧ invite'.orgId = invite.orgId ∧ invite'.role = invite.role

/-- What a statement does to organisations, members, invites and users. -/
structure AccountWrites (q : Request) (db db' : Db) : Prop where
  orgs : db'.orgs = db.orgs
  memberships : (∀ orgId userId role, q ≠ .insertMembership orgId userId role) →
    db'.memberships = db.memberships
  invites : (∀ id orgId email role hash expiresAt,
    q ≠ .insertInvite id orgId email role hash expiresAt) → InvitesFrom db db'
  users : ∀ u ∈ db'.users, u ∈ db.users ∨ ∃ email hash, q = .insertUser u.id email hash
  emails : (db.users.map User.email).Nodup → (db'.users.map User.email).Nodup

section Statements

variable {srv : Server} {scope : Scope ℕ} {db db' : Db}

theorem invitesFrom_refl : InvitesFrom db db := fun invite h => ⟨invite, h, rfl, rfl, rfl⟩

theorem invitesFrom_trans {db'' : Db} (h : InvitesFrom db db') (h' : InvitesFrom db' db'') :
    InvitesFrom db db'' := by
  intro invite'' hmem
  obtain ⟨invite', hmem', hid', horg', hrole'⟩ := h' invite'' hmem
  obtain ⟨invite, hinvite, hid, horg, hrole⟩ := h invite' hmem'
  exact ⟨invite, hinvite, hid'.trans hid, horg'.trans horg, hrole'.trans hrole⟩

theorem accountWrites_none {q : Request} (horgs : db'.orgs = db.orgs)
    (husers : db'.users = db.users)
    (hmemberships : db'.memberships = db.memberships) (hinvites : db'.invites = db.invites) :
    AccountWrites q db db' where
  orgs := horgs
  memberships _ := hmemberships
  invites _ := fun invite h => ⟨invite, hinvites ▸ h, rfl, rfl, rfl⟩
  users u h := .inl (husers ▸ h)
  emails h := by
    rw [husers]
    exact h

theorem accountWrites_exec {q : Request} {r : Response q}
    (h : exec srv scope q db = (.ok r, db')) : AccountWrites q db db' := by
  have hst := exec_ok h
  cases q with
  | insertUser id email hash =>
      obtain ⟨email', -, hst⟩ := bind_ok hst
      obtain ⟨_, -, hst⟩ := bind_ok hst
      obtain ⟨_, hnew, hst⟩ := bind_ok hst
      cases hst
      refine ⟨rfl, fun _ => rfl, fun _ => invitesFrom_refl, fun u hu => ?_, fun hnodup => ?_⟩
      · obtain hold | hnew := List.mem_append.mp hu
        · exact .inl hold
        · rw [List.mem_singleton.mp hnew]
          exact .inr ⟨email, hash, rfl⟩
      rw [List.map_append, List.map_singleton, ← List.concat_eq_append]
      refine hnodup.concat fun hmem => ?_
      obtain ⟨u, hu, heq⟩ := List.mem_map.mp hmem
      have hall := List.all_eq_true.mp (require_ok hnew) u hu
      exact of_decide_eq_true (Bool.and_eq_true_iff.mp hall).2 heq
  | insertInvite id orgId email role hash expiresAt =>
      obtain ⟨_, -, hst⟩ := bind_ok hst
      obtain ⟨_, -, hst⟩ := bind_ok hst
      obtain ⟨_, -, hst⟩ := bind_ok hst
      obtain ⟨_, -, hst⟩ := bind_ok hst
      obtain ⟨_, -, hst⟩ := bind_ok hst
      cases hst
      exact ⟨rfl, fun _ => rfl, fun hq => absurd rfl (hq _ _ _ _ _ _), fun _ h => .inl h,
        fun h => h⟩
  | acceptInvite now inviteId =>
      cases hst
      refine ⟨rfl, fun _ => rfl, fun _ invite' hmem => ?_, fun _ h => .inl h, id⟩
      obtain ⟨invite, hinvite, rfl | rfl⟩ := mem_update hmem
      · exact ⟨_, hinvite, rfl, rfl, rfl⟩
      · exact ⟨invite, hinvite, rfl, rfl, rfl⟩
  | insertMembership orgId userId role =>
      obtain ⟨_, -, hst⟩ := bind_ok hst
      split at hst
      · cases hst
        exact accountWrites_none rfl rfl rfl rfl
      · obtain ⟨_, -, hst⟩ := bind_ok hst
        cases hst
        exact ⟨rfl, fun hq => absurd rfl (hq _ _ _), fun _ => invitesFrom_refl, fun _ h => .inl h,
          id⟩
  | _ =>
    simp only [statement] at hst
    repeat obtain ⟨_, -, hst⟩ := bind_ok hst
    cases hst
    exact accountWrites_none rfl rfl rfl rfl

end Statements

/-! ## Growing tables -/

section Growth

variable {db db' : Db}

theorem Offered.mono {inviter : Membership} {orgId inviteId : ℕ} {role : MemberRole}
    (h : Offered db inviter orgId inviteId role) (hlog : db.auditLog ⊆ db'.auditLog) :
    Offered db' inviter orgId inviteId role := by
  obtain ⟨row, hrow, hsent⟩ := h.sent
  exact ⟨h.ofOrg, h.isAdmin, row, hlog hrow, hsent⟩

theorem Joined.mono {m : Membership} {inviteId : ℕ} (h : Joined db m inviteId)
    (hlog : db.auditLog ⊆ db'.auditLog) : Joined db' m inviteId := by
  obtain ⟨row, hrow, haccepted⟩ := h
  exact ⟨row, hlog hrow, haccepted⟩

theorem Authorised.mono {members members' : List Membership} {row : AuditRow}
    (h : Authorised members row) (hmembers : members ⊆ members') : Authorised members' row := by
  obtain ⟨m, hm, hrow⟩ := h
  exact ⟨m, hmembers hm, hrow⟩

/-- One more member, or none: the rows of before keep their place. -/
theorem split_append_toList {α : Type} {xs before after : List α} {new : Option α} {x : α}
    (h : xs ++ new.toList = before ++ x :: after) :
    (∃ after', xs = before ++ x :: after') ∨ before = xs ∧ new = some x := by
  cases new with
  | none =>
      left
      exact ⟨after, by simpa using h⟩
  | some y =>
      rcases List.eq_nil_or_concat after with rfl | ⟨after', z, rfl⟩
      · right
        obtain ⟨hxs, hy⟩ := List.append_inj' h rfl
        cases hy
        exact ⟨hxs.symm, rfl⟩
      · left
        refine ⟨after', ?_⟩
        have hall : xs ++ [y] = (before ++ x :: after') ++ [z] := by
          simpa [List.concat_eq_append] using h
        exact (List.append_inj' hall rfl).1

/-- Rows of the log that name members, a member who was invited, and invites that were offered. -/
theorem Db.Sound.grow (new : Option Membership) (rows : List AuditRow) (hdb : db.Sound)
    (horgs : db'.orgs = db.orgs) (hmembers : db'.memberships = db.memberships ++ new.toList)
    (hnew : ∀ m ∈ new, m.orgId ∈ db.orgs ∧ ∃ inviter ∈ db.memberships, ∃ inviteId,
      Offered db' inviter m.orgId inviteId m.role ∧ Joined db' m inviteId)
    (hlog : db'.auditLog = db.auditLog ++ rows)
    (hrows : ∀ row ∈ rows, Authorised db'.memberships row)
    (hinvites : ∀ invite ∈ db'.invites, ∃ inviter ∈ db.memberships,
      Offered db' inviter invite.orgId invite.id invite.role)
    (hconsistent : db'.Consistent) (hemails : (db'.users.map User.email).Nodup) :
    SoundFrom db db' := by
  have hkept : db.memberships ⊆ db'.memberships := by
    rw [hmembers]
    exact List.subset_append_left _ _
  have hlogged : db.auditLog ⊆ db'.auditLog := by
    rw [hlog]
    exact List.subset_append_left _ _
  refine ⟨⟨⟨fun orgId horg => ?_, fun before m after hsplit hearlier => ?_, fun row hrow => ?_⟩,
    hconsistent, fun m hm => ?_, fun invite hinvite => ?_, hemails⟩, hkept, hlogged⟩
  · rw [horgs] at horg
    obtain ⟨m, hfirst, hadmin⟩ := hdb.founded orgId horg
    refine ⟨m, ?_, hadmin⟩
    rw [hmembers, List.find?_append, hfirst]
    rfl
  · rw [hmembers] at hsplit
    obtain ⟨after', hold⟩ | ⟨rfl, hlast⟩ := split_append_toList hsplit
    · obtain ⟨inviter, hmem, inviteId, hoffered, hjoined⟩ :=
        hdb.invited before m after' hold hearlier
      exact ⟨inviter, hmem, inviteId, hoffered.mono hlogged, hjoined.mono hlogged⟩
    · exact (hnew m hlast).2
  · rw [hlog] at hrow
    obtain hrow | hrow := List.mem_append.mp hrow
    · exact (hdb.logged row hrow).mono hkept
    · exact hrows row hrow
  · rw [horgs]
    rw [hmembers, List.mem_append, Option.mem_toList] at hm
    obtain hm | hm := hm
    · exact hdb.orgs m hm
    · exact (hnew m hm).1
  · obtain ⟨inviter, hmem, hoffered⟩ := hinvites invite hinvite
    exact ⟨inviter, hkept hmem, hoffered⟩

/-- A new organisation with its founder. -/
theorem Db.Sound.found {orgId userId : ℕ} (hdb : db.Sound) (hnew : orgId ∉ db.orgs)
    (horgs : db'.orgs = db.orgs ++ [orgId])
    (hmembers : db'.memberships = db.memberships ++ [⟨orgId, userId, .admin⟩])
    (hlog : db'.auditLog = db.auditLog) (hinvites : db'.invites = db.invites)
    (hconsistent : db'.Consistent) (hemails : (db'.users.map User.email).Nodup) :
    SoundFrom db db' := by
  have hlogged : db.auditLog ⊆ db'.auditLog := by
    rw [hlog]
    exact List.Subset.refl _
  have hkept : db.memberships ⊆ db'.memberships := by
    rw [hmembers]
    exact List.subset_append_left _ _
  have hnone : ∀ m ∈ db.memberships, m.orgId ≠ orgId := by
    rintro m hm rfl
    exact hnew (hdb.orgs m hm)
  refine ⟨⟨⟨fun o ho => ?_, fun before m after hsplit hearlier => ?_, fun row hrow => ?_⟩,
    hconsistent, fun m hm => ?_, fun invite hinvite => ?_, hemails⟩, hkept, hlogged⟩
  · rw [hmembers, List.find?_append]
    rw [horgs, List.mem_append, List.mem_singleton] at ho
    obtain ho | rfl := ho
    · obtain ⟨m, hfirst, hadmin⟩ := hdb.founded o ho
      rw [hfirst]
      exact ⟨m, rfl, hadmin⟩
    · have hfirst : db.memberships.find? (fun m => m.orgId = o) = none :=
        List.find?_eq_none.mpr fun m hm => by simpa using hnone m hm
      rw [hfirst]
      exact ⟨⟨o, userId, .admin⟩, by simp, rfl⟩
  · rw [hmembers, ← Option.toList_some] at hsplit
    obtain ⟨after', hold⟩ | ⟨rfl, hlast⟩ := split_append_toList hsplit
    · obtain ⟨inviter, hmem, inviteId, hoffered, hjoined⟩ :=
        hdb.invited before m after' hold hearlier
      exact ⟨inviter, hmem, inviteId, hoffered.mono hlogged, hjoined.mono hlogged⟩
    · cases hlast
      obtain ⟨m', hm', horg⟩ := hearlier
      exact absurd horg (hnone m' hm')
  · exact (hdb.logged row (hlog ▸ hrow)).mono hkept
  · rw [horgs]
    rw [hmembers, List.mem_append, List.mem_singleton] at hm
    obtain hm | rfl := hm
    · exact List.mem_append_left _ (hdb.orgs m hm)
    · exact List.mem_append_right _ List.mem_cons_self
  · obtain ⟨inviter, hmem, hoffered⟩ := hdb.invites invite (hinvites ▸ hinvite)
    exact ⟨inviter, hkept hmem, hoffered.mono hlogged⟩

theorem Db.Sound.invitesFrom (hdb : db.Sound) (h : InvitesFrom db db')
    (hlog : db.auditLog ⊆ db'.auditLog) : ∀ invite ∈ db'.invites, ∃ inviter ∈ db.memberships,
      Offered db' inviter invite.orgId invite.id invite.role := by
  intro invite' hinvite'
  obtain ⟨invite, hinvite, hid, horg, hrole⟩ := h invite' hinvite'
  obtain ⟨inviter, hmem, hoffered⟩ := hdb.invites invite hinvite
  rw [hid, horg, hrole]
  exact ⟨inviter, hmem, hoffered.mono hlog⟩

end Growth

/-! ## Calls of members -/

namespace Call

/-- The call is the user's, in the organisation. -/
def MadeBy (orgId userId : ℕ) : Call → Prop
  | .createProject o _ _ a | .updateProjectSampling o _ _ a | .deleteProject o _ a
  | .createDsnKey o _ a | .revokeDsnKey o _ _ a | .createChannel o _ _ _ a
  | .updateChannel o _ _ _ a | .deleteChannel o _ a | .setIssueStatus o _ _ _ a
  | .assignIssue o _ _ _ a | .deleteIssue o _ _ a | .createInvite o _ _ a =>
    o = orgId ∧ a = some userId
  | .acceptInvite _ _ _ => False

def needsAdmin : Call → Bool
  | .setIssueStatus _ _ _ _ _ | .assignIssue _ _ _ _ _ | .acceptInvite _ _ _ => false
  | _ => true

end Call

section Calls

variable {lib : Libraries} {srv : Server} {draw : Drawn} {db db₁ : Db} {org user : ℕ} {call : Call}

theorem leaves_madeBy {t : Trail} (hmade : call.MadeBy org user) (h : call.Leaves lib draw db t) :
    t.orgId = org ∧ t.actorUserId = some user ∧
      (t.action ∉ memberActions → call.needsAdmin = true) := by
  cases call with
  | setIssueStatus =>
      obtain ⟨rfl, rfl⟩ := hmade
      obtain ⟨-, rfl⟩ | ⟨-, rfl⟩ | ⟨-, rfl⟩ := h
      all_goals exact ⟨rfl, rfl, fun hno => absurd (by simp [memberActions]) hno⟩
  | assignIssue =>
      obtain ⟨rfl, rfl⟩ := hmade
      cases h
      exact ⟨rfl, rfl, fun hno => absurd (by simp [memberActions]) hno⟩
  | acceptInvite => cases hmade
  | _ =>
      obtain ⟨rfl, rfl⟩ := hmade
      cases h
      exact ⟨rfl, rfl, fun _ => rfl⟩

/-- A call of a member adds no members. -/
theorem madeBy_keeps (lib : Libraries) (srv : Server) (draw : Drawn) (db : Db)
    (hmade : call.MadeBy org user) :
    let db' := (call.run lib srv draw db).2
    db'.orgs = db.orgs ∧ db'.memberships = db.memberships ∧
      ((db.users.map User.email).Nodup → (db'.users.map User.email).Nodup) := by
  refine call_keeps (I := fun db' => db'.orgs = db.orgs ∧ db'.memberships = db.memberships ∧
    ((db.users.map User.email).Nodup → (db'.users.map User.email).Nodup))
    (fun scope q db₁ r db₂ hq hexec hI => ?_) db ⟨rfl, rfl, id⟩
  obtain ⟨horgs, hmembers, hemails⟩ := hI
  have hwrites := accountWrites_exec hexec
  refine ⟨hwrites.orgs.trans horgs, (hwrites.memberships ?_).trans hmembers,
    fun h => hwrites.emails (hemails h)⟩
  rintro orgId userId role rfl
  cases call with
  | acceptInvite => cases hmade
  | _ => cases hq

theorem madeBy_invites (hmade : call.MadeBy org user)
    (hno : ∀ o email role a, call ≠ .createInvite o email role a) :
    InvitesFrom db (call.run lib srv draw db).2 := by
  refine call_keeps (I := InvitesFrom db) (fun scope q db₁ r db₂ hq hexec hI => ?_) db
    invitesFrom_refl
  refine invitesFrom_trans hI ((accountWrites_exec hexec).invites ?_)
  rintro id orgId email role hash expiresAt rfl
  cases call with
  | createInvite o email role a => exact hno o email role a rfl
  | acceptInvite => cases hmade
  | _ => cases hq

theorem MemberRole.ofStr?_str {s : PyStr} {role : MemberRole}
    (h : MemberRole.ofStr? s = some role) : role.str = s := by
  unfold MemberRole.ofStr? at h
  split at h
  · next hs =>
      cases h
      exact hs.symm
  · split at h
    · next hs =>
        cases h
        exact hs.symm
    · cases h

theorem session_holds {α : Type} {scope : Scope ℕ} {body : Tx α} {I : Db → Prop} (hdb : I db)
    (h : Guarantees srv scope body db fun _ db' => I db') : I (session srv scope body db).2 := by
  obtain ⟨e, hs⟩ | ⟨a, db', hs, hI⟩ := session_cases h
  · exact congrArg Prod.snd hs ▸ hdb
  · exact congrArg Prod.snd hs ▸ hI

/-- The invites that the tables have more than before are offers of the actor. -/
def Offers (org : ℕ) (actor : Option ℕ) (db db' : Db) : Prop :=
  ∀ invite ∈ db'.invites, invite ∈ db.invites ∨ ∀ inviter : Membership, inviter.orgId = org →
    inviter.role = .admin → actor = some inviter.userId →
      Offered db' inviter invite.orgId invite.id invite.role

theorem createInvite_offers {email role : PyStr} {actor : Option ℕ} :
    Offers org actor db (createInvite lib srv draw org email role actor db).2 := by
  have hkept : Offers org actor db db := fun _ h => .inl h
  unfold createInvite
  split
  · exact hkept
  cases hhash : hashInviteToken lib draw.token with
  | error e => exact hkept
  | ok tokenHash =>
      refine session_holds (I := Offers org actor db) hkept
        (guarantees_execute fun _ db₁ hinsert => guarantees_bind ?_)
      refine guarantees_raiseError fun _ _ => ⟨trivial, fun _ db₂ haudit => ?_⟩
      refine guarantees_pure fun invite hinvite => ?_
      obtain ⟨row, rfl, hrow⟩ := exec_insertAudit_row haudit
      have hst := exec_ok hinsert
      obtain ⟨email', -, hst⟩ := bind_ok hst
      obtain ⟨hash, -, hst⟩ := bind_ok hst
      obtain ⟨_, -, hst⟩ := bind_ok hst
      obtain ⟨offered, hoffered, hst⟩ := bind_ok hst
      obtain ⟨_, -, hst⟩ := bind_ok hst
      cases hst
      obtain hold | hnew := List.mem_append.mp hinvite
      · exact .inl hold
      cases List.mem_singleton.mp hnew
      refine .inr fun inviter horg hadmin hactor => ⟨horg, hadmin, row, ?_, hrow.orgId,
        hrow.action, hrow.actorUserId.trans hactor, hrow.targetId, ?_⟩
      · exact List.mem_append_right _ List.mem_cons_self
      · rw [hrow.data, MemberRole.ofStr?_str (checkValue_ok hoffered)]
        rfl

/-- A call of a member, with the role it asks for. -/
theorem madeBy_sound {m : Membership} (hdb : db.Sound) (hmade : call.MadeBy org user)
    (hm : m ∈ db.memberships) (horg : m.orgId = org) (huser : m.userId = user)
    (hadmin : call.needsAdmin = true → m.role = .admin) :
    SoundFrom db (call.run lib srv draw db).2 := by
  obtain ⟨hsame, -⟩ | ⟨⟨t, tables, ⟨hleaves, -⟩, -, hchange⟩, -⟩ :=
    call_allOrNothing lib srv draw call db
  · rw [hsame]
    exact hdb.refl
  obtain ⟨horgs, hmembers, hemails⟩ := madeBy_keeps lib srv draw db hmade
  obtain ⟨row, hlog, hrow⟩ := hchange.logged
  obtain ⟨htorg, htactor, htaction⟩ := leaves_madeBy hmade hleaves
  have hkept : db.auditLog ⊆ (call.run lib srv draw db).2.auditLog := by
    rw [hlog]
    exact List.subset_append_left _ _
  refine hdb.grow none [row] horgs (by simpa using hmembers) (by simp) hlog
    (List.forall_mem_singleton.mpr ⟨m, hmembers ▸ hm, ?_, ?_, fun hno => ?_⟩) ?_
    (hchange.consistent hdb.consistent) (hemails hdb.emails)
  · rw [hrow.orgId, htorg, horg]
  · rw [hrow.actorUserId, htactor, huser]
  · exact hadmin (htaction (hrow.action ▸ hno))
  · by_cases hinvite : ∃ o email role a, call = .createInvite o email role a
    · obtain ⟨o, email, role, a, rfl⟩ := hinvite
      obtain ⟨rfl, rfl⟩ := hmade
      intro invite hmem
      obtain hold | hnew := createInvite_offers invite hmem
      · obtain ⟨inviter, hinviter, hoffered⟩ := hdb.invites invite hold
        exact ⟨inviter, hinviter, hoffered.mono hkept⟩
      · exact ⟨m, hm, hnew m horg (hadmin rfl) (congrArg some huser.symm)⟩
    · push Not at hinvite
      exact hdb.invitesFrom (madeBy_invites hmade hinvite) hkept

end Calls

/-! ## Acceptances -/

section Acceptances

variable {lib : Libraries} {srv : Server} {draw : Drawn} {db db₁ : Db} {invite : Invite}
  {email : PyStr} {userId : ℕ}

/-- What a grant does to members and log. -/
structure Joins (draw : Drawn) (invite : Invite) (email : PyStr) (userId : ℕ) (db db₁ : Db) :
    Prop where
  members : ∃ new : Option Membership, db₁.memberships = db.memberships ++ new.toList ∧
    ∀ m ∈ new, m = ⟨invite.orgId, userId, invite.role⟩
  isMember : ∃ m ∈ db₁.memberships, m.orgId = invite.orgId ∧ m.userId = userId
  logged : ∃ row : AuditRow, db₁.auditLog = db.auditLog ++ [row] ∧
    row.Holds (acceptedEntry draw invite email userId)

theorem exec_insertMembership_joins {scope : Scope ℕ} {orgId : ℕ} {role : MemberRole} {u : Unit}
    (h : exec srv scope (.insertMembership orgId userId role) db = (.ok u, db₁)) :
    (∃ new : Option Membership, db₁.memberships = db.memberships ++ new.toList ∧
      ∀ m ∈ new, m = ⟨orgId, userId, role⟩) ∧
    ∃ m ∈ db₁.memberships, m.orgId = orgId ∧ m.userId = userId := by
  have hst := exec_ok h
  obtain ⟨_, -, hst⟩ := bind_ok hst
  split at hst
  · next hany =>
      cases hst
      obtain ⟨m, hm, hkey⟩ := List.any_eq_true.mp hany
      refine ⟨⟨none, by simp, by simp⟩, m, hm, ?_⟩
      simpa using hkey
  · obtain ⟨_, -, hst⟩ := bind_ok hst
    cases hst
    exact ⟨⟨some ⟨orgId, userId, role⟩, rfl, fun m hm => (Option.some.inj hm).symm⟩, _,
      List.mem_append_right _ List.mem_cons_self, rfl, rfl⟩

theorem grant_joins {passwordHash : Option PyStr} {acc : Accepted}
    (h : grant lib srv draw invite email userId passwordHash db = (.ok (some acc), db₁)) :
    Joins draw invite email userId db db₁ := by
  refine session_ok (fun _ db₁ => Joins draw invite email userId db db₁) (guarantees_bind ?_) h
  refine Program.wp_mono (fun _ db₂ ⟨hmembers, hlog⟩ => ?_) insertNewUser_tables
  refine guarantees_execute fun _ db₃ hinsert => guarantees_execute fun _ db₄ haccept => ?_
  refine guarantees_bind (guarantees_raiseError fun _ _ => ⟨trivial, fun _ db₅ haudit => ?_⟩)
  refine guarantees_pure ?_
  obtain ⟨row, rfl, hrow⟩ := exec_insertAudit_row haudit
  have hsame : db₄.memberships = db₃.memberships :=
    memberships_statement (fun _ _ _ heq => by cases heq) (exec_ok haccept)
  have hlog₄ : db₄.auditLog = db.auditLog :=
    (exec_acceptInvite haccept).auditLog.trans ((exec_insertMembership hinsert).auditLog.trans hlog)
  obtain ⟨⟨new, hnew, heq⟩, m, hm, hkey⟩ := exec_insertMembership_joins hinsert
  refine ⟨⟨new, ?_, heq⟩, ⟨m, ?_, hkey⟩, row, by rw [hlog₄], hrow⟩
  · exact hsame.trans (hmembers ▸ hnew)
  · exact hsame.symm ▸ hm

/-- Organisations stay and no invite is made. -/
theorem grant_keepsAccounts (lib : Libraries) (srv : Server) (draw : Drawn) (db : Db)
    (invite : Invite) (email : PyStr) (userId : ℕ) (passwordHash : Option PyStr) :
    let db' := (grant lib srv draw invite email userId passwordHash db).2
    db'.orgs = db.orgs ∧ InvitesFrom db db' ∧
      ((db.users.map User.email).Nodup → (db'.users.map User.email).Nodup) := by
  have hstatements : StatementsKeep srv
      (fun q => ∀ id orgId email role hash expiresAt,
        q ≠ .insertInvite id orgId email role hash expiresAt)
      (fun db' => db'.orgs = db.orgs ∧ InvitesFrom db db' ∧
        ((db.users.map User.email).Nodup → (db'.users.map User.email).Nodup)) := by
    rintro scope q db₁ r db₂ hq hexec ⟨horgs, hinvites, hemails⟩
    have hwrites := accountWrites_exec hexec
    exact ⟨hwrites.orgs.trans horgs, invitesFrom_trans hinvites (hwrites.invites hq),
      fun h => hwrites.emails (hemails h)⟩
  refine keeps_session_of_issuesOnly hstatements ?_ db ⟨rfl, invitesFrom_refl, id⟩
  refine Program.issuesOnly_bind (issuesOnly_insertNewUser fun hash _ => by simp) fun _ => ?_
  refine Program.issuesOnly_bind (issuesOnly_execute (by simp)) fun _ => ?_
  refine Program.issuesOnly_bind (issuesOnly_execute (by simp)) fun _ => ?_
  exact issuesOnly_recorded fun _ => by simp

/-- A grant changes nothing, or someone takes up the offer. -/
theorem grant_sound {passwordHash : Option PyStr} (hdb : db.Sound)
    (hoffer : ∃ inviter ∈ db.memberships,
      Offered db inviter invite.orgId invite.id invite.role) :
    SoundFrom db (grant lib srv draw invite email userId passwordHash db).2 := by
  have haudited : (grant lib srv draw invite email userId passwordHash).Audited db
      (fun a => a = none) _ := grant_audited
  obtain ⟨hsame, -⟩ | ⟨⟨t, tables, -, -, hchange⟩, a, ha, hsome⟩ := haudited
  · exact hsame.symm ▸ hdb.refl
  obtain ⟨acc, rfl⟩ := Option.ne_none_iff_exists'.mp hsome
  obtain ⟨⟨new, hmembers, hnew⟩, ⟨m, hm, horg, huser⟩, row, hlog, hrow⟩ :=
    grant_joins (Prod.ext ha rfl)
  obtain ⟨horgs, hinvites, hemails⟩ :=
    grant_keepsAccounts lib srv draw db invite email userId passwordHash
  obtain ⟨inviter, hinviter, hoffered⟩ := hoffer
  have hkept : db.auditLog ⊆
      (grant lib srv draw invite email userId passwordHash db).2.auditLog :=
    fun r hr => hlog.symm ▸ List.mem_append_left _ hr
  refine hdb.grow new [row] horgs hmembers (fun m' hm' => ?_) hlog
    (List.forall_mem_singleton.mpr ⟨m, hm, horg.trans hrow.orgId.symm, ?_, fun hno => ?_⟩)
    (hdb.invitesFrom hinvites hkept) (hchange.consistent hdb.consistent) (hemails hdb.emails)
  · cases hnew m' hm'
    refine ⟨hoffered.ofOrg ▸ hdb.orgs inviter hinviter, inviter, hinviter, invite.id,
      hoffered.mono hkept, row, ?_, hrow.orgId, hrow.action, hrow.actorUserId, hrow.targetId⟩
    exact hlog.symm ▸ List.mem_append_right _ List.mem_cons_self
  · rw [hrow.actorUserId, huser]
    rfl
  · rw [hrow.action] at hno
    exact absurd (by simp [acceptedEntry, memberActions]) hno

end Acceptances

end Crashlens.Tenant
