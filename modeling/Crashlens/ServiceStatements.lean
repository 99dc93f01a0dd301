import Crashlens.AuditTrail

/-!
# The statements a service issues

`Call.May` lists what a call asks of the database. A property of the tables that every statement in
the list keeps is kept by the call, whatever the server answers, since a session that raises takes
its statements back.
-/

namespace Crashlens.Tenant

open Transactional RowSecurity

/-- The statements of a call, next to the audit row; the keys it inserts are drawn. -/
def Call.May (draw : Drawn) : Call → Request → Prop
  | _, .insertAudit _ => True
  | .createProject orgId _ _ _, .insertProject id orgId' _ _ _ => id = draw.id ∧ orgId' = orgId
  | .updateProjectSampling _ _ rate _, .updateSampling rate' _ => rate' = rate
  | .deleteProject _ projectId _, .deleteProject projectId' => projectId' = projectId
  | .createDsnKey _ _ _, .selectProject _ => True
  | .createDsnKey orgId projectId _, .insertDsnKey id orgId' projectId' publicKey =>
    id = draw.id ∧ orgId' = orgId ∧ projectId' = projectId ∧ publicKey = draw.token
  | .revokeDsnKey _ projectId keyId _, .revokeDsnKey _ keyId' projectId' =>
    keyId' = keyId ∧ projectId' = projectId
  | .createChannel _ _ _ _ _, .selectProject _ => True
  | .createChannel _ _ _ _ _, .insertChannel id _ _ _ _ => id = draw.id
  | .updateChannel _ _ _ _ _, .selectChannel _ => True
  | .updateChannel _ channelId _ _ _, .updateChannel _ _ channelId' => channelId' = channelId
  | .deleteChannel _ channelId _, .deleteChannel channelId' => channelId' = channelId
  | .setIssueStatus _ _ _ _ _, .selectProject _ => True
  | .setIssueStatus _ _ issueId _ _, .updateStatus _ issueId' _ => issueId' = issueId
  | .assignIssue _ _ _ _ _, .selectProject _ => True
  | .assignIssue _ _ _ _ _, .selectMember _ => True
  | .assignIssue _ _ _ _ _, .selectIssue _ _ => True
  | .assignIssue _ _ issueId _ _, .updateAssignee _ issueId' _ => issueId' = issueId
  | .deleteIssue _ _ issueId _, .deleteIssue issueId' _ => issueId' = issueId
  | .createInvite orgId _ _ _, .insertInvite id orgId' _ _ _ _ => id = draw.id ∧ orgId' = orgId
  | .acceptInvite _ _ _, .selectInvite _ => True
  | .acceptInvite _ _ _, .selectUser _ => True
  | .acceptInvite _ _ _, .insertUser id _ _ => id = draw.id
  | .acceptInvite _ _ _, .insertMembership _ _ _ => True
  | .acceptInvite _ _ _, .acceptInvite _ _ => True
  | _, _ => False

def Request.writesChannel : Request → Bool
  | .insertChannel _ _ _ _ _ | .updateChannel _ _ _ => true
  | _ => false

/-- Where a row of `dsn_keys` comes from. -/
def KeyOrigin (q : Request) (db : Db) (k' : DsnKey) : Prop :=
  k' ∈ db.dsnKeys ∨ (∃ now, ∃ k ∈ db.dsnKeys, k' = k.revoke now) ∨
    ∃ id orgId projectId publicKey, q = .insertDsnKey id orgId projectId publicKey ∧
      k'.id = id ∧ k'.publicKey.val = publicKey

/-- No two rows have the same public key. -/
def Db.KeysUnique (db : Db) : Prop := (db.dsnKeys.map fun k => k.publicKey.val).Nodup

/-- What a statement does to the channels and the keys. -/
structure Writes (q : Request) (db db' : Db) : Prop where
  channels : q.writesChannel = false → db'.channels ⊆ db.channels
  dsnKeys : ∀ k' ∈ db'.dsnKeys, KeyOrigin q db k'
  keysUnique : db.KeysUnique → db'.KeysUnique

section Statements

variable {srv : Server} {scope : Scope ℕ} {db db' : Db}

theorem writes_none {q : Request} (hchannels : db'.channels = db.channels)
    (hdsnKeys : db'.dsnKeys = db.dsnKeys) : Writes q db db' where
  channels _ := hchannels ▸ List.Subset.refl _
  dsnKeys _ hk := .inl (hdsnKeys ▸ hk)
  keysUnique h := by
    rw [Db.KeysUnique, hdsnKeys]
    exact h

theorem writes_channels {q : Request} (hq : q.writesChannel = true)
    (hdsnKeys : db'.dsnKeys = db.dsnKeys) : Writes q db db' where
  channels h := by
    rw [hq] at h
    cases h
  dsnKeys _ hk := .inl (hdsnKeys ▸ hk)
  keysUnique h := by
    rw [Db.KeysUnique, hdsnKeys]
    exact h

theorem writes_deleteProject {projectId : ℕ} {p : Project → Bool} :
    Writes (.deleteProject projectId) db (db.deleteProjects scope p) where
  channels _ := List.Sublist.subset List.filter_sublist
  dsnKeys _ hk := .inl (mem_cascade.mp hk).1
  keysUnique h := h.sublist (List.filter_sublist.map _)

theorem writes_revokeDsnKey {now : Timestamp} {keyId projectId : ℕ} {p : DsnKey → Bool} :
    Writes (.revokeDsnKey now keyId projectId) db
      { db with dsnKeys := update scope p (DsnKey.revoke now) db.dsnKeys } where
  channels _ := List.Subset.refl _
  dsnKeys k' hk := by
    obtain ⟨k, hmem, rfl | rfl⟩ := mem_update hk
    · exact .inl hmem
    · exact .inr (.inl ⟨now, k, hmem, rfl⟩)
  keysUnique h := by
    have hsame : (update scope p (DsnKey.revoke now) db.dsnKeys).map (fun k => k.publicKey.val) =
        db.dsnKeys.map fun k => k.publicKey.val := map_update fun _ => rfl
    rw [Db.KeysUnique, hsame]
    exact h

theorem writes_insertDsnKey {id orgId projectId : ℕ} {publicKey : PyStr} {row : DsnKey}
    (hid : row.id = id) (hkey : row.publicKey.val = publicKey)
    (hnew : ∀ k ∈ db.dsnKeys, k.publicKey ≠ row.publicKey) :
    Writes (.insertDsnKey id orgId projectId publicKey) db
      { db with dsnKeys := db.dsnKeys ++ [row] } where
  channels _ := List.Subset.refl _
  dsnKeys k' hk := by
    obtain hk | hk := List.mem_append.mp hk
    · exact .inl hk
    · rw [List.mem_singleton] at hk
      subst hk
      exact .inr (.inr ⟨id, orgId, projectId, publicKey, rfl, hid, hkey⟩)
  keysUnique h := by
    rw [Db.KeysUnique, List.map_append, List.map_singleton, ← List.concat_eq_append]
    refine h.concat fun hmem => ?_
    obtain ⟨k, hk, heq⟩ := List.mem_map.mp hmem
    exact hnew k hk (Subtype.ext heq)

theorem exec_writes {q : Request} {r : Response q} (h : exec srv scope q db = (.ok r, db')) :
    Writes q db db' := by
  have hst := exec_ok h
  cases q with
  | insertChannel =>
      obtain ⟨_, -, hst⟩ := bind_ok hst
      obtain ⟨_, -, hst⟩ := bind_ok hst
      obtain ⟨_, -, hst⟩ := bind_ok hst
      obtain ⟨_, -, hst⟩ := bind_ok hst
      obtain ⟨_, -, hst⟩ := bind_ok hst
      cases hst
      exact writes_channels rfl rfl
  | updateChannel =>
      obtain ⟨_, -, hst⟩ := bind_ok hst
      cases hst
      exact writes_channels rfl rfl
  | deleteProject =>
      cases hst
      exact writes_deleteProject
  | deleteChannel =>
      cases hst
      exact ⟨fun _ => List.Sublist.subset List.filter_sublist, fun _ hk => .inl hk, id⟩
  | insertDsnKey =>
      obtain ⟨publicKey, hkey, hst⟩ := bind_ok hst
      obtain ⟨_, -, hst⟩ := bind_ok hst
      obtain ⟨_, -, hst⟩ := bind_ok hst
      obtain ⟨_, hunique, hst⟩ := bind_ok hst
      cases hst
      refine writes_insertDsnKey rfl (bindText_val hkey) fun k hk => ?_
      have hall := List.all_eq_true.mp (require_ok hunique) k hk
      exact of_decide_eq_true (Bool.and_eq_true_iff.mp hall).2
  | revokeDsnKey =>
      cases hst
      exact writes_revokeDsnKey
  | insertProject =>
      obtain ⟨_, -, hst⟩ := bind_ok hst
      obtain ⟨_, -, hst⟩ := bind_ok hst
      obtain ⟨_, -, hst⟩ := bind_ok hst
      obtain ⟨_, -, hst⟩ := bind_ok hst
      obtain ⟨_, -, hst⟩ := bind_ok hst
      obtain ⟨_, -, hst⟩ := bind_ok hst
      cases hst
      exact writes_none rfl rfl
  | updateAssignee =>
      obtain ⟨_, -, hst⟩ := bind_ok hst
      cases hst
      exact writes_none rfl rfl
  | insertInvite =>
      obtain ⟨_, -, hst⟩ := bind_ok hst
      obtain ⟨_, -, hst⟩ := bind_ok hst
      obtain ⟨_, -, hst⟩ := bind_ok hst
      obtain ⟨_, -, hst⟩ := bind_ok hst
      obtain ⟨_, -, hst⟩ := bind_ok hst
      cases hst
      exact writes_none rfl rfl
  | selectInvite =>
      obtain ⟨_, -, hst⟩ := bind_ok hst
      cases hst
      exact writes_none rfl rfl
  | selectUser =>
      obtain ⟨_, -, hst⟩ := bind_ok hst
      cases hst
      exact writes_none rfl rfl
  | insertUser =>
      obtain ⟨_, -, hst⟩ := bind_ok hst
      obtain ⟨_, -, hst⟩ := bind_ok hst
      obtain ⟨_, -, hst⟩ := bind_ok hst
      cases hst
      exact writes_none rfl rfl
  | insertMembership =>
      obtain ⟨_, -, hst⟩ := bind_ok hst
      split at hst
      · cases hst
        exact writes_none rfl rfl
      · obtain ⟨_, -, hst⟩ := bind_ok hst
        cases hst
        exact writes_none rfl rfl
  | insertAudit =>
      obtain ⟨row, rfl, -⟩ := exec_insertAudit_row h
      exact writes_none rfl rfl
  | _ =>
      cases hst
      exact writes_none rfl rfl

end Statements

/-- Whatever the service does, the property of the tables is kept. -/
def Service.Keeps {α : Type} (m : Service α) (I : Db → Prop) : Prop := ∀ db, I db → I (m db).2

/-- Every one of these statements keeps the property. -/
def StatementsKeep (srv : Server) (P : Request → Prop) (I : Db → Prop) : Prop :=
  ∀ scope q db r db', P q → exec srv scope q db = (.ok r, db') → I db → I db'

section Rules

variable {srv : Server} {scope : Scope ℕ} {I : Db → Prop} {P : Request → Prop} {α β : Type}

theorem keeps_pure {a : α} : (Service.pure a).Keeps I := fun _ h => h

theorem keeps_raise {e : ServiceError} : (Service.raise e : Service α).Keeps I := fun _ h => h

theorem keeps_ofExcept {x : Except ServiceError α} : (Service.ofExcept x).Keeps I := by
  cases x with
  | error e => exact keeps_raise
  | ok a => exact keeps_pure

theorem keeps_bind {m : Service β} {f : β → Service α} (hm : m.Keeps I) (hf : ∀ b, (f b).Keeps I) :
    (m.bind f).Keeps I := by
  intro db hdb
  have hnext := hm db hdb
  unfold Service.bind
  match hmdb : m db with
  | (.error e, db') =>
      rw [hmdb] at hnext
      exact hnext
  | (.ok b, db') =>
      rw [hmdb] at hnext
      exact hf b db' hnext

theorem keeps_orOnIntegrityError {m : Service α} {default : α} (hm : m.Keeps I) :
    (m.orOnIntegrityError default).Keeps I := by
  intro db hdb
  have hnext := hm db hdb
  unfold Service.orOnIntegrityError
  split
  · next db' hmdb =>
      rw [hmdb] at hnext
      exact hnext
  · exact hnext

theorem keeps_session {body : Tx α}
    (h : ∀ db, I db → Guarantees srv scope body db fun _ db' => I db') :
    (session srv scope body).Keeps I := by
  intro db hdb
  obtain ⟨e, hs⟩ | ⟨a, db', hs, hI⟩ := session_cases (h db hdb)
  · rw [hs]
    exact hdb
  · rw [hs]
    exact hI

theorem guarantees_keeps {body : Tx α} {db : Db} (hI : StatementsKeep srv P I)
    (h : body.IssuesOnly P) (hdb : I db) : Guarantees srv scope body db fun _ db' => I db' :=
  Program.wp_of_issuesOnly (fun _ _ _ _ hq hexec hs => hI _ _ _ _ _ hq hexec hs) h hdb

theorem keeps_session_of_issuesOnly {body : Tx α} (hI : StatementsKeep srv P I)
    (h : body.IssuesOnly P) : (session srv scope body).Keeps I :=
  keeps_session fun _ hdb => guarantees_keeps hI h hdb

theorem issuesOnly_execute {q : Request} (hq : P q) : (execute q).IssuesOnly P :=
  Program.issuesOnly_call hq fun _ => Program.issuesOnly_pure _

theorem issuesOnly_oneOrNone {rows : List α} : (oneOrNone rows).IssuesOnly P := by
  match rows with
  | [] => exact Program.issuesOnly_pure _
  | [row] => exact Program.issuesOnly_pure _
  | _ :: _ :: _ => exact Program.issuesOnly_raise _

theorem issuesOnly_one {rows : List α} : (one rows).IssuesOnly P := by
  match rows with
  | [] => exact Program.issuesOnly_raise _
  | [row] => exact Program.issuesOnly_pure _
  | _ :: _ :: _ => exact Program.issuesOnly_raise _

theorem issuesOnly_raiseError {x : Except ServiceError α} : (raiseError x).IssuesOnly P := by
  cases x with
  | error e => exact Program.issuesOnly_raise e
  | ok a => exact Program.issuesOnly_pure a

/-- A statement that gives at most one row. -/
theorem issuesOnly_found {rows : List β} {next : Option β → Tx α}
    (hnone : (next none).IssuesOnly P) (hsome : ∀ row, (next (some row)).IssuesOnly P) :
    ((oneOrNone rows).bind next).IssuesOnly P := by
  refine Program.issuesOnly_bind issuesOnly_oneOrNone fun found => ?_
  cases found with
  | none => exact hnone
  | some row => exact hsome row

theorem issuesOnly_loadProjectRow {projectId : ℕ} {next : Option Project → Tx α}
    (hselect : P (.selectProject projectId)) (hnone : (next none).IssuesOnly P)
    (hsome : ∀ row, (next (some row)).IssuesOnly P) :
    ((loadProjectRow projectId).bind next).IssuesOnly P := by
  have hload : (loadProjectRow projectId).IssuesOnly P :=
    Program.issuesOnly_bind (issuesOnly_execute hselect) fun _ => issuesOnly_oneOrNone
  refine Program.issuesOnly_bind hload fun found => ?_
  cases found with
  | none => exact hnone
  | some row => exact hsome row

variable {lib : Libraries} {draw : Drawn} {org : ℕ} {actor : Option ℕ}

/-- The end of a session. -/
theorem issuesOnly_recorded {action targetType : String} {targetId : Option PyStr}
    {data : Option Dict} {a : α} (haudit : ∀ entry, P (.insertAudit entry)) :
    ((record lib draw org actor action targetType targetId data).bind
      fun _ => .pure a).IssuesOnly P := by
  have hrecord : (record lib draw org actor action targetType targetId data).IssuesOnly P :=
    Program.issuesOnly_bind issuesOnly_raiseError fun _ => issuesOnly_execute (haudit _)
  exact Program.issuesOnly_bind hrecord fun _ => Program.issuesOnly_pure a

end Rules

/-! ## The services -/

section Services

variable {lib : Libraries} {srv : Server} {draw : Drawn} {I : Db → Prop} {org : ℕ}
  {actor : Option ℕ}

theorem createProject_keeps {name : PyStr} {platform : Option PyStr}
    (h : StatementsKeep srv ((Call.createProject org name platform actor).May draw) I) :
    (createProject lib srv draw org name platform actor).Keeps I :=
  keeps_orOnIntegrityError (keeps_session_of_issuesOnly h
    (Program.issuesOnly_bind (issuesOnly_execute ⟨rfl, rfl⟩) fun _ =>
      issuesOnly_recorded fun _ => trivial))

theorem updateProjectSampling_keeps {projectId : ℕ} {rate : PyFloat}
    (h : StatementsKeep srv ((Call.updateProjectSampling org projectId rate actor).May draw) I) :
    (updateProjectSampling lib srv draw org projectId rate actor).Keeps I :=
  keeps_session_of_issuesOnly h (Program.issuesOnly_bind (issuesOnly_execute rfl) fun _ =>
    issuesOnly_found (Program.issuesOnly_pure _) fun _ => issuesOnly_recorded fun _ => trivial)

theorem deleteProject_keeps {projectId : ℕ}
    (h : StatementsKeep srv ((Call.deleteProject org projectId actor).May draw) I) :
    (deleteProject lib srv draw org projectId actor).Keeps I :=
  keeps_session_of_issuesOnly h (Program.issuesOnly_bind (issuesOnly_execute rfl) fun _ =>
    issuesOnly_found (Program.issuesOnly_pure _) fun _ => issuesOnly_recorded fun _ => trivial)

theorem createDsnKey_keeps {projectId : ℕ}
    (h : StatementsKeep srv ((Call.createDsnKey org projectId actor).May draw) I) :
    (createDsnKey lib srv draw org projectId actor).Keeps I :=
  keeps_session_of_issuesOnly h (issuesOnly_loadProjectRow trivial (Program.issuesOnly_pure _)
    fun _ => Program.issuesOnly_bind (issuesOnly_execute ⟨rfl, rfl, rfl, rfl⟩) fun _ =>
      issuesOnly_recorded fun _ => trivial)

theorem revokeDsnKey_keeps {projectId keyId : ℕ}
    (h : StatementsKeep srv ((Call.revokeDsnKey org projectId keyId actor).May draw) I) :
    (revokeDsnKey lib srv draw org projectId keyId actor).Keeps I := by
  refine keeps_session_of_issuesOnly h
    (Program.issuesOnly_bind (issuesOnly_execute ⟨rfl, rfl⟩) fun rowcount => ?_)
  by_cases hcount : rowcount = 0
  · rw [if_pos hcount]
    exact Program.issuesOnly_pure _
  · rw [if_neg hcount]
    exact issuesOnly_recorded fun _ => trivial

theorem issuesOnly_channelScopeMissing {P : Request → Prop} {projectId : Option ℕ}
    (hselect : ∀ p, P (.selectProject p)) : (channelScopeMissing projectId).IssuesOnly P := by
  cases projectId with
  | none => exact Program.issuesOnly_pure _
  | some projectId =>
      have hload : (loadProjectId projectId).IssuesOnly P :=
        Program.issuesOnly_bind (issuesOnly_execute (hselect projectId)) fun _ =>
          Program.issuesOnly_bind issuesOnly_oneOrNone fun _ => Program.issuesOnly_pure _
      exact Program.issuesOnly_bind hload fun _ => Program.issuesOnly_pure _

theorem createChannel_keeps {channelType : PyStr} {config : Json} {projectId : Option ℕ}
    (h : StatementsKeep srv
      ((Call.createChannel org channelType config projectId actor).May draw) I) :
    (createChannel lib srv draw org channelType config projectId actor).Keeps I := by
  refine keeps_bind keeps_ofExcept fun normalized => keeps_session_of_issuesOnly h
    (Program.issuesOnly_bind (issuesOnly_channelScopeMissing fun _ => trivial) fun missing => ?_)
  cases missing with
  | true => exact Program.issuesOnly_pure _
  | false =>
      exact Program.issuesOnly_bind (issuesOnly_execute rfl) fun _ =>
        Program.issuesOnly_bind issuesOnly_raiseError fun _ =>
          issuesOnly_recorded fun _ => trivial

theorem updateChannel_keeps {channelId : ℕ} {enabled : Option Bool} {config : Json}
    (h : StatementsKeep srv ((Call.updateChannel org channelId enabled config actor).May draw) I) :
    (updateChannel lib srv draw org channelId enabled config actor).Keeps I := by
  refine keeps_session_of_issuesOnly h (Program.issuesOnly_bind (issuesOnly_execute trivial)
    fun _ => issuesOnly_found (Program.issuesOnly_pure _) fun current =>
      Program.issuesOnly_bind issuesOnly_raiseError fun replaced => ?_)
  split
  · exact Program.issuesOnly_pure _
  · exact Program.issuesOnly_bind (issuesOnly_execute rfl) fun _ =>
      Program.issuesOnly_bind issuesOnly_one fun _ => issuesOnly_recorded fun _ => trivial

theorem deleteChannel_keeps {channelId : ℕ}
    (h : StatementsKeep srv ((Call.deleteChannel org channelId actor).May draw) I) :
    (deleteChannel lib srv draw org channelId actor).Keeps I :=
  keeps_session_of_issuesOnly h (Program.issuesOnly_bind (issuesOnly_execute rfl) fun _ =>
    issuesOnly_found (Program.issuesOnly_pure _) fun _ => issuesOnly_recorded fun _ => trivial)

theorem setIssueStatus_keeps {projectId issueId : ℕ} {action : PyStr}
    (h : StatementsKeep srv
      ((Call.setIssueStatus org projectId issueId action actor).May draw) I) :
    (setIssueStatus lib srv draw org projectId issueId action actor).Keeps I := by
  unfold setIssueStatus
  cases actionOfStr? action with
  | none => exact keeps_raise
  | some a =>
      exact keeps_session_of_issuesOnly h (issuesOnly_loadProjectRow trivial
        (Program.issuesOnly_pure _) fun _ => Program.issuesOnly_bind (issuesOnly_execute rfl)
          fun _ => issuesOnly_found (Program.issuesOnly_pure _) fun _ =>
            issuesOnly_recorded fun _ => trivial)

theorem issuesOnly_requireMember {P : Request → Prop} {userId : Option ℕ}
    (hselect : ∀ u, P (.selectMember u)) : (requireMember userId).IssuesOnly P := by
  cases userId with
  | none => exact Program.issuesOnly_pure _
  | some userId =>
      exact Program.issuesOnly_bind (issuesOnly_execute (hselect userId)) fun _ =>
        issuesOnly_found (Program.issuesOnly_raise _) fun _ => Program.issuesOnly_pure _

theorem assignIssue_keeps {projectId issueId : ℕ} {userId : Option ℕ}
    (h : StatementsKeep srv ((Call.assignIssue org projectId issueId userId actor).May draw) I) :
    (assignIssue lib srv draw org projectId issueId userId actor).Keeps I := by
  refine keeps_bind (keeps_session_of_issuesOnly h (issuesOnly_loadProjectRow trivial
    (Program.issuesOnly_pure _) fun _ =>
      Program.issuesOnly_bind (issuesOnly_requireMember fun _ => trivial) fun _ =>
        Program.issuesOnly_bind (issuesOnly_execute rfl) fun _ =>
          issuesOnly_found (Program.issuesOnly_pure _) fun _ =>
            issuesOnly_recorded fun _ => trivial)) fun assigned => ?_
  cases assigned with
  | true =>
      exact keeps_session_of_issuesOnly h (issuesOnly_loadProjectRow trivial
        (Program.issuesOnly_pure _) fun _ =>
          Program.issuesOnly_bind (issuesOnly_execute trivial) fun _ => issuesOnly_oneOrNone)
  | false => exact keeps_pure

theorem deleteIssue_keeps {projectId issueId : ℕ}
    (h : StatementsKeep srv ((Call.deleteIssue org projectId issueId actor).May draw) I) :
    (deleteIssue lib srv draw org projectId issueId actor).Keeps I :=
  keeps_session_of_issuesOnly h (Program.issuesOnly_bind (issuesOnly_execute rfl) fun _ =>
    issuesOnly_found (Program.issuesOnly_pure _) fun _ => issuesOnly_recorded fun _ => trivial)

theorem createInvite_keeps {email role : PyStr}
    (h : StatementsKeep srv ((Call.createInvite org email role actor).May draw) I) :
    (createInvite lib srv draw org email role actor).Keeps I := by
  unfold createInvite
  split
  · exact keeps_raise
  · exact keeps_bind keeps_ofExcept fun _ => keeps_session_of_issuesOnly h
      (Program.issuesOnly_bind (issuesOnly_execute ⟨rfl, rfl⟩) fun _ =>
        issuesOnly_recorded fun _ => trivial)

theorem issuesOnly_insertNewUser {P : Request → Prop} {userId : ℕ} {email : PyStr}
    {passwordHash : Option PyStr}
    (hinsert : ∀ hash ∈ passwordHash, P (.insertUser userId email hash)) :
    (insertNewUser userId email passwordHash).IssuesOnly P := by
  cases passwordHash with
  | none => exact Program.issuesOnly_pure _
  | some passwordHash => exact issuesOnly_execute (hinsert passwordHash rfl)

/-- Only a user who is created gets the drawn uuid. -/
theorem grant_keeps {token email password : PyStr} {invite : Invite} {userId : ℕ}
    {passwordHash : Option PyStr} (hnew : passwordHash ≠ none → userId = draw.id)
    (h : StatementsKeep srv ((Call.acceptInvite token email password).May draw) I) :
    (grant lib srv draw invite email userId passwordHash).Keeps I := by
  have huser : (insertNewUser userId email passwordHash).IssuesOnly
      ((Call.acceptInvite token email password).May draw) :=
    issuesOnly_insertNewUser fun hash hhash => hnew (fun hnone => nomatch hnone ▸ hhash)
  exact keeps_session_of_issuesOnly h (Program.issuesOnly_bind huser fun _ =>
    Program.issuesOnly_bind (issuesOnly_execute trivial) fun _ =>
      Program.issuesOnly_bind (issuesOnly_execute trivial) fun _ =>
        issuesOnly_recorded fun _ => trivial)

theorem acceptOpenInvite_keeps {token email password : PyStr} {invite : Invite}
    (h : StatementsKeep srv ((Call.acceptInvite token email password).May draw) I) :
    (acceptOpenInvite lib srv draw invite email password).Keeps I := by
  refine keeps_bind (keeps_session_of_issuesOnly h (Program.issuesOnly_bind
    (issuesOnly_execute trivial) fun _ => issuesOnly_oneOrNone)) fun user => ?_
  cases user with
  | some existing =>
      refine keeps_bind keeps_ofExcept fun verified => ?_
      cases verified with
      | true => exact grant_keeps (fun hsome => absurd rfl hsome) h
      | false => exact keeps_pure
  | none =>
      dsimp only
      split
      · exact keeps_raise
      · exact keeps_bind keeps_ofExcept fun _ => grant_keeps (fun _ => rfl) h

theorem acceptInvite_keeps {token email password : PyStr}
    (h : StatementsKeep srv ((Call.acceptInvite token email password).May draw) I) :
    (acceptInvite lib srv draw token email password).Keeps I := by
  refine keeps_bind keeps_ofExcept fun tokenHash => keeps_bind (keeps_session_of_issuesOnly h
    (Program.issuesOnly_bind (issuesOnly_execute trivial) fun _ => issuesOnly_oneOrNone))
    fun found => ?_
  cases found with
  | none => exact keeps_pure
  | some invite =>
      dsimp only
      split
      · exact keeps_pure
      · split
        · exact keeps_pure
        · exact acceptOpenInvite_keeps h

theorem call_keeps {call : Call} (h : StatementsKeep srv (call.May draw) I) :
    (call.run lib srv draw).Keeps I := by
  cases call with
  | createProject => exact createProject_keeps h
  | updateProjectSampling => exact updateProjectSampling_keeps h
  | deleteProject => exact deleteProject_keeps h
  | createDsnKey => exact createDsnKey_keeps h
  | revokeDsnKey => exact revokeDsnKey_keeps h
  | createChannel => exact createChannel_keeps h
  | updateChannel => exact updateChannel_keeps h
  | deleteChannel => exact deleteChannel_keeps h
  | setIssueStatus => exact setIssueStatus_keeps h
  | assignIssue => exact assignIssue_keeps h
  | deleteIssue => exact deleteIssue_keeps h
  | createInvite => exact createInvite_keeps h
  | acceptInvite => exact acceptInvite_keeps h

theorem call_consistent {call : Call} {db : Db} (hdb : db.Consistent) :
    (call.run lib srv draw db).2.Consistent := by
  obtain hsame | ⟨t, hchange⟩ : _ ∨ ∃ t, AuditedChange t db _ := call_step draw call
  · rw [hsame]
    exact hdb
  · exact hchange.consistent hdb

theorem call_keysUnique {call : Call} {db : Db} (hdb : db.KeysUnique) :
    (call.run lib srv draw db).2.KeysUnique :=
  call_keeps (fun _ _ _ _ _ _ hexec => (exec_writes hexec).keysUnique) db hdb

theorem twoOrganisations_consistent : twoOrganisations.Consistent where
  projectIds := by decide
  issueIds := by decide
  dsnKeys := by
    refine List.forall_mem_cons.mpr ⟨?_, List.forall_mem_singleton.mpr ?_⟩
    · rintro _ ⟨⟩
      exact ⟨_, List.mem_cons_self, rfl, rfl⟩
    · rintro _ ⟨⟩
      exact ⟨_, List.mem_cons_of_mem _ List.mem_cons_self, rfl, rfl⟩
  issues := fun _ h => nomatch h
  releases := fun _ h => nomatch h
  channels := fun _ h => nomatch h
  comments := fun _ h => nomatch h

end Services

/-! ## Keys that are out of use -/

/-- No active row has the public key. -/
def Db.Closed (publicKey : PyStr) (db : Db) : Prop :=
  ∀ k ∈ db.dsnKeys, k.publicKey.val = publicKey → k.active = false

section Closed

variable {lib : Libraries} {srv : Server} {draw : Drawn} {db : Db}

theorem may_insertDsnKey {call : Call} {id orgId projectId : ℕ} {publicKey : PyStr}
    (h : call.May draw (.insertDsnKey id orgId projectId publicKey)) : publicKey = draw.token := by
  cases call with
  | createDsnKey => exact h.2.2.2
  | _ => cases h

/-- A key that is not drawn again stays out of use. -/
theorem call_closed {call : Call} {publicKey : PyStr} (hnew : draw.token ≠ publicKey)
    (hdb : db.Closed publicKey) : (call.run lib srv draw db).2.Closed publicKey := by
  refine call_keeps (I := Db.Closed publicKey) (fun scope q db r db' hq hexec hdb k' hk' hkey => ?_)
    db hdb
  obtain hk | ⟨now, k, hk, rfl⟩ | ⟨id, orgId, projectId, inserted, rfl, -, hval⟩ :=
    (exec_writes hexec).dsnKeys k' hk'
  · exact hdb k' hk hkey
  · rfl
  · exact absurd ((may_insertDsnKey hq).symm.trans (hval.symm.trans hkey)) hnew

theorem exec_revokeDsnKey_closed {db' : Db} {now : Timestamp} {k : DsnKey} {rowcount : ℕ}
    (hunique : db.KeysUnique) (hk : k ∈ db.dsnKeys)
    (h : exec srv (.tenant k.orgId) (.revokeDsnKey now k.id k.projectId) db =
      (.ok rowcount, db')) : db'.Closed k.publicKey.val := by
  cases exec_ok h
  intro k' hk' hkey
  obtain ⟨r, hr, rfl⟩ := List.mem_map.mp hk'
  split at hkey
  · next hsel => rw [if_pos hsel]; rfl
  · next hsel =>
      rw [if_neg hsel]
      have hsame : r = k := List.inj_on_of_nodup_map hunique hr hk hkey
      subst hsame
      have hadmits : (Scope.tenant r.orgId).admits (tenant r) = true := admits_tenant.mpr rfl
      by_contra hactive
      refine hsel (Bool.and_eq_true_iff.mpr ⟨hadmits, ?_⟩)
      simpa using hactive

/-- A revocation that returns leaves the key out of use, whether it was in use before or not. -/
theorem revokeDsnKey_closed {k : DsnKey} {actor : Option ℕ} {answer : Bool}
    (hunique : db.KeysUnique) (hk : k ∈ db.dsnKeys)
    (h : (revokeDsnKey lib srv draw k.orgId k.projectId k.id actor db).1 = .ok answer) :
    (revokeDsnKey lib srv draw k.orgId k.projectId k.id actor db).2.Closed k.publicKey.val := by
  have hkeep : StatementsKeep srv (fun q => ∃ entry, q = .insertAudit entry)
      (Db.Closed k.publicKey.val) := by
    rintro _ _ _ _ _ ⟨entry, rfl⟩ hexec hdb
    obtain ⟨row, rfl, -⟩ := exec_insertAudit_row hexec
    exact hdb
  have hcases : (∃ e, revokeDsnKey lib srv draw k.orgId k.projectId k.id actor db =
      (.error e, db)) ∨ ∃ a db', revokeDsnKey lib srv draw k.orgId k.projectId k.id actor db =
        (.ok a, db') ∧ db'.Closed k.publicKey.val := by
    refine session_cases (guarantees_execute fun rowcount db₁ hexec => ?_)
    have hclosed := exec_revokeDsnKey_closed hunique hk hexec
    by_cases hcount : rowcount = 0
    · rw [if_pos hcount]
      exact guarantees_pure hclosed
    · rw [if_neg hcount]
      exact guarantees_keeps hkeep (issuesOnly_recorded fun entry => ⟨entry, rfl⟩) hclosed
  obtain ⟨e, hs⟩ | ⟨a, db', hs, hclosed⟩ := hcases
  · rw [hs] at h
    cases h
  · rw [hs]
    exact hclosed

end Closed

end Crashlens.Tenant
