import Crashlens.MutatedRows

/-!
# The audit trail

Each service either leaves every table as it was or commits its changes together with one row of the
audit log. `AuditedChange` is a change of the tables that comes with the row of a trail and stays
within the trail's organisation, and `Logs` says that besides that row the tables are those the
mutation makes. The statements are followed through each session (`Guarantees`); what a session
guarantees is all that its service can have done, since a session that raises takes its statements
back.
-/

namespace Crashlens.Tenant

open Transactional RowSecurity

structure AuditRow.Records (row : AuditRow) (t : Trail) : Prop where
  orgId : row.orgId = t.orgId
  actorUserId : row.actorUserId = t.actorUserId
  action : row.action = t.action
  targetType : row.targetType = t.targetType
  targetId : row.targetId.map (fun s => s.val) = some t.targetId

/-- The deletions that take other rows with them. -/
def Trail.Cascades (t : Trail) : Prop := t.action = "project.deleted" ∨ t.action = "issue.deleted"

/-- The log has exactly one row more, and the other tables have changed within its organisation; a
cascade does as long as rows belong to the organisation of the row they refer to. -/
structure AuditedChange (t : Trail) (db db' : Db) : Prop where
  logged : ∃ row, db'.auditLog = db.auditLog ++ [row] ∧ row.Records t
  within : (t.Cascades → db.Consistent) → Within t.orgId db db'
  consistent : db.Consistent → db'.Consistent

/-- The audit log has one row more than in `tables`. -/
def Logs (tables db' : Db) : Prop :=
  ∃ row, db' = { tables with auditLog := tables.auditLog ++ [row] }

/-- Whenever the session gets to its end from `db`, its result and its tables satisfy `post`. -/
def Guarantees {α : Type} (srv : Server) (scope : Scope ℕ) (body : Tx α) (db : Db)
    (post : α → Db → Prop) : Prop :=
  body.wp (fun q db r db' => exec srv scope q db = (.ok r, db')) (fun _ _ => True) post db

section Sessions

variable {srv : Server} {scope : Scope ℕ} {db : Db} {α β : Type} {post : α → Db → Prop}

theorem guarantees_pure {a : α} (h : post a db) : Guarantees srv scope (.pure a) db post := h

theorem guarantees_raise {e : ServiceError} : Guarantees srv scope (.raise e) db post := trivial

theorem guarantees_execute {q : Request} {next : Response q → Tx α}
    (h : ∀ r db', exec srv scope q db = (.ok r, db') → Guarantees srv scope (next r) db' post) :
    Guarantees srv scope ((execute q).bind next) db post := ⟨trivial, h⟩

theorem guarantees_bind {body : Tx β} {next : β → Tx α}
    (h : Guarantees srv scope body db fun b db' => Guarantees srv scope (next b) db' post) :
    Guarantees srv scope (body.bind next) db post := Program.wp_bind.mpr h

theorem guarantees_oneOrNone {rows : List β} {post : Option β → Db → Prop}
    (hnone : rows = [] → post none db) (hsome : ∀ row, rows = [row] → post (some row) db) :
    Guarantees srv scope (oneOrNone rows) db post := by
  match rows with
  | [] => exact hnone rfl
  | [row] => exact hsome row rfl
  | _ :: _ :: _ => exact guarantees_raise

theorem guarantees_one {rows : List β} {next : β → Tx α}
    (h : ∀ row, rows = [row] → Guarantees srv scope (next row) db post) :
    Guarantees srv scope ((one rows).bind next) db post := by
  match rows with
  | [] => exact guarantees_raise
  | [row] => exact h row rfl
  | _ :: _ :: _ => exact guarantees_raise

theorem guarantees_raiseError {x : Except ServiceError β} {next : β → Tx α}
    (h : ∀ b, x = .ok b → Guarantees srv scope (next b) db post) :
    Guarantees srv scope ((raiseError x).bind next) db post := by
  cases x with
  | error e => exact guarantees_raise
  | ok b => exact h b rfl

theorem session_cases {body : Tx α} (h : Guarantees srv scope body db post) :
    (∃ e, session srv scope body db = (.error e, db)) ∨
      ∃ a db', session srv scope body db = (.ok a, db') ∧ post a db' := by
  unfold session
  match he : body.eval (exec srv scope) db with
  | (.error e, db') => exact .inl ⟨e, rfl⟩
  | (.ok a, db') =>
      refine .inr ⟨a, db', rfl, ?_⟩
      exact Program.wp_eval id (fun _ _ _ _ hex => hex) h he

theorem session_readOnly {body : Tx α} (h : Guarantees srv scope body db fun _ db' => db' = db) :
    (session srv scope body db).2 = db := by
  obtain ⟨e, hs⟩ | ⟨a, db', hs, hdb⟩ := session_cases h
  · rw [hs]
  · rw [hs]
    exact hdb

theorem session_reads {body : Tx α} {found : α → Prop}
    (h : Guarantees srv scope body db fun a db' => db' = db ∧ found a) :
    (session srv scope body db).2 = db ∧
      ∀ a, (session srv scope body db).1 = .ok a → found a := by
  obtain ⟨e, hs⟩ | ⟨a, db', hs, hdb, ha⟩ := session_cases h
  · rw [hs]
    exact ⟨rfl, fun _ ha => by cases ha⟩
  · rw [hs]
    exact ⟨hdb, fun _ heq => Except.ok.inj heq ▸ ha⟩

end Sessions

/-! ## All or nothing -/

/-- Either no table has changed, and the service has raised or has nothing to report, or it has
something to report and has made an audited change. -/
def Service.Audited {α : Type} (m : Service α) (db : Db) (nothing : α → Prop)
    (leaves : Trail → Db → Prop) : Prop :=
  ((m db).2 = db ∧ ∀ a, (m db).1 = .ok a → nothing a) ∨
    (∃ t tables, leaves t tables ∧ Logs tables (m db).2 ∧ AuditedChange t db (m db).2) ∧
      ∃ a, (m db).1 = .ok a ∧ ¬nothing a

/-- What a session of the trail's organisation has to guarantee. -/
def Settles {α : Type} (t : Trail) (mutates : Db → Prop) (db : Db) (nothing : α → Prop) (a : α)
    (db' : Db) : Prop :=
  nothing a ∧ db' = db ∨
    ¬nothing a ∧ AuditedChange t db db' ∧ ∃ tables, mutates tables ∧ Logs tables db'

section Audited

variable {srv : Server} {db db₁ : Db} {α β : Type} {nothing : α → Prop}
  {leaves : Trail → Db → Prop} {t : Trail} {mutates : Db → Prop}

theorem audited_pure {a : α} (h : nothing a) : (Service.pure a).Audited db nothing leaves :=
  .inl ⟨rfl, fun _ ha => Except.ok.inj ha ▸ h⟩

theorem audited_raise {e : ServiceError} :
    (Service.raise e : Service α).Audited db nothing leaves := .inl ⟨rfl, fun _ ha => by cases ha⟩

theorem audited_mono {m : Service α} {leaves' : Trail → Db → Prop}
    (hm : m.Audited db nothing leaves) (h : ∀ t tables, leaves t tables → leaves' t tables) :
    m.Audited db nothing leaves' := by
  obtain hnone | ⟨⟨t, tables, ht, hchange⟩, ha⟩ := hm
  · exact .inl hnone
  · exact .inr ⟨⟨t, tables, h t tables ht, hchange⟩, ha⟩

theorem ofExcept_tables (x : Except ServiceError β) (db : Db) : (Service.ofExcept x db).2 = db := by
  cases x <;> rfl

theorem ofExcept_ok {x : Except ServiceError β} {b : β} (h : (Service.ofExcept x db).1 = .ok b) :
    x = .ok b := by
  cases x with
  | error e => cases h
  | ok b' => exact h

theorem audited_bind {m : Service β} {f : β → Service α} (hm : (m db).2 = db)
    (hf : ∀ b, (m db).1 = .ok b → (f b).Audited db nothing leaves) :
    (m.bind f).Audited db nothing leaves := by
  unfold Service.Audited Service.bind
  match hmdb : m db with
  | (.error e, db') =>
      rw [hmdb] at hm
      exact .inl ⟨hm, fun _ ha => by cases ha⟩
  | (.ok b, db') =>
      rw [hmdb] at hm hf
      have hdb : db' = db := hm
      subst hdb
      exact hf b rfl

theorem audited_orOnIntegrityError {m : Service α} {default : α}
    (hm : m.Audited db nothing leaves) (hdefault : nothing default) :
    (m.orOnIntegrityError default).Audited db nothing leaves := by
  unfold Service.Audited Service.orOnIntegrityError
  split
  · next db' hmdb =>
      obtain ⟨hdb, -⟩ | ⟨-, a, ha, -⟩ := hm
      · rw [hmdb] at hdb
        exact .inl ⟨hdb, fun _ ha => Except.ok.inj ha ▸ hdefault⟩
      · rw [hmdb] at ha
        cases ha
  · exact hm

theorem audited_session {org : ℕ} {body : Tx α} (horg : t.orgId = org)
    (h : Guarantees srv (.tenant org) body db (Settles t mutates db nothing)) :
    (tenantSession srv org body).Audited db nothing fun t' tables => t' = t ∧ mutates tables := by
  subst horg
  unfold Service.Audited tenantSession
  obtain ⟨e, hs⟩ | ⟨a, db', hs, ⟨hnone, hdb⟩ | ⟨hsome, hchange, tables, htables, hlogs⟩⟩ :=
    session_cases h
  · rw [hs]
    exact .inl ⟨rfl, fun _ ha => by cases ha⟩
  · rw [hs]
    exact .inl ⟨hdb, fun _ ha => Except.ok.inj ha ▸ hnone⟩
  · rw [hs]
    exact .inr ⟨⟨t, tables, ⟨rfl, htables⟩, hlogs, hchange⟩, a, rfl, hsome⟩

theorem settles_nothing {a : α} (h : nothing a) : Settles t mutates db nothing a db :=
  .inl ⟨h, rfl⟩

end Audited

section Record

variable {lib : Libraries} {draw : Drawn} {srv : Server} {db db₁ db₂ : Db} {P : Prop} {org : ℕ}
  {actor : Option ℕ} {action targetType : String} {targetId : PyStr} {data : Option Dict}
  {α : Type}

/-- The row an `INSERT` with these parameters writes. -/
structure AuditRow.Holds (row : AuditRow) (entry : AuditEntry) : Prop where
  orgId : row.orgId = entry.orgId
  actorUserId : row.actorUserId = entry.actorUserId
  action : row.action = entry.action
  targetType : row.targetType = entry.targetType
  targetId : row.targetId.map (fun s => s.val) = entry.targetId
  data : row.data = entry.data

theorem bindNullable_val {s : Option PyStr} {t : Option Text} (h : bindNullable s = .ok t) :
    t.map (fun t => t.val) = s := by
  cases s with
  | none =>
      cases h
      rfl
  | some s =>
      obtain ⟨t', ht, rfl⟩ := map_ok h
      exact congrArg some (bindText_val ht)

theorem exec_insertAudit_row {scope : Scope ℕ} {entry : AuditEntry} {u : Unit}
    (h : exec srv scope (.insertAudit entry) db₁ = (.ok u, db₂)) :
    ∃ row : AuditRow, db₂ = { db₁ with auditLog := db₁.auditLog ++ [row] } ∧ row.Holds entry := by
  have hst := exec_ok h
  simp only [statement] at hst
  obtain ⟨target, htarget, hst⟩ := bind_ok hst
  obtain ⟨data, hdata, hst⟩ := bind_ok hst
  obtain ⟨_, -, hst⟩ := bind_ok hst
  obtain ⟨_, -, hst⟩ := bind_ok hst
  obtain ⟨_, -, hst⟩ := bind_ok hst
  cases hst
  exact ⟨_, rfl, rfl, rfl, rfl, rfl, bindNullable_val htarget, bindJson_val hdata⟩

theorem exec_insertAudit {entry : AuditEntry} {t : Trail} {u : Unit}
    (hentry : ⟨entry.orgId, entry.actorUserId, entry.action, entry.targetType, targetId⟩ = t)
    (htarget : entry.targetId = some targetId) (hdb : Change P t.orgId db db₁)
    (hP : (t.Cascades → db.Consistent) → P)
    (h : exec srv (.tenant org) (.insertAudit entry) db₁ = (.ok u, db₂)) :
    AuditedChange t db db₂ := by
  subst hentry
  obtain ⟨row, rfl, hrow⟩ := exec_insertAudit_row h
  refine ⟨⟨row, by rw [hdb.auditLog], hrow.orgId, hrow.actorUserId, hrow.action, hrow.targetType,
    hrow.targetId.trans htarget⟩, fun hc => ?_, fun hc => ?_⟩
  · exact { hdb.within (hP hc) with }
  · exact { hdb.consistent hc with }

theorem guarantees_record {next : Unit → Tx α} {post : α → Db → Prop} (hdb : Change P org db db₁)
    (hP : (Trail.Cascades ⟨org, actor, action, targetType, targetId⟩ → db.Consistent) → P)
    (h : ∀ db₂, AuditedChange ⟨org, actor, action, targetType, targetId⟩ db db₂ → Logs db₁ db₂ →
      Guarantees srv (.tenant org) (next ()) db₂ post) :
    Guarantees srv (.tenant org)
      ((record lib draw org actor action targetType (some targetId) data).bind next) db₁ post := by
  refine guarantees_bind (guarantees_raiseError fun _ _ => ⟨trivial, fun _ db₂ hex => ?_⟩)
  obtain ⟨row, hlogs, -⟩ := exec_insertAudit_row hex
  exact h db₂ (exec_insertAudit rfl rfl hdb hP hex) ⟨row, hlogs⟩

variable {mutates : Db → Prop}

/-- The end of a session that reports `a`. -/
theorem guarantees_recorded {a : α} {nothing : α → Prop} (ha : ¬nothing a)
    (hdb : Change True org db db₁) (hmutates : mutates db₁) :
    Guarantees srv (.tenant org)
      ((record lib draw org actor action targetType (some targetId) data).bind fun _ => .pure a) db₁
      (Settles ⟨org, actor, action, targetType, targetId⟩ mutates db nothing) :=
  guarantees_record hdb (fun _ => trivial) fun _ hchange hlogs =>
    guarantees_pure (.inr ⟨ha, hchange, db₁, hmutates, hlogs⟩)

/-- The end of a session that has deleted rows with a cascade. -/
theorem guarantees_recorded_cascade {a : α} {nothing : α → Prop} (ha : ¬nothing a)
    (hdb : Change db.Consistent org db db₁)
    (haction : Trail.Cascades ⟨org, actor, action, targetType, targetId⟩)
    (hmutates : mutates db₁) :
    Guarantees srv (.tenant org)
      ((record lib draw org actor action targetType (some targetId) data).bind fun _ => .pure a) db₁
      (Settles ⟨org, actor, action, targetType, targetId⟩ mutates db nothing) :=
  guarantees_record hdb (fun h => h haction) fun _ hchange hlogs =>
    guarantees_pure (.inr ⟨ha, hchange, db₁, hmutates, hlogs⟩)

end Record

/-! ## The services -/

section Services

variable {lib : Libraries} {draw : Drawn} {srv : Server} {db db₁ : Db} {org : ℕ}
  {actor : Option ℕ} {α β : Type} {post : α → Db → Prop}

/-- A statement that returns no row has changed none. -/
theorem guarantees_touched {P : Prop} {rows : List β} {next : Option β → Tx α}
    (hrows : (rows = [] → db₁ = db) ∧ Change P org db db₁)
    (hnone : Guarantees srv (.tenant org) (next none) db post)
    (hsome : ∀ row, rows = [row] → Change P org db db₁ →
      Guarantees srv (.tenant org) (next (some row)) db₁ post) :
    Guarantees srv (.tenant org) ((oneOrNone rows).bind next) db₁ post := by
  refine guarantees_bind (guarantees_oneOrNone (fun hnil => ?_) fun row hrow =>
    hsome row hrow hrows.2)
  rw [hrows.1 hnil]
  exact hnone

theorem guarantees_loadProjectRow {projectId : ℕ} {next : Option Project → Tx α}
    (hnone : Guarantees srv (.tenant org) (next none) db post)
    (hsome : ∀ row, db.OwnsProject org projectId →
      Guarantees srv (.tenant org) (next (some row)) db post) :
    Guarantees srv (.tenant org) ((loadProjectRow projectId).bind next) db post := by
  refine guarantees_bind (guarantees_execute fun rows db₁ h => ?_)
  obtain ⟨rfl, hrows⟩ := exec_selectProject h
  refine guarantees_oneOrNone (fun _ => hnone) fun row hrow => hsome row ?_
  exact ownsProject_of_selected (hrows ▸ hrow ▸ List.mem_singleton_self row)

theorem createProject_audited {name : PyStr} {platform : Option PyStr} :
    (createProject lib srv draw org name platform actor).Audited db (fun a => a = none)
      fun t tables => t = ⟨org, actor, "project.created", "project", uuidStr draw.id⟩ ∧
        (Call.createProject org name platform actor).Mutates lib srv draw db t tables := by
  refine audited_orOnIntegrityError (audited_session rfl ?_) rfl
  exact guarantees_execute fun row db₁ h =>
    guarantees_recorded (Option.some_ne_none row) (exec_insertProject h)
      ⟨row, rows_insertProject h⟩

theorem updateProjectSampling_audited {projectId : ℕ} {samplingRate : PyFloat} :
    (updateProjectSampling lib srv draw org projectId samplingRate actor).Audited db
      (fun a => a = none)
      fun t tables => t = ⟨org, actor, "sampling.updated", "project", uuidStr projectId⟩ ∧
        (Call.updateProjectSampling org projectId samplingRate actor).Mutates lib srv draw db t
          tables := by
  refine audited_session rfl (guarantees_execute fun rows db₁ h => ?_)
  refine guarantees_touched (exec_updateSampling h) (guarantees_pure (settles_nothing rfl)) ?_
  exact fun row hrow hchange => guarantees_recorded (Option.some_ne_none row) hchange
    (rows_updateSampling (hrow ▸ h))

theorem deleteProject_audited {projectId : ℕ} :
    (deleteProject lib srv draw org projectId actor).Audited db (fun a => a = false)
      fun t tables => t = ⟨org, actor, "project.deleted", "project", uuidStr projectId⟩ ∧
        (Call.deleteProject org projectId actor).Mutates lib srv draw db t tables := by
  refine audited_session rfl (guarantees_execute fun rows db₁ h => ?_)
  refine guarantees_touched (exec_deleteProject h) (guarantees_pure (settles_nothing rfl)) ?_
  exact fun _ hrow hchange => guarantees_recorded_cascade Bool.noConfusion hchange (.inl rfl)
    (rows_deleteProject (hrow ▸ h))

theorem createDsnKey_audited {projectId : ℕ} :
    (createDsnKey lib srv draw org projectId actor).Audited db (fun a => a = none)
      fun t tables => t = ⟨org, actor, "key.created", "dsn_key", uuidStr draw.id⟩ ∧
        (Call.createDsnKey org projectId actor).Mutates lib srv draw db t tables := by
  refine audited_session rfl (guarantees_loadProjectRow ?_ fun _ hproject => ?_)
  · exact guarantees_pure (settles_nothing rfl)
  · exact guarantees_execute fun row db₁ h =>
      guarantees_recorded (Option.some_ne_none row) (exec_insertDsnKey hproject h)
        ⟨row, rows_insertDsnKey h⟩

theorem revokeDsnKey_audited {projectId keyId : ℕ} :
    (revokeDsnKey lib srv draw org projectId keyId actor).Audited db (fun a => a = false)
      fun t tables => t = ⟨org, actor, "key.revoked", "dsn_key", uuidStr keyId⟩ ∧
        (Call.revokeDsnKey org projectId keyId actor).Mutates lib srv draw db t tables := by
  refine audited_session rfl (guarantees_execute fun rowcount db₁ h => ?_)
  obtain ⟨hnone, hchange⟩ := exec_revokeDsnKey h
  by_cases hcount : rowcount = 0
  · rw [if_pos hcount, hnone hcount]
    exact guarantees_pure (settles_nothing rfl)
  · rw [if_neg hcount]
    exact guarantees_recorded Bool.noConfusion hchange (rows_revokeDsnKey hcount h)

theorem guarantees_channelScopeMissing {projectId : Option ℕ} {next : Bool → Tx α}
    (hmissing : Guarantees srv (.tenant org) (next true) db post)
    (hscope : (∀ p ∈ projectId, db.OwnsProject org p) →
      Guarantees srv (.tenant org) (next false) db post) :
    Guarantees srv (.tenant org) ((channelScopeMissing projectId).bind next) db post := by
  cases projectId with
  | none => exact hscope fun p hp => absurd hp (Option.not_mem_none p)
  | some projectId =>
      refine guarantees_bind (guarantees_bind (guarantees_loadProjectRow hmissing
        fun _ hproject => hscope fun p hp => ?_))
      rw [← Option.mem_some_iff.mp hp]
      exact hproject

theorem createChannel_audited {channelType : PyStr} {config : Json} {projectId : Option ℕ} :
    (createChannel lib srv draw org channelType config projectId actor).Audited db
      (fun a => a = none)
      fun t tables => t = ⟨org, actor, "channel.created", "alert_channel", uuidStr draw.id⟩ ∧
        (Call.createChannel org channelType config projectId actor).Mutates lib srv draw db t
          tables := by
  refine audited_bind (ofExcept_tables _ db) fun normalized hnormalized => audited_session rfl ?_
  refine guarantees_channelScopeMissing (guarantees_pure (settles_nothing rfl)) fun hscope => ?_
  refine guarantees_execute fun row db₁ h => guarantees_raiseError fun target _ => ?_
  obtain ⟨hid, horg, hproject, htype, hconfig, htables⟩ := rows_insertChannel h
  exact guarantees_recorded (Option.some_ne_none row) (exec_insertChannel hscope h)
    ⟨row, hid, horg, hproject, htype, hconfig ▸ ofExcept_ok hnormalized, htables⟩

/-- The configuration is replaced exactly when one is given. -/
theorem replacedConfig_none_iff {type : ChannelType} {config : Json}
    {replaced : Option (Dict × PyStr)} (h : replacedConfig lib type config = .ok replaced) :
    replaced = none ↔ config = .null := by
  cases config with
  | null =>
      cases h
      exact ⟨fun _ => rfl, fun _ => rfl⟩
  | _ =>
      obtain ⟨normalized, -, h⟩ := bind_ok h
      obtain ⟨target, -, h⟩ := bind_ok h
      cases h
      exact ⟨fun hnone => (by cases hnone), fun hnull => (by cases hnull)⟩

theorem updateChannel_audited {channelId : ℕ} {enabled : Option Bool} {config : Json} :
    (updateChannel lib srv draw org channelId enabled config actor).Audited db
      (fun a => a = none ∨ enabled = none ∧ config = .null)
      fun t tables => t = ⟨org, actor, "channel.updated", "alert_channel", uuidStr channelId⟩ ∧
        (Call.updateChannel org channelId enabled config actor).Mutates lib srv draw db t
          tables := by
  refine audited_session rfl (guarantees_execute fun rows db₁ hselect => ?_)
  have hdb := exec_selectChannel hselect
  subst hdb
  refine guarantees_bind (guarantees_oneOrNone (fun _ => settles_nothing (.inl rfl))
    fun current hcurrent => guarantees_raiseError fun replaced hreplaced => ?_)
  have hiff := replacedConfig_none_iff hreplaced
  by_cases hidle : (enabled.isNone && replaced.isNone) = true
  · obtain ⟨henabled, hnone⟩ := Bool.and_eq_true_iff.mp hidle
    rw [if_pos hidle]
    exact guarantees_pure (settles_nothing (.inr ⟨Option.isNone_iff_eq_none.mp henabled,
      hiff.mp (Option.isNone_iff_eq_none.mp hnone)⟩))
  · rw [if_neg hidle]
    refine guarantees_execute fun rows db₁ h => guarantees_one fun row _ => ?_
    obtain ⟨hmem, hid, horg⟩ := rows_selectChannel (hcurrent ▸ hselect)
    refine guarantees_recorded (fun hnothing => ?_) (exec_updateChannel h)
      ⟨current, hmem, hid, horg, replaced, hreplaced, rows_updateChannel h⟩
    obtain hrow | ⟨henabled, hnull⟩ := hnothing
    · cases hrow
    · rw [henabled, hiff.mpr hnull] at hidle
      exact hidle rfl

theorem deleteChannel_audited {channelId : ℕ} :
    (deleteChannel lib srv draw org channelId actor).Audited db (fun a => a = false)
      fun t tables => t = ⟨org, actor, "channel.deleted", "alert_channel", uuidStr channelId⟩ ∧
        (Call.deleteChannel org channelId actor).Mutates lib srv draw db t tables := by
  refine audited_session rfl (guarantees_execute fun rows db₁ h => ?_)
  refine guarantees_touched (exec_deleteChannel h) (guarantees_pure (settles_nothing rfl)) ?_
  exact fun _ hrow hchange => guarantees_recorded Bool.noConfusion hchange
    (rows_deleteChannel (hrow ▸ h))

theorem setIssueStatus_audited {projectId issueId : ℕ} {action : PyStr} :
    (setIssueStatus lib srv draw org projectId issueId action actor).Audited db (fun a => a = none)
      fun t tables => (∃ a, actionOfStr? action = some a ∧
          t = ⟨org, actor, a.auditAction, "issue", uuidStr issueId⟩) ∧
        (Call.setIssueStatus org projectId issueId action actor).Mutates lib srv draw db t
          tables := by
  unfold setIssueStatus
  cases haction : actionOfStr? action with
  | none => exact audited_raise
  | some a =>
      refine audited_mono (audited_session rfl (guarantees_loadProjectRow ?_ fun _ _ => ?_))
        fun t tables ht => ⟨⟨a, rfl, ht.1⟩, a, haction, ht.2⟩
      · exact guarantees_pure (settles_nothing rfl)
      · refine guarantees_execute fun rows db₁ h => ?_
        refine guarantees_touched (exec_updateStatus h) (guarantees_pure (settles_nothing rfl)) ?_
        exact fun row hrow hchange => guarantees_recorded (Option.some_ne_none row) hchange
          (rows_updateStatus (hrow ▸ h))

theorem guarantees_requireMember {userId : Option ℕ} {next : Unit → Tx α}
    (h : Guarantees srv (.tenant org) (next ()) db post) :
    Guarantees srv (.tenant org) ((requireMember userId).bind next) db post := by
  cases userId with
  | none => exact h
  | some userId =>
      refine guarantees_bind (guarantees_execute fun rows db₁ hsel => ?_)
      have hdb := exec_selectMember hsel
      subst hdb
      exact guarantees_bind (guarantees_oneOrNone (fun _ => guarantees_raise) fun _ _ => h)

/-- The transaction of `assign_issue`. -/
theorem assignInSession_audited {projectId issueId : ℕ} {userId : Option ℕ} :
    (tenantSession srv org (assignInSession lib draw org projectId issueId userId actor)).Audited db
      (fun b => b = false)
      fun t tables => t = ⟨org, actor, "issue.assigned", "issue", uuidStr issueId⟩ ∧
        (Call.assignIssue org projectId issueId userId actor).Mutates lib srv draw db t tables := by
  refine audited_session rfl (guarantees_loadProjectRow ?_ fun _ _ => ?_)
  · exact guarantees_pure (settles_nothing rfl)
  · refine guarantees_requireMember (guarantees_execute fun rows db₁ h => ?_)
    refine guarantees_touched (exec_updateAssignee h) (guarantees_pure (settles_nothing rfl)) ?_
    exact fun _ hrow hchange => guarantees_recorded Bool.noConfusion hchange
      (rows_updateAssignee (hrow ▸ h))

theorem getIssue_tables {projectId issueId : ℕ} :
    (getIssue srv org projectId issueId db).2 = db := by
  refine session_readOnly (guarantees_loadProjectRow (guarantees_pure rfl) fun _ _ => ?_)
  refine guarantees_execute fun rows db₁ h => ?_
  exact guarantees_oneOrNone (fun _ => exec_selectIssue h) fun _ _ => exec_selectIssue h

theorem deleteIssue_audited {projectId issueId : ℕ} :
    (deleteIssue lib srv draw org projectId issueId actor).Audited db (fun a => a = false)
      fun t tables => t = ⟨org, actor, "issue.deleted", "issue", uuidStr issueId⟩ ∧
        (Call.deleteIssue org projectId issueId actor).Mutates lib srv draw db t tables := by
  refine audited_session rfl (guarantees_execute fun rows db₁ h => ?_)
  refine guarantees_touched (exec_deleteIssue h) (guarantees_pure (settles_nothing rfl)) ?_
  exact fun _ hrow hchange => guarantees_recorded_cascade Bool.noConfusion hchange (.inr rfl)
    (rows_deleteIssue (hrow ▸ h))

theorem createInvite_audited {email role : PyStr} :
    (createInvite lib srv draw org email role actor).Audited db (fun _ => False)
      fun t tables => t = ⟨org, actor, "member.invited", "invite", uuidStr draw.id⟩ ∧
        (Call.createInvite org email role actor).Mutates lib srv draw db t tables := by
  unfold createInvite
  split
  · exact audited_raise
  · refine audited_bind (ofExcept_tables _ db) fun tokenHash _ => audited_session rfl ?_
    exact guarantees_execute fun _ db₁ h =>
      guarantees_recorded id (exec_insertInvite h) (rows_insertInvite h)

theorem guarantees_insertNewUser {userId : ℕ} {email : PyStr} {passwordHash : Option PyStr}
    {next : Unit → Tx α}
    (h : ∀ db₁, Change True org db db₁ → (db₁ = db ∨ ∃ row : User, row.id = userId ∧
        row.email.val = email ∧ db₁ = { db with users := db.users ++ [row] }) →
      Guarantees srv (.tenant org) (next ()) db₁ post) :
    Guarantees srv (.tenant org) ((insertNewUser userId email passwordHash).bind next) db post := by
  cases passwordHash with
  | none => exact h db Change.refl (.inl rfl)
  | some passwordHash =>
      exact guarantees_execute fun _ db₁ hins =>
        h db₁ (exec_insertUser hins) (.inr (rows_insertUser hins))

theorem grant_audited {invite : Invite} {email : PyStr} {userId : ℕ} {passwordHash : Option PyStr} :
    (grant lib srv draw invite email userId passwordHash).Audited db (fun a => a = none)
      fun t tables =>
        t = ⟨invite.orgId, some userId, "invite.accepted", "invite", uuidStr invite.id⟩ ∧
          Granted draw db invite email userId tables := by
  refine audited_session rfl (guarantees_insertNewUser fun db₁ huser hrow => ?_)
  refine guarantees_execute fun _ db₂ hmember => guarantees_execute fun _ db₃ haccept => ?_
  exact guarantees_recorded (Option.some_ne_none _)
    ((huser.trans (exec_insertMembership hmember)).trans (exec_acceptInvite haccept))
    (granted_of_rows hrow (rows_insertMembership hmember) (rows_acceptInvite haccept))

/-- What holds of the rows a statement returns holds of the one that is taken. -/
theorem guarantees_lookup {scope : Scope ℕ} {rows : List β} {found : β → Prop}
    (hrows : ∀ row ∈ rows, found row) :
    Guarantees srv scope (oneOrNone rows) db
      fun a db' => db' = db ∧ ∀ row ∈ a, found row := by
  refine guarantees_oneOrNone (fun _ => ⟨rfl, fun row hrow => ?_⟩) fun row hrow =>
    ⟨rfl, fun row' hrow' => ?_⟩
  · cases hrow
  · rw [← Option.mem_some_iff.mp hrow']
    exact hrows row (hrow ▸ List.mem_singleton_self row)

theorem inviteByToken_reads {tokenHash : PyStr} :
    (inviteByToken srv tokenHash db).2 = db ∧ ∀ a, (inviteByToken srv tokenHash db).1 = .ok a →
      ∀ inv ∈ a, inv ∈ db.invites ∧ inv.tokenHash.val = tokenHash := by
  refine session_reads (guarantees_execute fun rows db₁ h => ?_)
  obtain ⟨rfl, hrows⟩ := exec_selectInvite h
  exact guarantees_lookup hrows

theorem loadUserByEmail_reads {email : PyStr} :
    (loadUserByEmail srv email db).2 = db ∧ ∀ a, (loadUserByEmail srv email db).1 = .ok a →
      ∀ u ∈ a, u ∈ db.users ∧ u.email.val = email := by
  refine session_reads (guarantees_execute fun rows db₁ h => ?_)
  obtain ⟨rfl, hrows⟩ := exec_selectUser h
  exact guarantees_lookup hrows

/-- The user an invite is accepted by: one with the email, or the one created. -/
def AcceptingUser (draw : Drawn) (db : Db) (email : PyStr) (userId : ℕ) : Prop :=
  userId = draw.id ∨ ∃ u ∈ db.users, u.id = userId ∧ u.email.val = email

theorem acceptOpenInvite_audited {invite : Invite} {email password : PyStr} :
    (acceptOpenInvite lib srv draw invite email password).Audited db (fun a => a = none)
      fun t tables => ∃ userId, AcceptingUser draw db email userId ∧
        t = ⟨invite.orgId, some userId, "invite.accepted", "invite", uuidStr invite.id⟩ ∧
          Granted draw db invite email userId tables := by
  refine audited_bind loadUserByEmail_reads.1 fun found hfound => ?_
  cases found with
  | some existing =>
      obtain ⟨hmem, hemail⟩ := loadUserByEmail_reads.2 _ hfound existing rfl
      refine audited_bind (ofExcept_tables _ db) fun verified _ => ?_
      cases verified with
      | true =>
          exact audited_mono grant_audited fun t tables ht =>
            ⟨existing.id, .inr ⟨existing, hmem, rfl, hemail⟩, ht⟩
      | false => exact audited_pure rfl
  | none =>
      dsimp only
      split
      · exact audited_raise
      · refine audited_bind (ofExcept_tables _ db) fun passwordHash _ => ?_
        exact audited_mono grant_audited fun t tables ht => ⟨draw.id, .inl rfl, ht⟩

theorem acceptInvite_audited {token email password : PyStr} :
    (acceptInvite lib srv draw token email password).Audited db (fun a => a = none)
      fun t tables => ∃ invite ∈ db.invites,
        invite.acceptedAt = none ∧ hashInviteToken lib token = .ok invite.tokenHash.val ∧
        ∃ userId, AcceptingUser draw db email userId ∧
          t = ⟨invite.orgId, some userId, "invite.accepted", "invite", uuidStr invite.id⟩ ∧
            Granted draw db invite email userId tables := by
  refine audited_bind (ofExcept_tables _ db) fun tokenHash hhash => ?_
  refine audited_bind inviteByToken_reads.1 fun found hfound => ?_
  cases found with
  | none => exact audited_pure rfl
  | some invite =>
      obtain ⟨hmem, htoken⟩ := inviteByToken_reads.2 _ hfound invite rfl
      dsimp only
      split
      · exact audited_pure rfl
      · next hopen =>
          rw [Bool.or_eq_true, not_or] at hopen
          split
          · exact audited_pure rfl
          · refine audited_mono acceptOpenInvite_audited fun t tables ht =>
              ⟨invite, hmem, Option.not_isSome_iff_eq_none.mp hopen.1, ?_, ht⟩
            rw [htoken]
            exact ofExcept_ok hhash

end Services

/-! ## All calls -/

namespace Call

/-- The call reports that there was nothing to do: `None`, `False`, or an update with nothing to
update. -/
def Nothing : (call : Call) → call.Answer → Prop
  | .createProject _ _ _ _, a | .updateProjectSampling _ _ _ _, a => a = none
  | .deleteProject _ _ _, b | .revokeDsnKey _ _ _ _, b | .deleteChannel _ _ _, b
  | .deleteIssue _ _ _ _, b => b = false
  | .createDsnKey _ _ _, a => a = none
  | .createChannel _ _ _ _ _, a => a = none
  | .updateChannel _ _ enabled config _, a => a = none ∨ enabled = none ∧ config = .null
  | .setIssueStatus _ _ _ _ _, a | .assignIssue _ _ _ _ _, a => a = none
  | .createInvite _ _ _ _, _ => False
  | .acceptInvite _ _ _, a => a = none

/-- The trail of the mutation: its organisation, its actor, its action and its target. -/
def Leaves (lib : Libraries) (draw : Drawn) (db : Db) : Call → Trail → Prop
  | .createProject orgId _ _ actor, t =>
    t = ⟨orgId, actor, "project.created", "project", uuidStr draw.id⟩
  | .updateProjectSampling orgId projectId _ actor, t =>
    t = ⟨orgId, actor, "sampling.updated", "project", uuidStr projectId⟩
  | .deleteProject orgId projectId actor, t =>
    t = ⟨orgId, actor, "project.deleted", "project", uuidStr projectId⟩
  | .createDsnKey orgId _ actor, t =>
    t = ⟨orgId, actor, "key.created", "dsn_key", uuidStr draw.id⟩
  | .revokeDsnKey orgId _ keyId actor, t =>
    t = ⟨orgId, actor, "key.revoked", "dsn_key", uuidStr keyId⟩
  | .createChannel orgId _ _ _ actor, t =>
    t = ⟨orgId, actor, "channel.created", "alert_channel", uuidStr draw.id⟩
  | .updateChannel orgId channelId _ _ actor, t =>
    t = ⟨orgId, actor, "channel.updated", "alert_channel", uuidStr channelId⟩
  | .deleteChannel orgId channelId actor, t =>
    t = ⟨orgId, actor, "channel.deleted", "alert_channel", uuidStr channelId⟩
  | .setIssueStatus orgId _ issueId action actor, t =>
    (action = py "resolve" ∧ t = ⟨orgId, actor, "issue.resolved", "issue", uuidStr issueId⟩) ∨
      (action = py "ignore" ∧ t = ⟨orgId, actor, "issue.ignored", "issue", uuidStr issueId⟩) ∨
      (action = py "reopen" ∧ t = ⟨orgId, actor, "issue.reopened", "issue", uuidStr issueId⟩)
  | .assignIssue orgId _ issueId _ actor, t =>
    t = ⟨orgId, actor, "issue.assigned", "issue", uuidStr issueId⟩
  | .deleteIssue orgId _ issueId actor, t =>
    t = ⟨orgId, actor, "issue.deleted", "issue", uuidStr issueId⟩
  | .createInvite orgId _ _ actor, t =>
    t = ⟨orgId, actor, "member.invited", "invite", uuidStr draw.id⟩
  | .acceptInvite token email _, t =>
    ∃ invite ∈ db.invites, hashInviteToken lib token = .ok invite.tokenHash.val ∧
      ∃ userId, AcceptingUser draw db email userId ∧
        t = ⟨invite.orgId, some userId, "invite.accepted", "invite", uuidStr invite.id⟩

/-- `assign_issue` answers with what it reads of the issue after its transaction. -/
def readsAfterwards : Call → Bool
  | .assignIssue _ _ _ _ _ => true
  | _ => false

end Call

section Calls

variable {lib : Libraries} {srv : Server} {draw : Drawn} {db : Db}

theorem actionOfStr?_cases {action : PyStr} {a : StatusAction} (h : actionOfStr? action = some a) :
    (action = py "resolve" ∧ a = .resolve) ∨ (action = py "ignore" ∧ a = .ignore) ∨
      (action = py "reopen" ∧ a = .reopen) := by
  unfold actionOfStr? at h
  split at h
  · next hs => exact .inl ⟨hs, (Option.some.inj h).symm⟩
  · split at h
    · next hs => exact .inr (.inl ⟨hs, (Option.some.inj h).symm⟩)
    · split at h
      · next hs => exact .inr (.inr ⟨hs, (Option.some.inj h).symm⟩)
      · cases h

theorem assignIssue_outcome {org projectId issueId : ℕ} {userId actor : Option ℕ} :
    let outcome := assignIssue lib srv draw org projectId issueId userId actor db
    (outcome.2 = db ∧ ∀ a, outcome.1 = .ok a → a = none) ∨
      ∃ t tables, (t = ⟨org, actor, "issue.assigned", "issue", uuidStr issueId⟩ ∧
          (Call.assignIssue org projectId issueId userId actor).Mutates lib srv draw db t tables) ∧
        Logs tables outcome.2 ∧ AuditedChange t db outcome.2 := by
  have hsession : (tenantSession srv org
      (assignInSession lib draw org projectId issueId userId actor)).Audited db
      (fun b => b = false) _ := assignInSession_audited
  have hbind : assignIssue lib srv draw org projectId issueId userId actor =
      (tenantSession srv org (assignInSession lib draw org projectId issueId userId actor)).bind
        fun assigned => if assigned then getIssue srv org projectId issueId else .pure none := rfl
  rw [hbind]
  unfold Service.bind
  match hs : tenantSession srv org
      (assignInSession lib draw org projectId issueId userId actor) db with
  | (.error e, db') =>
      rw [Service.Audited, hs] at hsession
      obtain ⟨hdb, -⟩ | ⟨-, a, ha, -⟩ := hsession
      · exact .inl ⟨hdb, fun _ ha => by cases ha⟩
      · cases ha
  | (.ok assigned, db') =>
      rw [Service.Audited, hs] at hsession
      obtain ⟨hdb, hfalse⟩ | ⟨⟨t, tables, ht, hlogs, hchange⟩, a, ha, htrue⟩ := hsession
      · have hassigned : assigned = false := hfalse assigned rfl
        subst hassigned
        exact .inl ⟨hdb, fun _ ha => (Except.ok.inj ha).symm⟩
      · cases ha
        have hassigned : assigned = true := Bool.eq_true_of_not_eq_false htrue
        subst hassigned
        refine .inr ⟨t, tables, ht, ?_⟩
        have htables : (getIssue srv org projectId issueId db').2 = db' := getIssue_tables
        exact htables.symm ▸ ⟨hlogs, hchange⟩

/-- All or nothing, and one audit row with whatever changes. -/
def Call.AllOrNothing (lib : Libraries) (srv : Server) (draw : Drawn) (call : Call) (db : Db) :
    Prop :=
  ((call.run lib srv draw db).2 = db ∧
      ∀ a, (call.run lib srv draw db).1 = .ok a → call.Nothing a) ∨
    (∃ t tables, (call.Leaves lib draw db t ∧ call.Mutates lib srv draw db t tables) ∧
        Logs tables (call.run lib srv draw db).2 ∧
        AuditedChange t db (call.run lib srv draw db).2) ∧
      (call.readsAfterwards = false →
        ∃ a, (call.run lib srv draw db).1 = .ok a ∧ ¬call.Nothing a)

theorem allOrNothing_of_audited {call : Call} {leaves : Trail → Db → Prop}
    (h : (call.run lib srv draw).Audited db call.Nothing leaves)
    (hleaves : ∀ t tables, leaves t tables →
      call.Leaves lib draw db t ∧ call.Mutates lib srv draw db t tables) :
    call.AllOrNothing lib srv draw db := by
  obtain hnone | ⟨⟨t, tables, ht, hchange⟩, ha⟩ := h
  · exact .inl hnone
  · exact .inr ⟨⟨t, tables, hleaves t tables ht, hchange⟩, fun _ => ha⟩

theorem call_allOrNothing (lib : Libraries) (srv : Server) (draw : Drawn) (call : Call) (db : Db) :
    call.AllOrNothing lib srv draw db := by
  cases call with
  | createProject => exact allOrNothing_of_audited createProject_audited fun _ _ => id
  | updateProjectSampling =>
      exact allOrNothing_of_audited updateProjectSampling_audited fun _ _ => id
  | deleteProject => exact allOrNothing_of_audited deleteProject_audited fun _ _ => id
  | createDsnKey => exact allOrNothing_of_audited createDsnKey_audited fun _ _ => id
  | revokeDsnKey => exact allOrNothing_of_audited revokeDsnKey_audited fun _ _ => id
  | createChannel => exact allOrNothing_of_audited createChannel_audited fun _ _ => id
  | updateChannel => exact allOrNothing_of_audited updateChannel_audited fun _ _ => id
  | deleteChannel => exact allOrNothing_of_audited deleteChannel_audited fun _ _ => id
  | setIssueStatus =>
      refine allOrNothing_of_audited setIssueStatus_audited fun t tables ht => ?_
      obtain ⟨⟨a, haction, rfl⟩, hmutates⟩ := ht
      refine ⟨?_, hmutates⟩
      obtain ⟨hs, rfl⟩ | ⟨hs, rfl⟩ | ⟨hs, rfl⟩ := actionOfStr?_cases haction
      · exact .inl ⟨hs, rfl⟩
      · exact .inr (.inl ⟨hs, rfl⟩)
      · exact .inr (.inr ⟨hs, rfl⟩)
  | assignIssue =>
      obtain hnone | hchange := assignIssue_outcome
      · exact .inl hnone
      · exact .inr ⟨hchange, fun h => by cases h⟩
  | deleteIssue => exact allOrNothing_of_audited deleteIssue_audited fun _ _ => id
  | createInvite => exact allOrNothing_of_audited createInvite_audited fun _ _ => id
  | acceptInvite =>
      refine allOrNothing_of_audited acceptInvite_audited fun t tables ht => ?_
      obtain ⟨invite, hmem, hopen, htoken, userId, hby, rfl, hgranted⟩ := ht
      exact ⟨⟨invite, hmem, htoken, userId, hby, rfl⟩, invite, hmem, hopen, rfl, rfl, userId, rfl,
        hgranted⟩

/-- Either no table has changed, or the row of the mutation has, with one row of the audit log more:
that of the mutation, for the organisation it lies in. -/
theorem mutations_audited (lib : Libraries) (srv : Server) (draw : Drawn) (call : Call) (db : Db) :
    let outcome := call.run lib srv draw db
    (outcome.2 = db ∧ ∀ a, outcome.1 = .ok a → call.Nothing a) ∨
      (∃ t tables, (call.Leaves lib draw db t ∧ call.Mutates lib srv draw db t tables) ∧
          Logs tables outcome.2 ∧ AuditedChange t db outcome.2) ∧
        (call.readsAfterwards = false → ∃ a, outcome.1 = .ok a ∧ ¬call.Nothing a) :=
  call_allOrNothing lib srv draw call db

def sampleLibraries : Libraries where
  rt := sampleRuntime
  lower := id
  repr := id
  urlsplit _ := .ok ([], [])
  hashPassword := .ok
  verifyPassword hash password := .ok (hash = password)

def sampleServer : Server := ⟨samplePostgres, 0, fun _ _ _ => none⟩

/-- A project with a key, and a key of another organisation. -/
def twoOrganisations : Db where
  orgs := [1, 2]
  users := []
  memberships := []
  invites := []
  projects := [⟨3, 1, ⟨py "App", rfl⟩, ⟨py "app-x", rfl⟩, none, .finite false 1, 0⟩,
    ⟨4, 2, ⟨py "Web", rfl⟩, ⟨py "web-x", rfl⟩, none, .finite false 1, 0⟩]
  dsnKeys := [⟨5, 1, 3, ⟨py "k", rfl⟩, true, none, 0⟩, ⟨6, 2, 4, ⟨py "l", rfl⟩, true, none, 0⟩]
  issues := []
  releases := []
  comments := []
  channels := []
  auditLog := []

/-- The deletion of a project takes its key with it and leaves one row in the log. -/
theorem deletion_audited :
    let outcome := (Call.deleteProject 1 3 none).run sampleLibraries sampleServer ⟨7, [], 8, 0⟩
      twoOrganisations
    outcome.2.dsnKeys.map DsnKey.id = [6] ∧ outcome.2.auditLog.length = 1 ∧
      ∃ t tables, ((Call.deleteProject 1 3 none).Leaves sampleLibraries ⟨7, [], 8, 0⟩
          twoOrganisations t ∧ (Call.deleteProject 1 3 none).Mutates sampleLibraries sampleServer
            ⟨7, [], 8, 0⟩ twoOrganisations t tables) ∧
        Logs tables outcome.2 ∧ AuditedChange t twoOrganisations outcome.2 := by
  have hlog : ((Call.deleteProject 1 3 none).run sampleLibraries sampleServer ⟨7, [], 8, 0⟩
      twoOrganisations).2.auditLog.length = 1 := by decide +kernel
  refine ⟨by decide +kernel, hlog, ?_⟩
  obtain ⟨hsame, -⟩ | ⟨hchange, -⟩ := mutations_audited sampleLibraries sampleServer ⟨7, [], 8, 0⟩
    (.deleteProject 1 3 none) twoOrganisations
  · rw [hsame] at hlog
    cases hlog
  · exact hchange

end Calls

/-! ## Runs -/

section Runs

variable {lib : Libraries} {srv : Server} {db : Db}

/-- One call after the other, each with what it draws. -/
def runCalls (lib : Libraries) (srv : Server) : List (Drawn × Call) → Db → Db
  | [], db => db
  | (draw, call) :: calls, db => runCalls lib srv calls (call.run lib srv draw db).2

theorem call_step (draw : Drawn) (call : Call) :
    (call.run lib srv draw db).2 = db ∨ ∃ t, AuditedChange t db (call.run lib srv draw db).2 := by
  obtain ⟨hdb, -⟩ | ⟨⟨t, -, -, -, hchange⟩, -⟩ := call_allOrNothing lib srv draw call db
  · exact .inl hdb
  · exact .inr ⟨t, hchange⟩

theorem AuditedChange.log_lt {t : Trail} {db db' : Db} (h : AuditedChange t db db') :
    db.auditLog.length < db'.auditLog.length := by
  obtain ⟨row, hlog, -⟩ := h.logged
  rw [hlog, List.length_append]
  exact Nat.lt_succ_self _

theorem runCalls_consistent (calls : List (Drawn × Call)) (h : db.Consistent) :
    (runCalls lib srv calls db).Consistent := by
  induction calls generalizing db with
  | nil => exact h
  | cons c calls ih =>
      refine ih ?_
      obtain hdb | ⟨t, hchange⟩ := call_step c.1 c.2
      · exact hdb.symm ▸ h
      · exact hchange.consistent h

theorem runCalls_log_le (calls : List (Drawn × Call)) :
    db.auditLog.length ≤ (runCalls lib srv calls db).auditLog.length := by
  induction calls generalizing db with
  | nil => exact le_rfl
  | cons c calls ih =>
      refine le_trans ?_ ih
      obtain hdb | ⟨t, hchange⟩ := call_step c.1 c.2
      · exact (congrArg (fun d => d.auditLog.length) hdb).ge
      · exact hchange.log_lt.le

/-- Over any run, tables that the audit log says nothing about have not changed. -/
theorem runCalls_unlogged (calls : List (Drawn × Call))
    (h : (runCalls lib srv calls db).auditLog.length = db.auditLog.length) :
    runCalls lib srv calls db = db := by
  induction calls generalizing db with
  | nil => rfl
  | cons c calls ih =>
      obtain hdb | ⟨t, hchange⟩ := call_step c.1 c.2
      · rw [runCalls, hdb] at h ⊢
        exact ih h
      · have hlt := hchange.log_lt
        have hle : (c.2.run lib srv c.1 db).2.auditLog.length ≤
            (runCalls lib srv calls (c.2.run lib srv c.1 db).2).auditLog.length :=
          runCalls_log_le calls
        rw [runCalls] at h
        omega

end Runs

end Crashlens.Tenant
