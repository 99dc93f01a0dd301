import Crashlens.Redelivery
import Crashlens.IssueStatus

/-!
# A regression is a release first seen after the fix

Over a serial run of one project the release table is the history of the run: a version has a row
exactly when an event carrying it is stored, and the row's `created_at` is the clock of the first of
them. A resolve records the latest of these versions, so an event regresses the issue exactly when
its release had not been seen by then.
-/

namespace Crashlens

open Transactional

section Steps

variable (pg : Postgres) (rt : Runtime)

/-- One job on its own, with the clock of its transaction. -/
def serialStep (db : Db) (jt : Job × Timestamp) : Db :=
  ((store pg).serial (jt.1.program pg rt) jt.2 db).2

/-- An event or a status change of project `p`. -/
def Job.OfProject (p : ℕ) : Job → Prop
  | .event call => call.projectId = p
  | .status p' _ _ _ => p' = p
  | _ => False

def Job.isResolveOf (p issueId : ℕ) : Job → Bool
  | .status p' issueId' .resolve _ => p' = p && issueId' = issueId
  | _ => false

/-- The rows a status change leaves pending. -/
def statusWrites (db : Db) (action : StatusAction) (actor : Option ℕ) (old : Issue) : WriteSet :=
  ⟨some (.update old (action.set pg db old)), none, none,
    some ⟨actor, action.auditAction, "issue", old.id⟩⟩

variable {pg rt} {now : Timestamp} {db : Db} {p : ℕ}

theorem exists_actor_of_isResolveOf {job : Job} {issueId : ℕ}
    (h : job.isResolveOf p issueId = true) : ∃ actor, job = .status p issueId .resolve actor := by
  cases job with
  | status p' i action actor =>
      cases action with
      | resolve =>
          obtain ⟨rfl, rfl⟩ : p' = p ∧ i = issueId := by simpa [Job.isResolveOf] using h
          exact ⟨actor, rfl⟩
      | ignore => cases h
      | reopen => cases h
  | event _ => cases h
  | assign _ _ _ _ => cases h
  | delete _ _ _ => cases h

theorem blocks_empty (q : Request) : blocks .empty q = false := by cases q <;> rfl

/-- A job on its own is one of the runs of a set of jobs. -/
theorem serialStep_run {ι : Type} [DecidableEq ι] [Fintype ι] (rt : Runtime) (jobs : ι → Job)
    (clock : ι → Timestamp) (db : Db) (i : ι) :
    ∃ n w, run (World.step (store pg)) (startJobs pg rt jobs clock db) (List.replicate n (.run i)) =
        some w ∧ w.committed = serialStep pg rt db (jobs i, clock i) := by
  have hfree (q : Request) : ¬ (startJobs pg rt jobs clock db).Blocked (store pg) i q := by
    rintro ⟨j, -, hholds⟩
    have hblocks : blocks .empty q = true := hholds
    rw [blocks_empty] at hblocks
    cases hblocks
  obtain ⟨n, hn⟩ := World.run_alone (store pg) (startJobs pg rt jobs clock db) i
    ((jobs i).program pg rt) ((store pg).init (clock i)) rfl hfree
  refine ⟨n, _, hn, ?_⟩
  unfold serialStep Store.serial World.finish
  split
  · next a s c he =>
      rw [show (startJobs pg rt jobs clock db).committed = db from rfl] at he
      rw [World.set_committed, he]
  · next e s c he =>
      rw [show (startJobs pg rt jobs clock db).committed = db from rfl] at he
      rw [World.set_committed, he]

theorem serialStep_event (rt : Runtime) (db : Db) (call : EventCall) (now : Timestamp) :
    serialStep pg rt db (.event call, now) = deliver pg rt db (call, now) :=
  congrArg Prod.snd (Store.serial_map (store pg) (processEvent pg rt call) Outcome.event now db)

theorem runs_updateStatus (i : ℕ) (action : StatusAction) {old : Issue}
    (hold : findIssueById db i p = some old) :
    TxRuns pg now (execute (.updateStatus action i p)) .empty db
      (.ok (some (action.set pg db old)))
      { WriteSet.empty with issue := some (.update old (action.set pg db old)) } db := by
  apply runs_execute
  simp only [exec, apply_empty, updateIssue, hold]

/-- A status change on its own updates the row it finds. -/
theorem serialStep_status (rt : Runtime) (now : Timestamp) (action : StatusAction)
    (actor : Option ℕ) {i : ℕ} (hp : p ∈ db.projects) :
    serialStep pg rt db (.status p i action actor, now) =
      match findIssueById db i p with
      | some old => (statusWrites pg db action actor old).apply db
      | none => db := by
  have hfound : TxRuns pg now (execute (.loadProject p)) .empty db (.ok true) .empty db :=
    runs_execute (by rw [exec, List.contains_iff_mem.mpr hp])
  have hserial := congrArg Prod.snd
    (Store.serial_map (store pg) (setIssueStatus p i action actor) Outcome.status now db)
  refine hserial.trans ?_
  cases hold : findIssueById db i p with
  | none =>
      have hruns : TxRuns pg now (setIssueStatus p i action actor) .empty db (.ok none) .empty
          db := by
        have hnone : TxRuns pg now (execute (.updateStatus action i p)) .empty db (.ok none) .empty
            db := runs_execute (by simp only [exec, apply_empty, updateIssue, hold])
        exact Runs.bind hfound (Runs.bind hnone (.pure ..))
      exact (congrArg Prod.snd hruns.serial_ok).trans apply_empty
  | some old =>
      have hid : i = old.id := (findIssueById_some hold).2.1.symm
      have hruns : TxRuns pg now (setIssueStatus p i action actor) .empty db
          (.ok (some (action.set pg db old))) (statusWrites pg db action actor old) db := by
        refine Runs.bind hfound (Runs.bind (runs_updateStatus i action hold) ?_)
        refine Runs.bind (a := ()) (runs_execute ?_) (.pure ..)
        rw [hid]
        rfl
      exact congrArg Prod.snd hruns.serial_ok

theorem statusWrites_fits {old : Issue} (hold : old ∈ db.issues)
    (action : StatusAction) (actor : Option ℕ) : (statusWrites pg db action actor old).Fits db := by
  refine ⟨fun iw hiw => ?_, fun r hr => ?_, fun e he => ?_⟩
  · cases hiw
    exact ⟨hold, set_id action old, set_key action old⟩
  · cases hr
  · cases he

/-- Everything one job of the project can do on its own. -/
theorem serialStep_cases (pg : Postgres) (rt : Runtime) (now : Timestamp) (hp : p ∈ db.projects)
    {job : Job} (hjob : job.OfProject p) :
    (∃ call b, job = .event call ∧ call.bound pg rt = some b ∧ b.projectId = p ∧
      serialStep pg rt db (job, now) = b.store now db) ∨
    (∃ action actor old, job = .status p old.id action actor ∧ old ∈ db.issues ∧
      old.projectId = p ∧
      serialStep pg rt db (job, now) = (statusWrites pg db action actor old).apply db) ∨
    (db.SameTables (serialStep pg rt db (job, now)) ∧
      ∀ i action actor, job = .status p i action actor → findIssueById db i p = none) := by
  cases job with
  | event call =>
      rw [serialStep_event]
      obtain ⟨b, hb, -, -, -, hstore⟩ | ⟨-, hsame⟩ := deliver_cases pg rt db (call, now)
      · exact .inl ⟨call, b, rfl, hb, (bound_call hb).1.trans hjob, hstore⟩
      · exact .inr (.inr ⟨hsame, fun i action actor h => by cases h⟩)
  | status p' i action actor =>
      have hp' : p' = p := hjob
      subst hp'
      rw [serialStep_status rt now action actor hp]
      cases hold : findIssueById db i p' with
      | some old =>
          obtain ⟨hmem, rfl, hproj⟩ := findIssueById_some hold
          exact .inr (.inl ⟨action, actor, old, rfl, hmem, hproj, rfl⟩)
      | none =>
          refine .inr (.inr ⟨.refl db, fun i' action' actor' h => ?_⟩)
          cases h
          exact hold
  | assign _ _ _ _ => exact hjob.elim
  | delete _ _ _ => exact hjob.elim

/-- A step only ever adds releases, each at the time of the step. -/
theorem serialStep_releases (pg : Postgres) (rt : Runtime) (now : Timestamp) (hp : p ∈ db.projects)
    {job : Job} (hjob : job.OfProject p) :
    (∀ r ∈ db.releases, r ∈ (serialStep pg rt db (job, now)).releases) ∧
      ∀ r ∈ (serialStep pg rt db (job, now)).releases, r ∈ db.releases ∨ r.createdAt = now := by
  obtain ⟨call, b, -, -, -, hstore⟩ | ⟨action, actor, old, -, -, -, hupd⟩ | ⟨⟨n, -, hsame⟩, -⟩ :=
    serialStep_cases pg rt now hp hjob
  · rw [hstore, store_releases]
    refine ⟨fun r hr => List.mem_append_left _ hr, fun r hr => ?_⟩
    rcases List.mem_append.mp hr with hr | hr
    · exact .inl hr
    · rw [(releaseWrite_some (Option.mem_toList.mp hr)).1]
      exact .inr rfl
  · have hrel : ((statusWrites pg db action actor old).apply db).releases = db.releases :=
      List.append_nil _
    rw [hupd, hrel]
    exact ⟨fun r hr => hr, fun r hr => .inl hr⟩
  · rw [hsame]
    exact ⟨fun r hr => hr, fun r hr => .inl hr⟩

/-- The release table of the project is the history of its stored events. -/
structure ReleaseHistory (p : ℕ) (db : Db) : Prop where
  valid : db.Valid
  project : p ∈ db.projects
  recorded : ∀ v, (∃ t, ⟨p, v, t⟩ ∈ db.releases) ↔
    v.nonempty = true ∧ ∃ e ∈ db.events, e.projectId = p ∧ e.release = some v

theorem ReleaseHistory.store {b : Bound} (h : ReleaseHistory b.projectId db) :
    ReleaseHistory b.projectId (b.store now db) := by
  refine ⟨store_valid h.valid, store_projects b now db ▸ h.project, fun v => ?_⟩
  rw [store_releases, store_events]
  constructor
  · rintro ⟨t, ht⟩
    rcases List.mem_append.mp ht with ht | ht
    · obtain ⟨hne, e, he, hproj, hrel⟩ := (h.recorded v).mp ⟨t, ht⟩
      exact ⟨hne, e, List.mem_append_left _ he, hproj, hrel⟩
    · obtain ⟨-, hrec, -⟩ := releaseWrite_some (Option.mem_toList.mp ht)
      obtain ⟨hrel, hne⟩ := recorded_some.mp hrec
      exact ⟨hne, b.event now db, List.mem_append_right _ (List.mem_singleton_self _), rfl, hrel⟩
  · rintro ⟨hne, e, he, hproj, hrel⟩
    rcases List.mem_append.mp he with he | he
    · obtain ⟨t, ht⟩ := (h.recorded v).mpr ⟨hne, e, he, hproj, hrel⟩
      exact ⟨t, List.mem_append_left _ ht⟩
    · rw [List.mem_singleton.mp he] at hrel
      obtain ⟨t, ht, -⟩ := recorded_row (b := b) (recorded_some.mpr ⟨hrel, hne⟩)
      exact ⟨t, ht⟩

theorem ReleaseHistory.step (pg : Postgres) (rt : Runtime) (now : Timestamp)
    (h : ReleaseHistory p db) {job : Job} (hjob : job.OfProject p) :
    ReleaseHistory p (serialStep pg rt db (job, now)) := by
  obtain ⟨call, b, -, -, rfl, hstore⟩ | ⟨action, actor, old, -, hold, -, hupd⟩ |
    ⟨⟨n, hn, hsame⟩, -⟩ := serialStep_cases pg rt now h.project hjob
  · rw [hstore]
    exact h.store
  · rw [hupd]
    refine ⟨(statusWrites_fits hold action actor).valid_apply h.valid, h.project, fun v => ?_⟩
    have hrel : ((statusWrites pg db action actor old).apply db).releases = db.releases :=
      List.append_nil _
    have hev : ((statusWrites pg db action actor old).apply db).events = db.events :=
      List.append_nil _
    rw [hrel, hev]
    exact h.recorded v
  · rw [hsame]
    exact ⟨⟨h.valid.keys, h.valid.ids, fun r hr => (h.valid.idsFresh r hr).trans_le hn,
      fun e he => (h.valid.eventIds e he).trans_le hn, h.valid.releaseKeys⟩, h.project, h.recorded⟩

/-- An issue that is resolved after a step other than its resolve was resolved before it, with the
same fix release. -/
theorem step_resolved_back (rt : Runtime) (now : Timestamp) (hp : p ∈ db.projects) {job : Job}
    (hjob : job.OfProject p) {row : Issue}
    (hrow : row ∈ (serialStep pg rt db (job, now)).issues) (hres : row.status = .resolved)
    (hno : job.isResolveOf p row.id = false) :
    ∃ r ∈ db.issues, r.id = row.id ∧ r.projectId = row.projectId ∧ r.status = .resolved ∧
      r.resolvedInRelease = row.resolvedInRelease := by
  obtain ⟨call, b, -, -, -, hstore⟩ | ⟨action, actor, old, rfl, hold, -, hupd⟩ |
    ⟨⟨n, -, hsame⟩, -⟩ := serialStep_cases pg rt now hp hjob
  · rw [hstore, store_issues, Bound.issueWrite] at hrow
    cases hfound : findIssue db b.projectId b.fingerprint with
    | some old =>
        rw [hfound] at hrow
        rcases mem_apply_update hrow with rfl | ⟨hmem, -⟩
        · have hupdate : EventUpdate old ((b.params now db).onConflict old) :=
            eventUpdate_onConflict _
          refine ⟨old, (findIssue_some hfound).1, rfl, rfl, ?_, rfl⟩
          rcases hupdate.status with hsame | ⟨-, hreg⟩
          · rw [← hsame, hres]
          · rw [hres] at hreg
            cases hreg
        · exact ⟨row, hmem, rfl, rfl, hres, rfl⟩
    | none =>
        rw [hfound] at hrow
        rcases List.mem_append.mp hrow with hmem | hnew
        · exact ⟨row, hmem, rfl, rfl, hres, rfl⟩
        · rw [List.mem_singleton.mp hnew] at hres
          cases hres
  · rw [hupd, apply_issues_some rfl] at hrow
    rcases mem_apply_update hrow with rfl | ⟨hmem, -⟩
    · cases action with
      | resolve => simp [Job.isResolveOf] at hno
      | ignore => cases hres
      | reopen => cases hres
    · exact ⟨row, hmem, rfl, rfl, hres, rfl⟩
  · rw [hsame] at hrow
    exact ⟨row, hrow, rfl, rfl, hres, rfl⟩

theorem before_createdAt {a b : Release} (h : a.before pg b = true) :
    b.createdAt ≤ a.createdAt := by
  simp only [Release.before, Bool.or_eq_true, Bool.and_eq_true, decide_eq_true_eq] at h
  rcases h with h | ⟨h, -⟩
  · exact h.le
  · exact h.le

theorem createdAt_of_not_before {a b : Release} (h : ¬ a.before pg b = true) :
    a.createdAt ≤ b.createdAt := by
  simp only [Release.before, Bool.or_eq_true, decide_eq_true_eq, not_or] at h
  exact not_lt.mp h.1

/-- One step of a scan for the first release in the order keeps the later of two rows. -/
theorem scan_step (pg : Postgres) (best : Option Release) (r : Release) :
    ∃ kept, best.elim (some r) (fun b => if r.before pg b then some r else some b) = some kept ∧
      (best = some kept ∨ kept = r) ∧
        ∀ r', best = some r' ∨ r' = r → r'.createdAt ≤ kept.createdAt := by
  cases best with
  | none => exact ⟨r, rfl, .inr rfl, by simp⟩
  | some b =>
      by_cases hb : r.before pg b = true
      · refine ⟨r, if_pos hb, .inr rfl, ?_⟩
        rintro r' (hr' | rfl)
        · exact Option.some.inj hr' ▸ before_createdAt hb
        · exact le_rfl
      · refine ⟨b, if_neg hb, .inl rfl, ?_⟩
        rintro r' (hr' | rfl)
        · exact Option.some.inj hr' ▸ le_rfl
        · exact createdAt_of_not_before hb

/-- The row kept by a scan is one of those seen, and none of them was created later. -/
theorem scan_latest {step : Option Release → Release → Option Release} {rows : List Release}
    {best : Option Release} {m : Release} (h : rows.foldl step best = some m)
    (hstep : ∀ best r, ∃ kept, step best r = some kept ∧ (best = some kept ∨ kept = r) ∧
      ∀ r', best = some r' ∨ r' = r → r'.createdAt ≤ kept.createdAt) :
    (best = some m ∨ m ∈ rows) ∧
      ∀ r, best = some r ∨ r ∈ rows → r.createdAt ≤ m.createdAt := by
  induction rows generalizing best with
  | nil =>
      rw [List.foldl_nil] at h
      refine ⟨.inl h, ?_⟩
      rintro r (hr | hr)
      · rw [Option.some.inj (hr.symm.trans h)]
      · cases hr
  | cons r rows ih =>
      obtain ⟨kept, hkept, hfrom, hle⟩ := hstep best r
      rw [List.foldl_cons, hkept] at h
      obtain ⟨hm, hlater⟩ := ih h
      have hlast : kept.createdAt ≤ m.createdAt := hlater kept (.inl rfl)
      constructor
      · rcases hm with hm | hm
        · obtain rfl := Option.some.inj hm
          rcases hfrom with hfrom | rfl
          · exact .inl hfrom
          · exact .inr List.mem_cons_self
        · exact .inr (List.mem_cons_of_mem r hm)
      · rintro r' (hr' | hr')
        · exact (hle r' (.inl hr')).trans hlast
        · rcases List.mem_cons.mp hr' with rfl | hr'
          · exact (hle r' (.inr rfl)).trans hlast
          · exact hlater r' (.inr hr')

/-- The latest release of a project was created no earlier than any other. -/
theorem latestRelease_some {v : Text} (h : latestRelease pg db p = some v) :
    ∃ t, ⟨p, v, t⟩ ∈ db.releases ∧ ∀ r ∈ db.releases, r.projectId = p → r.createdAt ≤ t := by
  obtain ⟨m, hm, rfl⟩ := Option.map_eq_some_iff.mp h
  obtain ⟨hmem, hle⟩ := scan_latest hm fun best r => by
    cases best with
    | none => exact scan_step pg none r
    | some b => exact scan_step pg (some b) r
  rcases hmem with hmem | hmem
  · cases hmem
  · obtain ⟨hmem, hproj⟩ := List.mem_filter.mp hmem
    have hp : m.projectId = p := of_decide_eq_true hproj
    refine ⟨m.createdAt, hp ▸ hmem, fun r hr hrp => ?_⟩
    exact hle r (.inr (List.mem_filter.mpr ⟨hr, decide_eq_true hrp⟩))

/-- The decision against a known fix release compares the two rows of the release table. -/
theorem shouldRegress_eq_false_iff {b : Bound} (hdb : db.Valid) {row : Issue} {fix r : Text}
    (hrow : findIssue db b.projectId b.fingerprint = some row)
    (hfix : row.resolvedInRelease = some fix) (hne : fix.nonempty = true)
    (hrec : b.recorded = some r) :
    b.shouldRegress now db = false ↔ ∃ t tf, ⟨b.projectId, r, t⟩ ∈ (b.view now db).releases ∧
      ⟨b.projectId, fix, tf⟩ ∈ (b.view now db).releases ∧ t ≤ tf := by
  have hview : (b.view now db).Valid := view_valid hdb
  have hdecide : b.shouldRegress now db = decideRegression (some fix) (some r)
      (releaseCreatedAt (b.view now db) b.projectId r)
      (releaseCreatedAt (b.view now db) b.projectId fix) := by
    simp only [Bound.shouldRegress, hrow, hrec, Option.bind_some, hfix, Option.filter_some, hne,
      if_true]
  rw [hdecide, decideRegression_iff]
  constructor
  · rintro ⟨f, r', t, tf, hf, -, hr, -, ht, htf, hle⟩
    cases hf
    cases hr
    exact ⟨t, tf, releaseCreatedAt_some ht, releaseCreatedAt_some htf, hle⟩
  · rintro ⟨t, tf, ht, htf, hle⟩
    exact ⟨fix, r, t, tf, rfl, hne, rfl, (recorded_some.mp hrec).2,
      releaseCreatedAt_of_mem hview ht, releaseCreatedAt_of_mem hview htf, hle⟩

/-- A stored event flips a resolved issue exactly when it decides so. -/
theorem store_regresses_iff {b : Bound} (hdb : db.Valid) {row : Issue}
    (hrow : findIssue db b.projectId b.fingerprint = some row) (hres : row.status = .resolved) :
    (∃ row' ∈ (b.store now db).issues, row'.id = row.id ∧ row'.status = .regressed) ↔
      b.shouldRegress now db = true := by
  have hnew := findIssue_store b now db
  rw [hrow] at hnew
  have hmem := (findIssue_some hnew).1
  have hstatus : ((b.params now db).onConflict row).status =
      if b.shouldRegress now db then .regressed else .resolved := by
    rw [onConflict_status, hres]
    simp [Bound.params]
  constructor
  · rintro ⟨row', hrow', hid, hreg⟩
    rw [(store_valid hdb).eq_of_id hrow' hmem hid, hstatus] at hreg
    by_contra hno
    rw [if_neg hno] at hreg
    cases hreg
  · intro hshould
    rw [if_pos hshould] at hstatus
    exact ⟨_, hmem, rfl, hstatus⟩

end Steps

/-! ## Runs -/

section Runs

variable {pg : Postgres} {rt : Runtime} {db : Db} {p : ℕ} {history : List (Job × Timestamp)}

theorem ReleaseHistory.replay (h : ReleaseHistory p db)
    (hjobs : ∀ jt ∈ history, jt.1.OfProject p) :
    ReleaseHistory p (Transactional.replay (serialStep pg rt) db history) :=
  replay_invariant (fun _ jt hjt hdb => hdb.step pg rt jt.2 (hjobs jt hjt)) h

theorem replay_releases (pg : Postgres) (rt : Runtime) (h : ReleaseHistory p db)
    (hjobs : ∀ jt ∈ history, jt.1.OfProject p) :
    (∀ r ∈ db.releases, r ∈ (replay (serialStep pg rt) db history).releases) ∧
      ∀ r ∈ (replay (serialStep pg rt) db history).releases,
        r ∈ db.releases ∨ ∃ jt ∈ history, r.createdAt = jt.2 := by
  induction history generalizing db with
  | nil => exact ⟨fun r hr => hr, fun r hr => .inl hr⟩
  | cons jt history ih =>
      have hjob := hjobs jt (List.mem_cons_self ..)
      obtain ⟨hkeep, hnew⟩ := serialStep_releases pg rt jt.2 h.project hjob
      obtain ⟨hkeep', hnew'⟩ := ih (h.step pg rt jt.2 hjob) fun jt' hjt' =>
        hjobs jt' (List.mem_cons_of_mem jt hjt')
      refine ⟨fun r hr => hkeep' r (hkeep r hr), fun r hr => ?_⟩
      rcases hnew' r hr with hr | ⟨jt', hjt', ht⟩
      · rcases hnew r hr with hr | ht
        · exact .inl hr
        · exact .inr ⟨jt, List.mem_cons_self .., ht⟩
      · exact .inr ⟨jt', List.mem_cons_of_mem jt hjt', ht⟩

/-- Without a resolve of its own, an issue that ends resolved was resolved from the start. -/
theorem replay_resolved_back (h : ReleaseHistory p db) (hjobs : ∀ jt ∈ history, jt.1.OfProject p)
    {row : Issue} (hrow : row ∈ (replay (serialStep pg rt) db history).issues)
    (hres : row.status = .resolved)
    (hno : ∀ jt ∈ history, jt.1.isResolveOf p row.id = false) :
    ∃ r ∈ db.issues, r.id = row.id ∧ r.projectId = row.projectId ∧ r.status = .resolved ∧
      r.resolvedInRelease = row.resolvedInRelease := by
  induction history generalizing db with
  | nil => exact ⟨row, hrow, rfl, rfl, hres, rfl⟩
  | cons jt history ih =>
      have hjob := hjobs jt (List.mem_cons_self ..)
      obtain ⟨r, hr, hid, hproj, hst, hfix⟩ := ih (h.step pg rt jt.2 hjob)
        (fun jt' hjt' => hjobs jt' (List.mem_cons_of_mem jt hjt')) hrow
        (fun jt' hjt' => hno jt' (List.mem_cons_of_mem jt hjt'))
      have hback := step_resolved_back rt jt.2 h.project hjob hr hst
        (hid ▸ hno jt (List.mem_cons_self ..))
      obtain ⟨r', hr', hid', hproj', hst', hfix'⟩ := hback
      exact ⟨r', hr', hid'.trans hid, hproj'.trans hproj, hst', hfix'.trans hfix⟩

/-- The last element of a list with a property. -/
theorem exists_last {α : Type} {P : α → Bool} {l : List α} (h : ∃ x ∈ l, P x = true) :
    ∃ l₁ x l₂, l = l₁ ++ x :: l₂ ∧ P x = true ∧ ∀ y ∈ l₂, P y = false := by
  induction l with
  | nil =>
      obtain ⟨x, hx, -⟩ := h
      cases hx
  | cons a l ih =>
      by_cases hl : ∃ x ∈ l, P x = true
      · obtain ⟨l₁, x, l₂, rfl, hx, hlast⟩ := ih hl
        exact ⟨a :: l₁, x, l₂, rfl, hx, hlast⟩
      · obtain ⟨x, hx, hP⟩ := h
        rcases List.mem_cons.mp hx with rfl | hx
        · exact ⟨[], x, l, rfl, hP, fun y hy => Bool.eq_false_iff.mpr fun hy' => hl ⟨y, hy, hy'⟩⟩
        · exact absurd ⟨x, hx, hP⟩ hl

/-- The row a resolve leaves carries the latest release of the project. -/
theorem resolve_fix (h : ReleaseHistory p db) {i : ℕ} {actor : Option ℕ} {now : Timestamp}
    {row : Issue} (hrow : row ∈ (serialStep pg rt db (.status p i .resolve actor, now)).issues)
    (hid : row.id = i) (hproj : row.projectId = p) :
    row.resolvedInRelease = latestRelease pg db p := by
  rw [serialStep_status rt now .resolve actor h.project] at hrow
  cases hold : findIssueById db i p with
  | none =>
      rw [hold] at hrow
      exact absurd (decide_eq_true ⟨hid, hproj⟩) (List.find?_eq_none.mp hold row hrow)
  | some old =>
      rw [hold] at hrow
      dsimp only at hrow
      rw [apply_issues_some rfl] at hrow
      obtain ⟨-, hold_id, hold_proj⟩ := findIssueById_some hold
      rcases mem_apply_update hrow with rfl | ⟨-, hne⟩
      · have hset : (StatusAction.resolve.set pg db old).resolvedInRelease =
            latestRelease pg db old.projectId := rfl
        rw [hset, hold_proj]
      · exact absurd (hid.trans hold_id.symm) hne

theorem ReleaseHistory.of_empty (hdb : db.Valid) (hempty : db.EmptyProject p)
    (hproject : p ∈ db.projects) : ReleaseHistory p db := by
  refine ⟨hdb, hproject, fun v => ⟨?_, ?_⟩⟩
  · rintro ⟨t, ht⟩
    exact absurd rfl (hempty.releases _ ht)
  · rintro ⟨-, e, he, hproj, -⟩
    exact absurd hproj (hempty.events e he)

/-- Between the resolve at `resolvedAt`, which records the latest release of `before`, and the event
at `now`, only later releases are added. -/
theorem shouldRegress_iff_unseen {before db : Db} {b : Bound} {now resolvedAt tf : Timestamp}
    {row : Issue} {fix r : Text} (hbefore : ReleaseHistory b.projectId before) (hdb : db.Valid)
    (hkeep : ∀ rel ∈ before.releases, rel ∈ db.releases)
    (hlater : ∀ rel ∈ db.releases, rel ∈ before.releases ∨ resolvedAt ≤ rel.createdAt)
    (hrow : findIssue db b.projectId b.fingerprint = some row)
    (hfix : row.resolvedInRelease = some fix) (hfixRow : ⟨b.projectId, fix, tf⟩ ∈ before.releases)
    (hmax : ∀ rel ∈ before.releases, rel.projectId = b.projectId → rel.createdAt ≤ tf)
    (htf : tf < resolvedAt) (hnow : resolvedAt < now) (hrec : b.recorded = some r) :
    b.shouldRegress now db = true ↔
      ¬ ∃ e ∈ before.events, e.projectId = b.projectId ∧ e.release = some r := by
  have hfixne : fix.nonempty = true := ((hbefore.recorded fix).mp ⟨tf, hfixRow⟩).1
  have hne : r.nonempty = true := (recorded_some.mp hrec).2
  have hview : (b.view now db).Valid := view_valid hdb
  have hsee {rel : Release} (h : rel ∈ before.releases) : rel ∈ (b.view now db).releases :=
    List.mem_append_left _ (hkeep rel h)
  rw [← Bool.not_eq_false, shouldRegress_eq_false_iff hdb hrow hfix hfixne hrec, not_iff_not]
  constructor
  · rintro ⟨t, tf', ht, htf', hle⟩
    have hsame : tf' = tf := by
      have hread := releaseCreatedAt_of_mem hview htf'
      rw [releaseCreatedAt_of_mem hview (hsee hfixRow)] at hread
      exact (Option.some.inj hread).symm
    have hearly : t < resolvedAt := (hsame ▸ hle).trans_lt htf
    rcases List.mem_append.mp ht with ht | ht
    · rcases hlater _ ht with ht | ht
      · exact ((hbefore.recorded r).mp ⟨t, ht⟩).2
      · exact absurd hearly (not_lt.mpr ht)
    · have hrow := (releaseWrite_some (Option.mem_toList.mp ht)).1
      have hnew : t = now := congrArg Release.createdAt hrow
      exact absurd (hearly.trans hnow) (not_lt.mpr hnew.ge)
  · intro hseen
    obtain ⟨t, ht⟩ := (hbefore.recorded r).mpr ⟨hne, hseen⟩
    exact ⟨t, tf, hsee ht, hsee hfixRow, hmax _ ht rfl⟩

/-- A resolve, jobs that do not resolve the issue again, and an event that finds it resolved. -/
theorem regressed_iff_since {before : Db} {since : List (Job × Timestamp)} {call : EventCall}
    {actor : Option ℕ} {resolvedAt now : Timestamp} {b : Bound} {row : Issue} {r : Text}
    (hbefore : ReleaseHistory b.projectId before)
    (hpast : ∀ rel ∈ before.releases, rel.projectId = b.projectId → rel.createdAt < resolvedAt)
    (hjobs : ∀ jt ∈ since, jt.1.OfProject b.projectId)
    (hlast : ∀ jt ∈ since, jt.1.isResolveOf b.projectId row.id = false)
    (hsince : ∀ jt ∈ since, resolvedAt < jt.2) (hnow : resolvedAt < now)
    (hb : call.bound pg rt = some b) (hrec : b.recorded = some r)
    (hrow : row ∈ (replay (serialStep pg rt) (serialStep pg rt before
      (.status b.projectId row.id .resolve actor, resolvedAt)) since).issues)
    (hkey : row.key = (b.projectId, b.fingerprint)) (hres : row.status = .resolved)
    (hfix : row.resolvedInRelease ≠ none)
    (hstored : delivers pg rt (replay (serialStep pg rt) (serialStep pg rt before
      (.status b.projectId row.id .resolve actor, resolvedAt)) since) (call, now) = true) :
    (∃ row' ∈ (deliver pg rt (replay (serialStep pg rt) (serialStep pg rt before
        (.status b.projectId row.id .resolve actor, resolvedAt)) since) (call, now)).issues,
        row'.id = row.id ∧ row'.status = .regressed) ↔
      ¬ ∃ e ∈ before.events, e.projectId = b.projectId ∧ e.release = some r := by
  have hjob : (Job.status b.projectId row.id .resolve actor).OfProject b.projectId := rfl
  have hproj : row.projectId = b.projectId := congrArg Prod.fst hkey
  have hresolved := hbefore.step pg rt resolvedAt hjob
  obtain ⟨hkeep, hnew⟩ := serialStep_releases pg rt resolvedAt hbefore.project hjob
  obtain ⟨hkeep', hnew'⟩ := replay_releases pg rt hresolved hjobs
  -- the fix release is the latest one of the resolve
  obtain ⟨r₂, hr₂, hid, hproj₂, -, hfix₂⟩ := replay_resolved_back hresolved hjobs hrow hres hlast
  obtain ⟨fix, hfix⟩ := Option.ne_none_iff_exists'.mp hfix
  have hlatest : latestRelease pg before b.projectId = some fix := by
    rw [← resolve_fix hbefore hr₂ hid (hproj₂.trans hproj), hfix₂, hfix]
  obtain ⟨tf, hfixRow, hmax⟩ := latestRelease_some hlatest
  -- the event is stored on the row
  have hdb : ReleaseHistory b.projectId (replay (serialStep pg rt) (serialStep pg rt before
    (.status b.projectId row.id .resolve actor, resolvedAt)) since) := hresolved.replay hjobs
  have hfound := findIssue_of_mem hdb.valid hrow hkey
  obtain ⟨b', hb', -, -, -, hstore⟩ | ⟨hnot, -⟩ := deliver_cases pg rt (replay (serialStep pg rt)
    (serialStep pg rt before (.status b.projectId row.id .resolve actor, resolvedAt)) since)
    (call, now)
  · obtain rfl : b = b' := Option.some.inj (hb.symm.trans hb')
    rw [hstore, store_regresses_iff hdb.valid hfound hres]
    refine shouldRegress_iff_unseen hbefore hdb.valid (fun rel h => hkeep' rel (hkeep rel h))
      (fun rel h => ?_) hfound hfix hfixRow hmax (hpast _ hfixRow rfl) hnow hrec
    rcases hnew' rel h with h | ⟨jt, hjt, ht⟩
    · rcases hnew rel h with h | ht
      · exact .inl h
      · exact .inr ht.ge
    · exact .inr (ht ▸ (hsince jt hjt).le)
  · rw [hstored] at hnot
    cases hnot

theorem regressed_iff_release_unseen_at_fix (hdb : db.Valid) (hempty : db.EmptyProject p)
    (hproject : p ∈ db.projects) (hjobs : ∀ jt ∈ history, jt.1.OfProject p)
    {call : EventCall} {now : Timestamp} {b : Bound} {row : Issue} {r : Text}
    (hclock : ((history ++ [(Job.event call, now)]).map Prod.snd).Pairwise (· < ·))
    (hb : call.bound pg rt = some b) (hp : b.projectId = p) (hrel : b.release = some r)
    (hne : r.nonempty = true) (hrow : row ∈ (replay (serialStep pg rt) db history).issues)
    (hkey : row.key = (p, b.fingerprint)) (hres : row.status = .resolved)
    (hfix : row.resolvedInRelease ≠ none)
    (hstored : delivers pg rt (replay (serialStep pg rt) db history) (call, now) = true) :
    ∃ before resolve since, history = before ++ resolve :: since ∧
      resolve.1.isResolveOf p row.id = true ∧
      (∀ jt ∈ since, jt.1.isResolveOf p row.id = false) ∧
      ((∃ row' ∈ (replay (serialStep pg rt) db (history ++ [(Job.event call, now)])).issues,
          row'.id = row.id ∧ row'.status = .regressed) ↔
        ¬ ∃ e ∈ (replay (serialStep pg rt) db before).events,
          e.projectId = p ∧ e.release = some r) := by
  subst hp
  have hstart : ReleaseHistory b.projectId db := .of_empty hdb hempty hproject
  have hproj : row.projectId = b.projectId := congrArg Prod.fst hkey
  -- the last resolve of the issue
  have hresolved : ∃ jt ∈ history, jt.1.isResolveOf b.projectId row.id = true := by
    by_contra hno
    obtain ⟨r₀, hr₀, -, hproj₀, -⟩ := replay_resolved_back hstart hjobs hrow hres fun jt hjt =>
      Bool.eq_false_iff.mpr fun h => hno ⟨jt, hjt, h⟩
    exact hempty.issues r₀ hr₀ (hproj₀.trans hproj)
  obtain ⟨before, resolve, since, rfl, his, hlast⟩ := exists_last hresolved
  refine ⟨before, resolve, since, rfl, his, hlast, ?_⟩
  obtain ⟨job, resolvedAt⟩ := resolve
  obtain ⟨actor, rfl⟩ := exists_actor_of_isResolveOf his
  -- the clocks of the run
  simp only [List.map_append, List.map_cons, List.map_nil, List.pairwise_append,
    List.pairwise_cons, List.mem_append, List.mem_cons, List.mem_map] at hclock
  obtain ⟨⟨-, ⟨hsince, -⟩, hbefore⟩, -, hnow⟩ := hclock
  have hresolvedNow : resolvedAt < now := hnow resolvedAt (.inr (.inl rfl)) now (.inl rfl)
  have hjobsBefore : ∀ jt ∈ before, jt.1.OfProject b.projectId := fun jt hjt =>
    hjobs jt (List.mem_append_left _ hjt)
  have hjobsSince : ∀ jt ∈ since, jt.1.OfProject b.projectId := fun jt hjt =>
    hjobs jt (List.mem_append_right _ (List.mem_cons_of_mem _ hjt))
  have hpast : ∀ rel ∈ (replay (serialStep pg rt) db before).releases,
      rel.projectId = b.projectId → rel.createdAt < resolvedAt := by
    intro rel hrel hrelProj
    rcases (replay_releases pg rt hstart hjobsBefore).2 rel hrel with h | ⟨jt, hjt, ht⟩
    · exact absurd hrelProj (hempty.releases rel h)
    · exact ht ▸ hbefore jt.2 ⟨jt, hjt, rfl⟩ resolvedAt (.inl rfl)
  rw [replay_append, replay_cons] at hrow hstored
  rw [replay_append, replay_append, replay_cons, replay_cons, replay_nil, serialStep_event]
  exact regressed_iff_since (hstart.replay hjobsBefore) hpast hjobsSince hlast
    (fun jt hjt => hsince jt.2 ⟨jt, hjt, rfl⟩) hresolvedNow hb (recorded_some.mpr ⟨hrel, hne⟩) hrow
    hkey hres hfix hstored

/-- An event of release 1.0, the resolve that records it as the fix, and an event of release 2.0. -/
theorem regressed_iff_release_unseen_at_fix_new_release :
    let history : List (Job × Timestamp) :=
      [(.event (sampleCall (some "1.0") (toHex 32 1) 10), 1), (.status 1 1 .resolve none, 2)]
    let call := sampleCall (some "2.0") (toHex 32 2) 20
    let after (history : List (Job × Timestamp)) :=
      replay (serialStep samplePostgres sampleRuntime) sampleDb history
    ∃ row ∈ (after history).issues, row.status = .resolved ∧
      ∃ r before resolve since, history = before ++ resolve :: since ∧
        ((∃ row' ∈ (after (history ++ [(.event call, 3)])).issues,
            row'.id = row.id ∧ row'.status = .regressed) ↔
          ¬ ∃ e ∈ (after before).events, e.projectId = 1 ∧ e.release = some r) := by
  intro history call after
  obtain ⟨b, hb, hevent⟩ := (Option.any_eq_true (fun b : Bound => b.projectId = 1 ∧
    b.fingerprint = sampleFingerprint ∧ b.recorded.isSome) _).mp (show (call.bound samplePostgres
      sampleRuntime).any _ = true by decide +kernel)
  obtain ⟨hp, hf, hrec⟩ := of_decide_eq_true hevent
  obtain ⟨r, hr⟩ := Option.isSome_iff_exists.mp hrec
  obtain ⟨row, hrow, hmatch⟩ := List.any_eq_true.mp (show (after history).issues.any (fun row =>
    row.key = (1, sampleFingerprint) ∧ row.status = .resolved ∧ row.resolvedInRelease ≠ none) = true
      by decide +kernel)
  obtain ⟨hkey, hres, hfix⟩ := of_decide_eq_true hmatch
  obtain ⟨hrel, hne⟩ := recorded_some.mp hr
  have hjobs : ∀ jt ∈ history, jt.1.OfProject 1 := by
    intro jt hjt
    rcases List.mem_cons.mp hjt with rfl | hjt
    · rfl
    · rw [List.mem_singleton.mp hjt]
      rfl
  have hclock : ((history ++ [(Job.event call, 3)]).map Prod.snd).Pairwise (· < ·) := by decide
  have hstored : delivers samplePostgres sampleRuntime (after history) (call, 3) = true := by
    decide +kernel
  obtain ⟨before, resolve, since, hsplit, -, -, hiff⟩ :=
    regressed_iff_release_unseen_at_fix sampleDb_valid sampleDb_emptyProject (by decide) hjobs
      hclock hb hp hrel hne hrow (hf ▸ hkey) hres hfix hstored
  exact ⟨row, hrow, hres, r, before, resolve, since, hsplit, hiff⟩

end Runs

end Crashlens
