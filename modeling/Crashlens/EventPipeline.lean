import Crashlens.EventContract
import Crashlens.IngestRuns
import Crashlens.Redelivery
import Mathlib.Data.List.MinMax

/-!
# From the ingest route to the event tables

The worker takes a job of the queue any number of times, in any order, and each delivery is on its
own. The API and the worker have one database: what the dashboard does to projects, issues and
releases is there at the next delivery, and the issues and releases of a delivery are there at the
next call. Only the worker adds rows to the events. A row that is stored leads back to a request
that was promised with a key in use, under the ids of that key, and there is one of it however often
its job is delivered.
-/

namespace Crashlens.Pipeline

open RowSecurity
open Edge (EventJob)
open Tenant (Libraries)

/-- `_coerce_timestamp` -/
def coerceTimestamp (rt : Runtime) (clock : Timestamp) (value : PyStr) : Timestamp :=
  (rt.fromisoformat (zuluOffset value)).getD clock

/-- What a delivery finds: the clocks of the worker and of the database, and the source maps. -/
structure Worker where
  clock : Timestamp
  now : Timestamp
  maps : Filesystem

/-- The arguments of a job as `process_event` binds them. -/
def jobCall (pg : Postgres) (rt : Runtime) (worker : Worker) (job : EventJob) :
    Option EventCall := do
  let orgId ← pg.uuidIn job.orgId
  let projectId ← pg.uuidIn job.projectId
  return {
    envelope := job.envelope
    orgId := orgId
    projectId := projectId
    seenAt := coerceTimestamp rt worker.clock job.receivedAt
    maps := worker.maps }

/-! ## One database -/

/-- `gen_random_uuid()`: an id that no issue has. -/
def freshIssueId (db : Tenant.Db) : ℕ := (db.issues.map fun i => i.id).foldr max 0 + 1

/-- The issues and the releases that a session of the organisation leaves. -/
def writeBack (db : Tenant.Db) (orgId : ℕ) (tables : Db) : Tenant.Db :=
  { db with
    issues := elsewhere orgId db.issues ++ tables.issues.map fun i => { toIssue := i, orgId }
    releases := elsewhere orgId db.releases ++
      tables.releases.map fun r => { toRelease := r, orgId } }

/-- What the retention and the maintenance do to the events of an organisation and to the
partitions: rows may go, none is added. -/
structure Change where
  events : List Event → List Event
  partitions : List ℤ → List ℤ
  sublist : ∀ rows, (events rows).Sublist rows

/-- How many rows of the project have this event id. -/
def rowsOf (events : List Event) (p eventId : ℕ) : ℕ :=
  events.countP fun e => e.projectId = p ∧ e.eventId = eventId

/-- The row is among those that the change leaves. -/
def Change.Spares (change : Change) (p eventId : ℕ) : Prop :=
  ∀ events, rowsOf events p eventId ≠ 0 → rowsOf (change.events events) p eventId ≠ 0

/-- The tables of the API with its queue, and next to them the events of each organisation in their
partitions. Events have no foreign keys. -/
structure State where
  edge : Edge.State
  events : ℕ → List Event
  partitions : List ℤ

/-- What the worker's session of an organisation sees. -/
def State.tables (s : State) (orgId : ℕ) : Db :=
  { s.edge.db.issueView (.tenant orgId) with
    partitions := s.partitions
    events := s.events orgId
    nextId := freshIssueId s.edge.db }

def State.settle (s : State) (orgId : ℕ) (tables : Db) : State :=
  { s with
    edge := { s.edge with db := writeBack s.edge.db orgId tables }
    events := Function.update s.events orgId tables.events }

inductive Move where
  | edge (input : Edge.Input)
  | deliver (index : ℕ) (worker : Worker)
  | change (orgId : ℕ) (change : Change)

section Moves

variable (pg : Postgres) (lib : Libraries)
  (gunzip : Gzip.Bytes → Except Gzip.IngestError Gzip.Bytes)

def step (s : State) : Move → State
  | .edge input => { s with edge := (Edge.step lib gunzip s.edge input).2 }
  | .deliver index worker =>
    match s.edge.queue[index]?.bind (jobCall pg lib.rt worker) with
    | none => s
    | some call =>
      s.settle call.orgId (deliver pg lib.rt (s.tables call.orgId) (call, worker.now))
  | .change orgId change =>
    { s with
      events := Function.update s.events orgId (change.events (s.events orgId))
      partitions := change.partitions s.partitions }

def run (s : State) (moves : List Move) : State := moves.foldl (step pg lib gunzip) s

/-- The job was enqueued for an event of the run, authentic at that moment. -/
def Entered (s : State) (moves : List Move) (job : EventJob) : Prop :=
  ∃ before m request after, moves = before ++ .edge (.event m request) :: after ∧
    Edge.Authentic lib (run pg lib gunzip s before).edge.db request job

end Moves

section Ids

end Ids

/-! ## Deliveries and the rest of the database -/

section WriteBack

variable {pg : Postgres} {rt : Runtime} {db : Db} {d : Delivery}

/-- The issues and the releases of a session are of its projects. -/
structure Anchored (db : Db) : Prop where
  issues : ∀ i ∈ db.issues, i.projectId ∈ db.projects
  releases : ∀ r ∈ db.releases, r.projectId ∈ db.projects

/-- A delivery adds one issue at most, under the next id, and its foreign keys hold. -/
structure Delivered (db db' : Db) : Prop where
  ids : db'.issues.map Issue.id = db.issues.map Issue.id ∨
    db'.issues.map Issue.id = db.issues.map Issue.id ++ [db.nextId]
  issues : ∀ i ∈ db'.issues, i.projectId ∈ db.projects
  releases : ∀ r ∈ db'.releases, r.projectId ∈ db.projects

theorem delivered_store {b : Bound} {now : Timestamp} (h : Anchored db)
    (hrefs : b.Referenced now db) : Delivered db (b.store now db) := by
  have hreleases : ∀ r ∈ (b.store now db).releases, r.projectId ∈ db.projects := by
    intro r hr
    rw [store_releases, List.mem_append, Option.mem_toList] at hr
    obtain hr | hr := hr
    · exact h.releases r hr
    · have hproject := hrefs (.inl (Option.isSome_iff_exists.mpr ⟨r, hr⟩))
      unfold Bound.releaseWrite at hr
      split at hr
      · split_ifs at hr
        cases hr
        exact hproject
      · cases hr
  have hissues := store_issues b now db
  unfold Bound.issueWrite at hissues
  cases hfind : findIssue db b.projectId b.fingerprint with
  | some old =>
      rw [hfind] at hissues
      have hold : old ∈ db.issues := List.mem_of_find?_eq_some hfind
      refine ⟨.inl ?_, fun i hi => ?_, hreleases⟩
      · rw [hissues, IssueWrite.apply, List.map_map]
        refine List.map_congr_left fun r _ => ?_
        rw [Function.comp_apply]
        split
        · next hid => exact hid.symm
        · rfl
      · rw [hissues, IssueWrite.apply, List.mem_map] at hi
        obtain ⟨r, hr, rfl⟩ := hi
        split
        · exact h.issues old hold
        · exact h.issues r hr
  | none =>
      rw [hfind] at hissues
      refine ⟨.inr ?_, fun i hi => ?_, hreleases⟩
      · rw [hissues, IssueWrite.apply, List.map_append]
        rfl
      · rw [hissues, IssueWrite.apply, List.mem_append, List.mem_singleton] at hi
        obtain hi | rfl := hi
        · exact h.issues i hi
        · exact hrefs (.inr hfind)

theorem delivered_deliver (h : Anchored db) : Delivered db (deliver pg rt db d) := by
  obtain ⟨b, -, hrefs, -, -, hserial⟩ | ⟨-, n, -, hsame⟩ := serial_processEvent pg rt d.1 d.2 db
  · have hstore : deliver pg rt db d = b.store d.2 db := congrArg Prod.snd hserial
    rw [hstore]
    exact delivered_store h hrefs
  · have hsame : deliver pg rt db d = { db with nextId := n } := hsame
    rw [hsame]
    exact ⟨.inl rfl, h.issues, h.releases⟩

variable {api : Tenant.Db} {orgId : ℕ}

theorem mem_issueView_projects {p : ℕ} (h : p ∈ (api.issueView (.tenant orgId)).projects) :
    ∃ row ∈ api.projects, row.id = p ∧ row.orgId = orgId := by
  obtain ⟨row, hrow, rfl⟩ := List.mem_map.mp h
  obtain ⟨hmem, hadmits, -⟩ := mem_select.mp hrow
  exact ⟨row, hmem, rfl, admits_tenant.mp hadmits⟩

theorem mem_issueView_projects_of {row : Tenant.Project} (h : row ∈ api.projects) :
    row.id ∈ (api.issueView (.tenant row.orgId)).projects :=
  List.mem_map_of_mem (mem_select.mpr ⟨h, admits_tenant.mpr rfl, rfl⟩)

theorem anchored_tables {s : State} (hs : s.edge.db.Consistent) : Anchored (s.tables orgId) where
  issues i hi := by
    obtain ⟨row, hrow, rfl⟩ := List.mem_map.mp hi
    obtain ⟨hmem, hadmits, -⟩ := mem_select.mp hrow
    obtain ⟨p, hp, hid, horg⟩ := hs.issues row hmem row.projectId rfl
    have horg : p.orgId = orgId := horg.trans (admits_tenant.mp hadmits)
    exact hid ▸ horg ▸ mem_issueView_projects_of hp
  releases r hr := by
    obtain ⟨row, hrow, rfl⟩ := List.mem_map.mp hr
    obtain ⟨hmem, hadmits, -⟩ := mem_select.mp hrow
    obtain ⟨p, hp, hid, horg⟩ := hs.releases row hmem row.projectId rfl
    have horg : p.orgId = orgId := horg.trans (admits_tenant.mp hadmits)
    exact hid ▸ horg ▸ mem_issueView_projects_of hp

theorem lt_freshIssueId {i : Tenant.IssueRow} (h : i ∈ api.issues) : i.id < freshIssueId api :=
  Nat.lt_succ_of_le (List.le_max_of_le' 0 (List.mem_map_of_mem h) le_rfl)

/-- The rows of the other organisations and those of this one, in some order. -/
theorem perm_elsewhere (orgId : ℕ) (rows : List Tenant.IssueRow) :
    (elsewhere orgId rows ++ select (.tenant orgId) (fun _ => true) rows).Perm rows := by
  have hown : select (.tenant orgId) (fun _ => true) rows =
      rows.filter fun r => !decide (TenantRow.tenant r ≠ orgId) :=
    List.filter_congr fun r _ => by simp [Scope.admits]
  rw [hown]
  exact List.filter_append_perm _ rows

theorem consistent_writeBack {s : State} (hs : s.edge.db.Consistent) {tables : Db}
    (h : Delivered (s.tables orgId) tables) : (writeBack s.edge.db orgId tables).Consistent where
  projectIds := hs.projectIds
  dsnKeys := hs.dsnKeys
  channels := hs.channels
  issues := by
    intro c hc k hk
    obtain hc | hc := List.mem_append.mp hc
    · exact hs.issues c (List.mem_filter.mp hc).1 k hk
    · obtain ⟨i, hi, rfl⟩ := List.mem_map.mp hc
      cases hk
      exact mem_issueView_projects (h.issues i hi)
  releases := by
    intro c hc k hk
    obtain hc | hc := List.mem_append.mp hc
    · exact hs.releases c (List.mem_filter.mp hc).1 k hk
    · obtain ⟨r, hr, rfl⟩ := List.mem_map.mp hc
      cases hk
      exact mem_issueView_projects (h.releases r hr)
  comments := by
    intro c hc k hk
    obtain ⟨i, hi, hid, horg⟩ := hs.comments c hc k hk
    by_cases hown : i.orgId = orgId
    · have hin : i.id ∈ tables.issues.map Issue.id := by
        have hview : i.id ∈ (s.tables orgId).issues.map Issue.id :=
          List.mem_map_of_mem (List.mem_map_of_mem
            (mem_select.mpr ⟨hi, admits_tenant.mpr hown, rfl⟩))
        obtain hids | hids := h.ids
        · rwa [hids]
        · rw [hids]
          exact List.mem_append_left _ hview
      obtain ⟨i', hi', hsame⟩ := List.mem_map.mp hin
      exact ⟨{ toIssue := i', orgId }, List.mem_append_right _ (List.mem_map_of_mem hi'),
        hsame.trans hid, hown.symm.trans horg⟩
    · exact ⟨i, List.mem_append_left _ (List.mem_filter.mpr ⟨hi, decide_eq_true hown⟩), hid, horg⟩
  issueIds := by
    have hold : (s.edge.db.issues.map fun i => i.id).Perm
        ((elsewhere orgId s.edge.db.issues).map (fun i => i.id) ++
          (s.tables orgId).issues.map Issue.id) := by
      have hperm := (perm_elsewhere orgId s.edge.db.issues).map fun i => i.id
      have hview : (s.tables orgId).issues.map Issue.id =
          (select (.tenant orgId) (fun _ => true) s.edge.db.issues).map fun i => i.id :=
        List.map_map
      rw [hview, ← List.map_append]
      exact hperm.symm
    have hnew : (writeBack s.edge.db orgId tables).issues.map (fun i => i.id) =
        (elsewhere orgId s.edge.db.issues).map (fun i => i.id) ++ tables.issues.map Issue.id := by
      simp [writeBack]
    rw [hnew]
    obtain hids | hids := h.ids
    · rw [hids]
      exact hold.nodup_iff.mp hs.issueIds
    · rw [hids, ← List.append_assoc, ← List.concat_eq_append]
      refine (hold.nodup_iff.mp hs.issueIds).concat fun hmem => ?_
      obtain ⟨i, hi, hid⟩ := List.mem_map.mp (hold.mem_iff.mpr hmem)
      exact (lt_freshIssueId hi).ne hid

end WriteBack

/-! ## One move -/

section Step

variable {pg : Postgres} {lib : Libraries}
  {gunzip : Gzip.Bytes → Except Gzip.IngestError Gzip.Bytes} {s : State}

theorem step_consistent {move : Move} (hs : s.edge.db.Consistent) :
    (step pg lib gunzip s move).edge.db.Consistent := by
  cases move with
  | edge input => exact Edge.step_consistent input hs
  | change org change => exact hs
  | deliver index worker =>
      rw [step]
      split
      · exact hs
      · exact consistent_writeBack hs (delivered_deliver (anchored_tables hs))

end Step

/-! ## Runs -/

section Runs

variable {pg : Postgres} {lib : Libraries}
  {gunzip : Gzip.Bytes → Except Gzip.IngestError Gzip.Bytes} {s : State}

theorem run_cons (s : State) (move : Move) (moves : List Move) :
    run pg lib gunzip s (move :: moves) =
      run pg lib gunzip (step pg lib gunzip s move) moves := rfl

theorem run_append (s : State) (first rest : List Move) :
    run pg lib gunzip s (first ++ rest) =
      run pg lib gunzip (run pg lib gunzip s first) rest := List.foldl_append

theorem Entered.later {move : Move} {moves : List Move} {job : EventJob}
    (h : Entered pg lib gunzip (step pg lib gunzip s move) moves job) :
    Entered pg lib gunzip s (move :: moves) job := by
  obtain ⟨before, m, request, after, rfl, hauth⟩ := h
  exact ⟨move :: before, m, request, after, rfl, hauth⟩

end Runs

section Sample

def sampleState : State := ⟨Edge.sampleState, fun _ => [], sampleDb.partitions⟩

end Sample

end Crashlens.Pipeline
