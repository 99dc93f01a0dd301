import Crashlens.LockDiscipline

/-!
# The status of an issue and its release markers

`Issue.Coherent` relates the status column to `resolved_in_release` and `regressed_in_release`. Each
writer of an issue row keeps it, the event processor changes a status in one direction only, and
both facts hold along every run.
-/

namespace Crashlens

open Transactional

structure Issue.Coherent (r : Issue) : Prop where
  unresolved : r.status = .unresolved → r.resolvedInRelease = none ∧ r.regressedInRelease = none
  regressed : r.regressedInRelease ≠ none → r.status = .regressed
  resolved : r.status = .resolved → r.regressedInRelease = none

/-- What an event may do to an issue row that exists. -/
structure EventUpdate (old new : Issue) : Prop where
  status : new.status = old.status ∨ old.status = .resolved ∧ new.status = .regressed
  resolvedInRelease : new.resolvedInRelease = old.resolvedInRelease
  title : new.title = old.title
  firstSeen : new.firstSeen = old.firstSeen
  assignedTo : new.assignedTo = old.assignedTo

theorem EventUpdate.refl (r : Issue) : EventUpdate r r := ⟨.inl rfl, rfl, rfl, rfl, rfl⟩

section Rows

variable (p : UpsertIssue) {r : Issue}

theorem newRow_coherent (id : ℕ) : (p.newRow id).Coherent :=
  ⟨fun _ => ⟨rfl, rfl⟩, fun h => absurd rfl h, fun _ => rfl⟩

theorem onConflict_status : (p.onConflict r).status =
    if r.status = .resolved ∧ p.shouldRegress then .regressed else r.status := rfl

theorem onConflict_regressedInRelease : (p.onConflict r).regressedInRelease =
    if r.status = .resolved ∧ p.shouldRegress then p.eventRelease else r.regressedInRelease := rfl

theorem eventUpdate_onConflict : EventUpdate r (p.onConflict r) := by
  refine ⟨?_, rfl, rfl, rfl, rfl⟩
  rw [onConflict_status]
  by_cases hflip : r.status = .resolved ∧ p.shouldRegress = true
  · rw [if_pos hflip]
    exact .inr ⟨hflip.1, rfl⟩
  · rw [if_neg hflip]
    exact .inl rfl

theorem Issue.Coherent.onConflict (h : r.Coherent) : (p.onConflict r).Coherent := by
  by_cases hflip : r.status = .resolved ∧ p.shouldRegress = true
  · have hstatus : (p.onConflict r).status = .regressed := by rw [onConflict_status, if_pos hflip]
    refine ⟨fun hu => ?_, fun _ => hstatus, fun hr => ?_⟩
    · rw [hstatus] at hu
      cases hu
    · rw [hstatus] at hr
      cases hr
  · have hstatus : (p.onConflict r).status = r.status := by rw [onConflict_status, if_neg hflip]
    have hmark : (p.onConflict r).regressedInRelease = r.regressedInRelease := by
      rw [onConflict_regressedInRelease, if_neg hflip]
    refine ⟨fun hu => ?_, fun hm => ?_, fun hr => ?_⟩
    · rw [hmark]
      exact h.unresolved (hstatus ▸ hu)
    · exact hstatus.trans (h.regressed (hmark ▸ hm))
    · rw [hmark]
      exact h.resolved (hstatus ▸ hr)

theorem ServiceUpdate.coherent {pg : Postgres} {old new : Issue} (h : ServiceUpdate pg old new)
    (hold : old.Coherent) : new.Coherent := by
  obtain ⟨a, snap, rfl⟩ | ⟨u, rfl⟩ := h
  · cases a with
    | resolve => exact ⟨fun hu => (by cases hu), fun hm => absurd rfl hm, fun _ => rfl⟩
    | ignore => exact ⟨fun hu => (by cases hu), fun hm => absurd rfl hm, fun hr => (by cases hr)⟩
    | reopen => exact ⟨fun _ => ⟨rfl, rfl⟩, fun hm => absurd rfl hm, fun hr => (by cases hr)⟩
  · exact ⟨hold.unresolved, hold.regressed, hold.resolved⟩

end Rows

section Commit

variable {pg : Postgres} {job : Job} {o : Outcome} {s : Session} {db : Db}

/-- A commit keeps the issues of a project coherent. -/
theorem commit_coherent {p : ℕ} (hfit : s.writes.Fits db) (hpost : JobPost pg rt job o s)
    (hdb : ∀ r ∈ db.issues, r.projectId = p → r.Coherent) :
    ∀ r ∈ (s.writes.apply db).issues, r.projectId = p → r.Coherent := by
  intro r hr hp
  obtain ⟨hi, -⟩ | ⟨call, _, q, id, e, -, -, -, hi, -⟩ | ⟨call, _, q, old, e, -, -, -, hi, -⟩ |
    ⟨old, new, -, hnew, hi, -⟩ | ⟨old, -, hi, -⟩ := hpost.cases
  · rw [apply_issues_none hi] at hr
    exact hdb r hr hp
  · rw [apply_issues_some hi, IssueWrite.apply, List.mem_append, List.mem_singleton] at hr
    obtain hr | rfl := hr
    · exact hdb r hr hp
    · exact newRow_coherent q id
  · obtain ⟨hold, -, -⟩ := hfit.issue _ hi
    rw [apply_issues_some hi] at hr
    obtain rfl | ⟨hr, -⟩ := mem_apply_update hr
    · exact (hdb old hold hp).onConflict q
    · exact hdb r hr hp
  · obtain ⟨hold, -, hkey⟩ := hfit.issue _ hi
    rw [apply_issues_some hi] at hr
    obtain rfl | ⟨hr, -⟩ := mem_apply_update hr
    · have hproj : r.projectId = old.projectId := congrArg Prod.fst hkey
      exact hnew.coherent (hdb old hold (hproj ▸ hp))
    · exact hdb r hr hp
  · rw [apply_issues_some hi] at hr
    exact hdb r (List.mem_of_mem_filter hr) hp

/-- The commit of an event leaves every issue row of the table as it is or updates it. -/
theorem commit_eventUpdate {call : EventCall} (hjob : job = .event call) (hdb : db.Valid)
    (hfit : s.writes.Fits db) (hpost : JobPost pg rt job o s) {r r' : Issue} (hr : r ∈ db.issues)
    (hr' : r' ∈ (s.writes.apply db).issues) (hid : r'.id = r.id) : EventUpdate r r' := by
  obtain rfl | hupd := commit_row hdb hfit hr hr' hid
  · exact .refl r'
  · obtain ⟨hi, -⟩ | ⟨_, _, q, id, e, -, -, -, hi, -⟩ | ⟨_, _, q, old, e, -, -, -, hi, -⟩ |
      ⟨old, new, hno, -⟩ | ⟨old, hno, -⟩ := hpost.cases
    · rw [hi] at hupd
      cases hupd
    · rw [hi] at hupd
      cases hupd
    · rw [hi] at hupd
      cases hupd
      exact eventUpdate_onConflict q
    · exact absurd hjob (hno call)
    · exact absurd hjob (hno call)

end Commit

section Runs

variable {ι : Type} [DecidableEq ι] [Fintype ι] {pg : Postgres} {rt : Runtime} {jobs : ι → Job}
  {now : ι → Timestamp} {db : Db} {p : ℕ} {w w' : IssueWorld ι}

theorem step_coherent {act : Action ι} (hw : (lockDiscipline pg rt jobs).Sound w)
    (hco : ∀ r ∈ w.committed.issues, r.projectId = p → r.Coherent)
    (h : w.step (store pg) act = some w') :
    ∀ r ∈ w'.committed.issues, r.projectId = p → r.Coherent := by
  obtain ⟨hi, -⟩ | ⟨i, a, s, waiting, -, -, hpost, hfit, rfl⟩ := step_committed hw h
  · rw [hi]
    exact hco
  · exact commit_coherent hfit hpost hco

theorem step_eventUpdate {i : ι} {call : EventCall} (hw : (lockDiscipline pg rt jobs).Sound w)
    (hjob : jobs i = .event call) (h : w.step (store pg) (.run i) = some w') {r r' : Issue}
    (hr : r ∈ w.committed.issues) (hr' : r' ∈ w'.committed.issues) (hid : r'.id = r.id) :
    EventUpdate r r' := by
  obtain ⟨hi, -⟩ | ⟨j, a, s, waiting, hact, -, hpost, hfit, rfl⟩ := step_committed hw h
  · rw [hi] at hr'
    rw [hw.valid.eq_of_id hr' hr hid]
    exact .refl r
  · cases hact
    exact commit_eventUpdate hjob hw.valid hfit hpost hr hr' hid

theorem status_bookkeeping (hdb : db.Valid) (hp : db.EmptyProject p) {acts : List (Action ι)}
    (h : run (World.step (store pg)) (startJobs pg rt jobs now db) acts = some w) :
    (∀ r ∈ w.committed.issues, r.projectId = p → r.Coherent) ∧
    ∀ i call w', jobs i = .event call → w.step (store pg) (.run i) = some w' →
      ∀ r ∈ w.committed.issues, ∀ r' ∈ w'.committed.issues, r'.id = r.id → EventUpdate r r' := by
  have hinv : (lockDiscipline pg rt jobs).Sound w ∧
      ∀ r ∈ w.committed.issues, r.projectId = p → r.Coherent :=
    run_invariant (I := fun w => (lockDiscipline pg rt jobs).Sound w ∧
      ∀ r ∈ w.committed.issues, r.projectId = p → r.Coherent)
      (fun w act w' hw hstep => ⟨(lockDiscipline pg rt jobs).step_sound hw.1 hstep,
        step_coherent hw.1 hw.2 hstep⟩)
      ⟨startJobs_sound hdb, fun r hr hrp => absurd hrp (hp.issues r hr)⟩ h
  obtain ⟨hsound, hco⟩ := hinv
  exact ⟨hco, fun i call w' hjob hstep r hr r' hr' hid =>
    step_eventUpdate hsound hjob hstep hr hr' hid⟩

/-- An event creates the issue, a user resolves it, and a second event is about to commit. -/
theorem status_bookkeeping_resolved :
    let jobs : Fin 3 → Job := fun i =>
      if i = 0 then .event (sampleCall none sampleEventId 10)
      else if i = 1 then .status 1 1 .resolve none
      else .event (sampleCall none (py "00000000-0000-0000-0000-000000000002") 20)
    ∃ w, run (World.step (store samplePostgres))
        (startJobs samplePostgres sampleRuntime jobs (fun i => i.val) sampleDb)
        (List.replicate 5 (.run 0) ++ List.replicate 4 (.run 1) ++ List.replicate 4 (.run 2)) =
          some w ∧
      (∀ r ∈ w.committed.issues, r.projectId = 1 → r.Coherent) ∧
      ∀ i call w', jobs i = .event call → w.step (store samplePostgres) (.run i) = some w' →
        ∀ r ∈ w.committed.issues, ∀ r' ∈ w'.committed.issues, r'.id = r.id → EventUpdate r r' := by
  intro jobs
  obtain ⟨w, hw⟩ := Option.isSome_iff_exists.mp (by decide +kernel :
    (run (World.step (store samplePostgres))
      (startJobs samplePostgres sampleRuntime jobs (fun i => i.val) sampleDb)
      (List.replicate 5 (.run 0) ++ List.replicate 4 (.run 1) ++
        List.replicate 4 (.run 2))).isSome = true)
  exact ⟨w, hw, status_bookkeeping sampleDb_valid sampleDb_emptyProject hw⟩

end Runs

end Crashlens
