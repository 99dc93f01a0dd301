import Crashlens.LockDiscipline

/-!
# Regression reports and regression transitions

An event reports a regression when the `prior` term of its upsert shows a resolved row and the
upserted row is regressed. The two are read at different moments: `prior` at the snapshot of the
statement, the row when the statement takes effect. Where they agree at every upsert, the reports
committed in a run are as many as the transitions from resolved to regressed the rows make.
-/

namespace Crashlens

open Transactional

section Definitions

variable {ι : Type} [DecidableEq ι] [Fintype ι] (pg : Postgres)

/-- The upsert of an existing issue row, at the moment it takes effect. -/
structure RowUpsert where
  params : UpsertIssue
  session : Session
  snapshot : Db
  latest : Db
  row : Issue

def rowUpsert (w : IssueWorld ι) : Action ι → Option RowUpsert
  | .run i =>
    match w.txns i with
    | .running (.call (.upsertIssue p) _) s waiting =>
      if w.Blocked (store pg) i (.upsertIssue p) then none
      else (findIssue (s.writes.apply w.committed) p.projectId p.fingerprint).map fun row =>
        ⟨p, s, s.writes.apply (waiting.getD w.committed), s.writes.apply w.committed, row⟩
    | _ => none
  | .fail _ => none

/-- The snapshot shows the row resolved when the upsert flips it, and not when it is regressed
already. -/
structure RowUpsert.PriorAgrees (u : RowUpsert) : Prop where
  regressed : u.row.status = .regressed → u.params.prior u.snapshot u.row.id ≠ some .resolved
  flipped : u.row.status = .resolved → u.params.shouldRegress = true →
    u.params.prior u.snapshot u.row.id = some .resolved

instance (u : RowUpsert) : Decidable u.PriorAgrees :=
  decidable_of_iff ((u.row.status = .regressed →
      u.params.prior u.snapshot u.row.id ≠ some .resolved) ∧
    (u.row.status = .resolved → u.params.shouldRegress = true →
      u.params.prior u.snapshot u.row.id = some .resolved))
    ⟨fun h => ⟨h.1, h.2⟩, fun h => ⟨h.1, h.2⟩⟩

/-- The action commits an event that reports a regression of the issue. -/
def reports (issueId : ℕ) (w : IssueWorld ι) : Action ι → Bool
  | .run i =>
    match w.txns i with
    | .running (.pure (.event (.stored r))) _ _ => r.regressed && r.issueId = issueId
    | _ => false
  | .fail _ => false

def Db.hasStatus (db : Db) (issueId : ℕ) (status : Status) : Bool :=
  db.issues.any fun r => r.id = issueId ∧ r.status = status

/-- The action takes the committed issue row from resolved to regressed. -/
def transitions (issueId : ℕ) (w : IssueWorld ι) (act : Action ι) : Bool :=
  match w.step (store pg) act with
  | some w' => w.committed.hasStatus issueId .resolved && w'.committed.hasStatus issueId .regressed
  | none => false

end Definitions

/-- A regression alert is enqueued exactly for a reported regression. -/
theorem alert_regression_iff (r : EventResult) :
    (EventOutcome.stored r).alert = some .regression ↔ r.regressed = true := by
  cases hr : r.regressed <;> cases hc : r.created <;> simp [EventOutcome.alert, hr, hc]

theorem hasStatus_iff {db : Db} {id : ℕ} {st : Status} :
    db.hasStatus id st = true ↔ ∃ r ∈ db.issues, r.id = id ∧ r.status = st := by
  simp [Db.hasStatus]

section Sessions

variable {ι : Type} [DecidableEq ι] [Fintype ι] {pg : Postgres} {w w' : IssueWorld ι}
  {act : Action ι}

theorem rowUpsert_of_running {i : ι} {p : UpsertIssue} {next : UpsertRow → Tx Outcome}
    {s : Session} {waiting : Option Db} {row : Issue}
    (ht : w.txns i = .running (.call (.upsertIssue p) next) s waiting)
    (hb : ¬ w.Blocked (store pg) i (.upsertIssue p))
    (hrow : findIssue (s.writes.apply w.committed) p.projectId p.fingerprint = some row) :
    rowUpsert pg w (.run i) = some ⟨p, s, s.writes.apply (waiting.getD w.committed),
      s.writes.apply w.committed, row⟩ := by
  simp only [rowUpsert, ht, if_neg hb, hrow, Option.map_some]

/-- What a session knows about the issue row it has upserted: a row left regressed was resolved
before exactly when the `prior` term says so. -/
def Reported (s : Session) : Prop :=
  ∀ p row, ⟨.upsertIssue p, row⟩ ∈ s.log → s.writes.issue ≠ none ∧
    ∀ old new, s.writes.issue = some (.update old new) → row.status = .regressed →
      (row.priorStatus = some .resolved ↔ old.status = .resolved)

theorem RowUpsert.PriorAgrees.iff {u : RowUpsert} (h : u.PriorAgrees)
    (hnew : (u.params.onConflict u.row).status = .regressed) :
    u.params.prior u.snapshot u.row.id = some .resolved ↔ u.row.status = .resolved := by
  by_cases hold : u.row.status = .resolved
  · have hflip : u.params.shouldRegress = true := by
      by_contra hno
      have hkeep : (u.params.onConflict u.row).status = u.row.status :=
        if_neg fun hc => hno hc.2
      rw [hkeep, hold] at hnew
      cases hnew
    exact ⟨fun _ => hold, fun _ => h.flipped hold hflip⟩
  · have hkeep : (u.params.onConflict u.row).status = u.row.status := if_neg fun hc => hold hc.1
    exact ⟨fun hp => absurd hp (h.regressed (hkeep ▸ hnew)), fun hr => absurd hr hold⟩

/-- One statement keeps `Reported`. -/
theorem reported_after {s : Session} {snap c c' : Db} {q : Request} {r : Response q}
    {d : WriteSet} (hs : Reported s) (hpre : Pre q s)
    (hagrees : ∀ p row, q = .upsertIssue p →
      findIssue (s.writes.apply c) p.projectId p.fingerprint = some row →
      RowUpsert.PriorAgrees ⟨p, s, s.writes.apply snap, s.writes.apply c, row⟩)
    (he : (store pg).exec s.now snap c s.writes q = .ok (r, d, c')) : Reported (s.after q r d) := by
  intro p row hmem
  rw [Session.after_log, List.mem_append, List.mem_singleton] at hmem
  obtain hmem | hmem := hmem
  · have hi := (hs p row hmem).1
    have hkept : d.issue = s.writes.issue :=
      executes_issue_kept (t := s.after q r d) ⟨r, d, he, rfl⟩ hpre hi
    rw [Session.after_writes, hkept]
    exact hs p row hmem
  · cases hmem
    simp only [store, exec] at he
    split at he
    · next old hold =>
        cases he
        refine ⟨fun hn => (by cases hn), fun old' new hupd hreg => ?_⟩
        cases hupd
        exact (hagrees p old rfl hold).iff hreg
    · split_ifs at he
      cases he
      exact ⟨fun hn => (by cases hn), fun old new hupd => (by cases hupd)⟩

theorem step_reported {jobs : ι → Job} (hw : (lockDiscipline pg rt jobs).Sound w)
    (hs : ∀ i s, w.Has i s → Reported s)
    (hagrees : ∀ u ∈ rowUpsert pg w act, u.PriorAgrees)
    (h : w.step (store pg) act = some w') : ∀ i s, w'.Has i s → Reported s := by
  refine World.step_session (store pg) hs h fun i q next s waiting r d c hact ht hb he => ?_
  have hv := hw.verified i
  rw [ht] at hv
  refine reported_after (hs i s (.inl ⟨_, _, ht⟩)) hv.1 (fun p row hq hrow => ?_) he
  subst hq hact
  exact hagrees _ (rowUpsert_of_running ht hb hrow)

end Sessions

section Commit

variable {pg : Postgres} {job : Job} {o : Outcome} {s : Session} {db : Db}

/-- A commit takes an issue from resolved to regressed by updating its row so. -/
theorem commit_transition_iff {w : WriteSet} (hdb : db.Valid) (hfit : w.Fits db) (id : ℕ) :
    (db.hasStatus id .resolved && (w.apply db).hasStatus id .regressed) = true ↔
      ∃ old new, w.issue = some (.update old new) ∧ old.id = id ∧ old.status = .resolved ∧
        new.status = .regressed := by
  rw [Bool.and_eq_true, hasStatus_iff, hasStatus_iff]
  constructor
  · rintro ⟨⟨r, hr, hid, hres⟩, r', hr', hid', hreg⟩
    obtain rfl | hupd := commit_row hdb hfit hr hr' (hid'.trans hid.symm)
    · rw [hres] at hreg
      cases hreg
    · exact ⟨r, r', hupd, hid, hres, hreg⟩
  · rintro ⟨old, new, hupd, hid, hres, hreg⟩
    obtain ⟨hold, hnew, -⟩ := hfit.issue _ hupd
    refine ⟨⟨old, hold, hid, hres⟩, new, ?_, hnew.trans hid, hreg⟩
    rw [apply_issues_some hupd]
    exact List.mem_map.mpr ⟨old, hold, if_pos rfl⟩

/-- An issue service never takes an issue to regressed. -/
theorem ServiceUpdate.not_regressed {old new : Issue} (h : ServiceUpdate pg old new)
    (hold : old.status = .resolved) : new.status ≠ .regressed := by
  obtain ⟨a, snap, rfl⟩ | ⟨u, rfl⟩ := h
  · cases a <;> exact fun hn => by cases hn
  · rw [hold]
    exact fun hn => by cases hn

/-- Where the session reported truthfully, its commit makes the transition it reports. -/
theorem commit_reports_iff (hdb : db.Valid) (hfit : s.writes.Fits db)
    (hpost : JobPost pg rt job o s) (hs : Reported s) (id : ℕ) :
    (∃ r, o = .event (.stored r) ∧ r.regressed = true ∧ r.issueId = id) ↔
      (db.hasStatus id .resolved && (s.writes.apply db).hasStatus id .regressed) = true := by
  rw [commit_transition_iff hdb hfit]
  constructor
  · rintro ⟨r, rfl, hreg, hid⟩
    cases job with
    | event call =>
        obtain ⟨p, row, iw, e, hst⟩ := hpost
        rw [hst.result] at hreg hid
        simp only [eventResult, Bool.and_eq_true, Bool.not_eq_true', decide_eq_true_eq] at hreg
        obtain ⟨⟨hins, hprior⟩, hstatus⟩ := hreg
        obtain ⟨-, hins', -⟩ | ⟨old, hiw, hrow, -, hnew⟩ := hst.upserted
        · rw [hins] at hins'
          cases hins'
        · have hissue := hst.issue
          rw [hiw] at hissue
          refine ⟨old, p.onConflict old, hissue, hrow.symm.trans hid, ?_, hnew ▸ hstatus⟩
          exact ((hs p row hst.upsertLogged).2 old _ hissue hstatus).mp hprior
    | _ => exact hpost.elim
  · rintro ⟨old, new, hupd, hid, hres, hreg⟩
    have hevent (call : EventCall) (r : EventResult) (hjob : job = .event call)
        (ho : o = .event (.stored r)) : r.regressed = true ∧ r.issueId = id := by
      subst hjob ho
      obtain ⟨p, row, iw, e, hst⟩ := hpost
      have hiw := hst.issue.symm.trans hupd
      obtain ⟨rfl, -⟩ | ⟨old', rfl, hrow, hins, hnew⟩ := hst.upserted
      · cases hiw
      · cases hiw
        have hstatus : row.status = .regressed := hnew.trans hreg
        have hprior := ((hs p row hst.upsertLogged).2 old _ hst.issue hstatus).mpr hres
        rw [hst.result]
        exact ⟨by simp [eventResult, hins, hprior, hstatus], hrow.trans hid⟩
    obtain ⟨hi, -⟩ | ⟨call, r, p, id', e, -, -, -, hi, -⟩ | ⟨call, r, p, old', e, hjob, ho, -⟩ |
      ⟨old', new', -, hsvc, hi, -⟩ | ⟨old', -, hi, -⟩ := hpost.cases
    · rw [hi] at hupd
      cases hupd
    · rw [hi] at hupd
      cases hupd
    · exact ⟨r, ho, hevent call r hjob ho⟩
    · rw [hi] at hupd
      cases hupd
      exact absurd hreg (hsvc.not_regressed hres)
    · rw [hi] at hupd
      cases hupd

end Commit

section Runs

variable {ι : Type} [DecidableEq ι] [Fintype ι] {pg : Postgres} {rt : Runtime} {jobs : ι → Job}
  {now : ι → Timestamp} {db : Db} {w w' : IssueWorld ι} {act : Action ι}

omit [DecidableEq ι] [Fintype ι] in
theorem reports_iff {issueId : ℕ} : reports issueId w act = true ↔
    ∃ i r s waiting, act = .run i ∧ w.txns i = .running (.pure (.event (.stored r))) s waiting ∧
      r.regressed = true ∧ r.issueId = issueId := by
  constructor
  · intro h
    unfold reports at h
    split at h
    · next i =>
        split at h
        · next r s waiting ht => exact ⟨i, r, s, waiting, rfl, ht, by simpa using h⟩
        · cases h
    · cases h
  · rintro ⟨i, r, s, waiting, rfl, ht, hreg, hid⟩
    simp [reports, ht, hreg, hid]

theorem reports_eq_transitions (hw : (lockDiscipline pg rt jobs).Sound w)
    (hs : ∀ i s, w.Has i s → Reported s) (issueId : ℕ) :
    reports issueId w act = transitions pg issueId w act := by
  rw [Bool.eq_iff_iff, reports_iff]
  constructor
  · rintro ⟨i, r, s, waiting, rfl, ht, hreg, hid⟩
    have hv := hw.verified i
    rw [ht] at hv
    simp only [transitions, World.step_pure (store pg) ht]
    exact (commit_reports_iff hw.valid (hw.fits i s waiting ⟨_, ht⟩) hv
      (hs i s (.inl ⟨_, _, ht⟩)) issueId).mp ⟨r, rfl, hreg, hid⟩
  · intro h
    unfold transitions at h
    split at h
    · next w' hstep =>
        obtain ⟨hi, -⟩ | ⟨i, a, s, waiting, rfl, ht, hpost, hfit, rfl⟩ := step_committed hw hstep
        · rw [Bool.and_eq_true, hasStatus_iff, hasStatus_iff, hi] at h
          obtain ⟨⟨r, hr, hid, hres⟩, r', hr', hid', hreg⟩ := h
          rw [hw.valid.eq_of_id hr' hr (hid'.trans hid.symm), hres] at hreg
          cases hreg
        · obtain ⟨r, rfl, hreg, hid⟩ := (commit_reports_iff hw.valid hfit hpost
            (hs i s (.inl ⟨_, _, ht⟩)) issueId).mpr h
          exact ⟨i, r, s, waiting, rfl, ht, hreg, hid⟩
    · cases h

theorem one_alert_per_regression (hdb : db.Valid) (issueId : ℕ) (acts : List (Action ι))
    (hagrees : Along (World.step (store pg))
      (fun w act => ∀ u ∈ rowUpsert pg w act, u.PriorAgrees)
      (startJobs pg rt jobs now db) acts) :
    countAlong (World.step (store pg)) (reports issueId) (startJobs pg rt jobs now db) acts =
      countAlong (World.step (store pg)) (transitions pg issueId)
        (startJobs pg rt jobs now db) acts := by
  refine countAlong_congr (I := fun w => (lockDiscipline pg rt jobs).Sound w ∧
    ∀ i s, w.Has i s → Reported s) (fun w act w' hw hP hstep => ?_)
    (fun w act hw => reports_eq_transitions hw.1 hw.2 issueId) ⟨startJobs_sound hdb, ?_⟩ hagrees
  · exact ⟨(lockDiscipline pg rt jobs).step_sound hw.1 hstep, step_reported hw.1 hw.2 hP hstep⟩
  · intro i s hhas p row hmem
    rw [startJobs_has hhas] at hmem
    cases hmem

/-- A first event, a resolve, and two more events: with all four in turn the second event reports
the one regression there is. -/
theorem one_alert_per_regression_in_turn :
    let jobs : Fin 4 → Job := fun i =>
      if i = 1 then .status 1 1 .resolve none
      else .event (sampleCall none (toHex 32 i.val) (10 * i.val))
    let start := startJobs samplePostgres sampleRuntime jobs (fun i => i.val) sampleDb
    let acts := List.replicate 5 (.run 0) ++ List.replicate 4 (.run 1) ++
      List.replicate 5 (.run 2) ++ List.replicate 5 (.run 3)
    countAlong (World.step (store samplePostgres)) (transitions samplePostgres 1) start acts = 1 ∧
    countAlong (World.step (store samplePostgres)) (reports 1) start acts =
      countAlong (World.step (store samplePostgres)) (transitions samplePostgres 1) start acts := by
  intro jobs start acts
  exact ⟨by decide +kernel, one_alert_per_regression sampleDb_valid 1 acts (by decide +kernel)⟩

/-- The third event's upsert starts while the second holds the row lock: its `prior` term still sees
the issue resolved, and both events report the one transition. -/
theorem regression_reported_twice :
    let jobs : Fin 4 → Job := fun i =>
      if i = 1 then .status 1 1 .resolve none
      else .event (sampleCall none (toHex 32 i.val) (10 * i.val))
    let start := startJobs samplePostgres sampleRuntime jobs (fun i => i.val) sampleDb
    let acts := List.replicate 5 (.run 0) ++ List.replicate 4 (.run 1) ++
      [.run 2, .run 2, .run 3, .run 3, .run 2, .run 3, .run 2, .run 2, .run 3, .run 3, .run 3]
    (run (World.step (store samplePostgres)) start acts).isSome = true ∧
    countAlong (World.step (store samplePostgres)) (reports 1) start acts = 2 ∧
    countAlong (World.step (store samplePostgres)) (transitions samplePostgres 1) start acts =
      1 := by
  decide +kernel

end Runs

end Crashlens
