import Crashlens.LockDiscipline
import Mathlib.Algebra.Order.BigOperators.Group.Finset

/-!
# How many rows concurrent deliveries of one event leave

No unique key covers `(project_id, event_id)` alone, so only the duplicate check stands between two
deliveries of one event, and it sees committed rows. Every job that checks before the first row is
committed stores one: the rows of a finished run are as many as those checks.
-/

namespace Crashlens

open Transactional

section Definitions

abbrev IssueTxn := Txn Timestamp Db WriteSet DbError Request Response Outcome

/-- The statement is the duplicate check of the event. -/
def Request.isCheck (p eventId : ℕ) : Request → Bool
  | .dedupeEvent p' eventId' => p' = p && eventId' = eventId
  | _ => false

/-- A duplicate check that found no row. -/
def isPassed (p eventId : ℕ) : ((q : Request) × Response q) → Bool
  | ⟨.dedupeEvent p' eventId', found⟩ => p' = p && eventId' = eventId && !found
  | _ => false

/-- The duplicate checks a transaction has passed. -/
def passed (p eventId : ℕ) : IssueTxn → ℕ
  | .running _ s _ => s.log.countP (isPassed p eventId)
  | .committed _ s => s.log.countP (isPassed p eventId)
  | .aborted _ => 0

/-- The event rows a transaction has committed. -/
def stored : IssueTxn → ℕ
  | .committed (.event (.stored _)) _ => 1
  | _ => 0

variable {ι : Type}

/-- The action is a duplicate check while no row of the event is committed. -/
def unseenCheck (p eventId : ℕ) (w : IssueWorld ι) : Action ι → Bool
  | .run i =>
    match w.txns i with
    | .running (.call q _) _ _ => q.isCheck p eventId && w.committed.rowsOf p eventId = 0
    | _ => false
  | .fail _ => false

/-- Every transaction has returned. -/
def Finished (w : IssueWorld ι) : Prop := ∀ i, (w.txns i).isCommitted = true

instance [Fintype ι] (w : IssueWorld ι) : Decidable (Finished w) :=
  inferInstanceAs (Decidable (∀ i, (w.txns i).isCommitted = true))

end Definitions

section Rows

variable {db : Db} {p eventId : ℕ}

/-- The commit of a delivery adds the rows its outcome says. -/
theorem rowsOf_commit {pg : Postgres} {rt : Runtime} {job : Job} {o : Outcome} {s : Session}
    {call : EventCall} (hpost : JobPost pg rt job o s) (hjob : job = .event call)
    (hkey : call.eventKey pg = some (p, eventId)) :
    (s.writes.apply db).rowsOf p eventId = db.rowsOf p eventId + stored (.committed o s) := by
  subst hjob
  rw [rowsOf_apply]
  obtain ⟨out, rfl, h⟩ := hpost.event_cases
  cases out with
  | poison =>
      rw [h.1]
      rfl
  | duplicate =>
      rw [h.1]
      rfl
  | stored r =>
      obtain ⟨q, row, iw, e, hst⟩ := h
      have he : (p, eventId) = (e.projectId, e.eventId) :=
        Option.some.inj (hkey.symm.trans hst.eventKey)
      obtain ⟨rfl, rfl⟩ := Prod.mk.inj he
      rw [hst.event]
      simp [stored]

end Rows

section Checks

variable {pg : Postgres} {p eventId : ℕ}

/-- A duplicate check passes exactly when no row is committed. -/
theorem dedupe_answer {s : Session} {snap c c' : Db} {p' e' : ℕ} {r : Bool} {d : WriteSet}
    (hpre : Pre (.dedupeEvent p' e') s)
    (he : (store pg).exec s.now snap c s.writes (.dedupeEvent p' e') = .ok (r, d, c')) :
    r = false ↔ c.rowsOf p' e' = 0 := by
  have hr : ((s.writes.apply c).events.any fun e => e.projectId = p' ∧ e.eventId = e') = r :=
    congrArg Prod.fst (Except.ok.inj he)
  rw [hpre.1, apply_empty] at hr
  rw [rowsOf_eq_zero_iff, hr]

/-- A session counts a check it passes, and no other statement. -/
theorem isPassed_iff {s : Session} {snap c c' : Db} {q : Request} {r : Response q} {d : WriteSet}
    (hpre : Pre q s) (he : (store pg).exec s.now snap c s.writes q = .ok (r, d, c')) :
    isPassed p eventId ⟨q, r⟩ = (q.isCheck p eventId && c.rowsOf p eventId = 0) := by
  cases q with
  | dedupeEvent p' e' =>
      have hanswer := dedupe_answer hpre he
      by_cases hsame : p' = p ∧ e' = eventId
      · obtain ⟨rfl, rfl⟩ := hsame
        cases hr : r with
        | false => simp [isPassed, Request.isCheck, hanswer.mp hr]
        | true =>
            have hne : c.rowsOf p' e' ≠ 0 := fun hz => by rw [hanswer.mpr hz] at hr; cases hr
            simp [isPassed, Request.isCheck, hne]
      · have hfalse : (decide (p' = p) && decide (e' = eventId)) = false := by simpa using hsame
        simp only [isPassed, Request.isCheck, hfalse, Bool.false_and]
  | _ => rfl

end Checks

section Runs

variable {ι : Type} [DecidableEq ι] [Fintype ι] {pg : Postgres} {rt : Runtime} {jobs : ι → Job}
  {now : ι → Timestamp} {db : Db} {p eventId : ℕ} {w w' : IssueWorld ι} {act : Action ι}

/-- What holds while the deliveries run: the rows are those the finished ones report, no job passes
its check twice, and a job that found a row found a committed one. -/
structure Delivering (pg : Postgres) (rt : Runtime) (jobs : ι → Job) (p eventId : ℕ)
    (w : IssueWorld ι) : Prop where
  sound : (lockDiscipline pg rt jobs).Sound w
  rows : w.committed.rowsOf p eventId = w.total stored
  once : ∀ i s, w.Has i s → s.log.countP (isPassed p eventId) ≤ 1
  found : ∀ i s, w.Has i s → ⟨.dedupeEvent p eventId, true⟩ ∈ s.log →
    1 ≤ w.committed.rowsOf p eventId

theorem rowsOf_step (hw : (lockDiscipline pg rt jobs).Sound w)
    (h : w.step (store pg) act = some w') :
    w.committed.rowsOf p eventId ≤ w'.committed.rowsOf p eventId := by
  obtain ⟨-, he⟩ | ⟨i, a, s, waiting, -, -, -, -, rfl⟩ := step_committed hw h
  · rw [Db.rowsOf, Db.rowsOf, he]
  · exact rowsOf_le_apply _ _ _

theorem step_delivering
    (hjobs : ∀ i, ∃ call, jobs i = .event call ∧ call.eventKey pg = some (p, eventId))
    (hw : Delivering pg rt jobs p eventId w) (h : w.step (store pg) act = some w') :
    Delivering pg rt jobs p eventId w' := by
  have hle : w.committed.rowsOf p eventId ≤ w'.committed.rowsOf p eventId := rowsOf_step hw.sound h
  refine ⟨(lockDiscipline pg rt jobs).step_sound hw.sound h, ?_, ?_, ?_⟩
  · obtain ⟨i, e, q, s, waiting, ht, rfl⟩ | ⟨i, q, next, s, -, ht, -, rfl⟩ |
      ⟨i, q, next, s, waiting, r, d, c, -, ht, -, he, rfl⟩ | ⟨i, a, s, waiting, -, ht, rfl⟩ :=
      World.step_cases (store pg) h
    · rw [World.total_set_of_eq (by rw [ht]; rfl)]
      exact hw.rows
    · rw [World.total_set_of_eq (by rw [ht]; rfl)]
      exact hw.rows
    · have hevents : c.events = w.committed.events := by
        obtain ⟨-, -, -, rfl⟩ | ⟨-, -, -, -, -, rfl⟩ | ⟨-, -, -, -, rfl⟩ |
          ⟨-, -, -, -, -, -, rfl⟩ | ⟨-, -, -, rfl⟩ :=
          executes_cases (t := s.after q r d) ⟨r, d, he, rfl⟩
        all_goals rfl
      rw [World.total_set_of_eq (by rw [ht]; rfl), World.set_committed, Db.rowsOf, hevents]
      exact hw.rows
    · have htotal := w.total_set i (.committed a s) (s.writes.apply w.committed) stored
      obtain ⟨call, hjob, hkey⟩ := hjobs i
      have hv := hw.sound.verified i
      rw [ht] at hv htotal
      have hrows := hw.rows
      have hzero : stored (.running (.pure a) s waiting) = 0 := rfl
      show (s.writes.apply w.committed).rowsOf p eventId =
        (w.set i (.committed a s) (s.writes.apply w.committed)).total stored
      rw [rowsOf_commit hv hjob hkey]
      omega
  · refine World.step_session (store pg) hw.once h fun i q next s waiting r d c _ ht _ he => ?_
    have hv := hw.sound.verified i
    rw [ht] at hv
    rw [Session.after_log, List.countP_append, List.countP_singleton]
    cases q with
    | dedupeEvent p' e' =>
        rw [hv.1.2]
        split_ifs <;> simp
    | _ => exact hw.once i s (.inl ⟨_, _, ht⟩)
  · have hfound : ∀ i s, w.Has i s → ⟨.dedupeEvent p eventId, true⟩ ∈ s.log →
        1 ≤ w'.committed.rowsOf p eventId :=
      fun i s hhas hmem => (hw.found i s hhas hmem).trans hle
    refine World.step_session (store pg) hfound h fun i q next s waiting r d c _ ht _ he hmem => ?_
    have hv := hw.sound.verified i
    rw [ht] at hv
    rw [Session.after_log, List.mem_append, List.mem_singleton] at hmem
    obtain hmem | hmem := hmem
    · exact hfound i s (.inl ⟨_, _, ht⟩) hmem
    · cases hmem
      have hne : w.committed.rowsOf p eventId ≠ 0 := fun hzero => by
        cases (dedupe_answer hv.1 he).mpr hzero
      omega

/-- A step adds one passed check exactly when it is a check that sees no committed row. -/
theorem total_passed_step (hw : (lockDiscipline pg rt jobs).Sound w)
    (hdone : ∀ i e, w'.txns i ≠ .aborted e) (h : w.step (store pg) act = some w') :
    w'.total (passed p eventId) =
      w.total (passed p eventId) + if unseenCheck p eventId w act then 1 else 0 := by
  obtain ⟨i, e, q, s, waiting, ht, rfl⟩ | ⟨i, q, next, s, rfl, ht, hb, rfl⟩ |
    ⟨i, q, next, s, waiting, r, d, c, rfl, ht, -, he, rfl⟩ | ⟨i, a, s, waiting, rfl, ht, rfl⟩ :=
    World.step_cases (store pg) h
  · exact absurd (World.set_txns_self ..) (hdone i e)
  · rw [World.total_set_of_eq (by rw [ht]; rfl)]
    have hno : unseenCheck p eventId w (.run i) = false := by
      obtain ⟨j, -, hj⟩ := hb
      cases q with
      | dedupeEvent p' e' =>
          unfold Store.Holds at hj
          split at hj <;> cases hj
      | _ => simp only [unseenCheck, ht, Request.isCheck, Bool.false_and]
    simp [hno]
  · have htotal := w.total_set i (.running (next r) (s.after q r d) none) c (passed p eventId)
    have hv := hw.verified i
    rw [ht] at htotal hv
    have hpassed : passed p eventId (.running (next r) (s.after q r d) none) =
        passed p eventId (.running (.call q next) s waiting) +
          if unseenCheck p eventId w (.run i) then 1 else 0 := by
      simp only [passed, unseenCheck, ht, Session.after_log, List.countP_append,
        List.countP_singleton, isPassed_iff hv.1 he]
    omega
  · have hno : unseenCheck p eventId w (.run i) = false := by simp only [unseenCheck, ht]
    rw [World.total_set_of_eq (by rw [ht]; rfl)]
    simp [hno]

theorem total_passed_run {acts : List (Action ι)} (hw : (lockDiscipline pg rt jobs).Sound w)
    (hdone : Finished w') (h : run (World.step (store pg)) w acts = some w') :
    w'.total (passed p eventId) = w.total (passed p eventId) +
      countAlong (World.step (store pg)) (unseenCheck p eventId) w acts := by
  induction acts generalizing w with
  | nil =>
      cases h
      rfl
  | cons act acts ih =>
      obtain ⟨w₁, h₁, h₂⟩ := run_cons_eq_some h
      have halive : ∀ i e, w₁.txns i ≠ .aborted e := by
        intro i e he
        obtain ⟨e', he'⟩ := run_invariant (fun w act w' hw h => World.step_aborted (store pg) hw h)
          (I := fun w => ∃ e, w.txns i = .aborted e) ⟨e, he⟩ h₂
        obtain ⟨o, s, ho⟩ := Txn.isCommitted_iff.mp (hdone i)
        rw [ho] at he'
        cases he'
      have hstep : w₁.total (passed p eventId) = w.total (passed p eventId) +
          if unseenCheck p eventId w act then 1 else 0 := total_passed_step hw halive h₁
      have hrest := ih ((lockDiscipline pg rt jobs).step_sound hw h₁) h₂
      rw [countAlong_cons_of_step h₁]
      omega

omit [DecidableEq ι] in
/-- A finished delivery of the event stored a row exactly when it passed its check. -/
theorem stored_eq_passed {i : ι} {call : EventCall} {prep : Prepared}
    (hw : Delivering pg rt jobs p eventId w) (hjob : jobs i = .event call)
    (hprep : prepare rt call = .ok prep) (hkey : call.eventKey pg = some (p, eventId))
    {o : Outcome} {s : Session} (hi : w.txns i = .committed o s) :
    stored (w.txns i) = passed p eventId (w.txns i) ∧
      (stored (w.txns i) = 1 ∨ 1 ≤ w.committed.rowsOf p eventId) := by
  have hv := hw.sound.verified i
  have honce := hw.once i s (.inr ⟨o, hi⟩)
  rw [hi, hjob] at hv
  rw [hi]
  obtain ⟨out, rfl, h⟩ := JobPost.event_cases hv
  cases out with
  | poison =>
      obtain ⟨-, e, he⟩ := h
      rw [hprep] at he
      cases he
  | duplicate =>
      obtain ⟨-, p', e', hkey', hlog⟩ := h
      obtain ⟨rfl, rfl⟩ := Prod.mk.inj (Option.some.inj (hkey.symm.trans hkey'))
      refine ⟨?_, .inr (hw.found i s (.inr ⟨_, hi⟩) ?_)⟩
      swap
      · rw [hlog]
        exact List.mem_singleton_self _
      simp [stored, passed, hlog, isPassed]
  | stored r =>
      obtain ⟨q, row, iw, e, hst⟩ := h
      obtain ⟨rfl, rfl⟩ := Prod.mk.inj (Option.some.inj (hkey.symm.trans hst.eventKey))
      have hpos : 0 < s.log.countP (isPassed e.projectId e.eventId) :=
        List.countP_pos_iff.mpr ⟨_, hst.checkLogged, by simp [isPassed]⟩
      refine ⟨?_, .inl rfl⟩
      simp only [stored, passed]
      omega

/-- The rows of a finished run are the checks made before the first of them was committed. -/
theorem rows_eq_unseen_checks (hdb : db.Valid)
    (hjobs : ∀ i, ∃ call prep, jobs i = .event call ∧ prepare rt call = .ok prep ∧
      call.eventKey pg = some (p, eventId))
    (hnone : db.rowsOf p eventId = 0) {acts : List (Action ι)}
    (h : run (World.step (store pg)) (startJobs pg rt jobs now db) acts = some w)
    (hdone : Finished w) :
    Delivering pg rt jobs p eventId w ∧ w.committed.rowsOf p eventId =
      countAlong (World.step (store pg)) (unseenCheck p eventId)
        (startJobs pg rt jobs now db) acts := by
  have hkeys : ∀ i, ∃ call, jobs i = .event call ∧ call.eventKey pg = some (p, eventId) :=
    fun i => (hjobs i).imp fun _ h => ⟨h.choose_spec.1, h.choose_spec.2.2⟩
  have hsound : (lockDiscipline pg rt jobs).Sound (startJobs pg rt jobs now db) :=
    startJobs_sound hdb
  have hstart : Delivering pg rt jobs p eventId (startJobs pg rt jobs now db) := by
    refine ⟨hsound, ?_, fun i s hhas => ?_, fun i s hhas hmem => ?_⟩
    · exact hnone.trans (Finset.sum_eq_zero fun i _ => rfl).symm
    · rw [startJobs_has hhas]
      exact Nat.zero_le 1
    · rw [startJobs_has hhas] at hmem
      cases hmem
  have hw : Delivering pg rt jobs p eventId w :=
    run_invariant (fun w act w' hw h => step_delivering hkeys hw h) hstart h
  refine ⟨hw, ?_⟩
  have hpassed : w.total (passed p eventId) =
      (startJobs pg rt jobs now db).total (passed p eventId) +
        countAlong (World.step (store pg)) (unseenCheck p eventId)
          (startJobs pg rt jobs now db) acts :=
    total_passed_run hsound hdone h
  have hzero : (startJobs pg rt jobs now db).total (passed p eventId) = 0 :=
    Finset.sum_eq_zero fun i _ => rfl
  have hsame : w.total stored = w.total (passed p eventId) := by
    refine Finset.sum_congr rfl fun i _ => ?_
    obtain ⟨call, prep, hjob, hprep, hkey⟩ := hjobs i
    obtain ⟨o, s, hi⟩ := Txn.isCommitted_iff.mp (hdone i)
    exact (stored_eq_passed hw hjob hprep hkey hi).1
  have hrows := hw.rows
  omega

theorem duplicate_bound_iff [Nonempty ι] (hdb : db.Valid)
    (hjobs : ∀ i, ∃ call prep, jobs i = .event call ∧ prepare rt call = .ok prep ∧
      call.eventKey pg = some (p, eventId))
    (hnone : db.rowsOf p eventId = 0) {acts : List (Action ι)}
    (h : run (World.step (store pg)) (startJobs pg rt jobs now db) acts = some w)
    (hdone : Finished w) :
    (1 ≤ w.committed.rowsOf p eventId ∧ w.committed.rowsOf p eventId ≤ 2) ↔
      countAlong (World.step (store pg)) (unseenCheck p eventId)
        (startJobs pg rt jobs now db) acts ≤ 2 := by
  obtain ⟨hw, hrows⟩ := rows_eq_unseen_checks hdb hjobs hnone h hdone
  have hpos : 1 ≤ w.committed.rowsOf p eventId := by
    obtain ⟨i⟩ := ‹Nonempty ι›
    obtain ⟨call, prep, hjob, hprep, hkey⟩ := hjobs i
    obtain ⟨o, s, hi⟩ := Txn.isCommitted_iff.mp (hdone i)
    obtain ⟨-, hone | hpos⟩ := stored_eq_passed hw hjob hprep hkey hi
    · have hle := Finset.single_le_sum (f := fun j => stored (w.txns j))
        (fun j _ => Nat.zero_le _) (Finset.mem_univ i)
      have hrows' := hw.rows
      unfold World.total at hrows'
      omega
    · exact hpos
  omega

/-- Two deliveries check before either commits, a third after both. -/
theorem duplicate_bound_iff_three :
    let jobs : Fin 3 → Job := fun i => .event (sampleCall none sampleEventId (10 * i.val))
    let start := startJobs samplePostgres sampleRuntime jobs (fun i => i.val) sampleDb
    let acts := [.run 0, .run 1] ++ List.replicate 4 (.run 0) ++ List.replicate 4 (.run 1) ++
      List.replicate 2 (.run 2)
    ∃ w, run (World.step (store samplePostgres)) start acts = some w ∧
      ((1 ≤ w.committed.rowsOf 1 1 ∧ w.committed.rowsOf 1 1 ≤ 2) ↔
        countAlong (World.step (store samplePostgres)) (unseenCheck 1 1) start acts ≤ 2) := by
  intro jobs start acts
  obtain ⟨w, hw, hdone⟩ := (Option.any_eq_true (fun w => decide (Finished w)) _).mp
    (by decide +kernel : (run (World.step (store samplePostgres)) start acts).any
      (fun w => decide (Finished w)) = true)
  have hprep : ∀ i : Fin 3,
      (prepare sampleRuntime (sampleCall none sampleEventId (10 * i.val))).toBool = true ∧
      (sampleCall none sampleEventId (10 * i.val)).eventKey samplePostgres = some (1, 1) := by
    decide +kernel
  refine ⟨w, hw, duplicate_bound_iff sampleDb_valid (fun i => ?_) rfl hw (of_decide_eq_true hdone)⟩
  cases hi : prepare sampleRuntime (sampleCall none sampleEventId (10 * i.val)) with
  | error e =>
      have hok := (hprep i).1
      rw [hi] at hok
      cases hok
  | ok prep => exact ⟨_, prep, rfl, hi, (hprep i).2⟩

/-- All three deliveries check before the first of them commits, and all three store a row. -/
theorem three_deliveries_three_rows :
    let jobs : Fin 3 → Job := fun i => .event (sampleCall none sampleEventId (10 * i.val))
    let start := startJobs samplePostgres sampleRuntime jobs (fun i => i.val) sampleDb
    let acts := [.run 0, .run 1, .run 2] ++ List.replicate 4 (.run 0) ++
      List.replicate 4 (.run 1) ++ List.replicate 4 (.run 2)
    ∃ w, run (World.step (store samplePostgres)) start acts = some w ∧ Finished w ∧
      w.committed.rowsOf 1 1 = 3 := by
  intro jobs start acts
  obtain ⟨w, hw, hdone⟩ := (Option.any_eq_true
    (fun w => decide (Finished w ∧ w.committed.rowsOf 1 1 = 3)) _).mp
    (by decide +kernel : (run (World.step (store samplePostgres)) start acts).any
      (fun w => decide (Finished w ∧ w.committed.rowsOf 1 1 = 3)) = true)
  exact ⟨w, hw, of_decide_eq_true hdone⟩

end Runs

end Crashlens
