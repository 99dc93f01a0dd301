import Crashlens.Library.Attempts
import Crashlens.ReleaseOrder

/-!
# Transient failures end the job

The worker runs a job again only when the attempt was cancelled or asked for it by raising `Retry`
or `RetryJob`. `process_event` raises neither: a transient database error leaves it as it is, and
arq takes it for the end of the job, whatever `max_tries` says.
-/

namespace Crashlens

open Transactional

/-! ## An attempt -/

/-- What breaks off a transaction from outside: the database fails for a while, or arq cancels the
job. -/
inductive Disturbance where
  | operationalError
  | cancelled
  deriving DecidableEq

/-- What leaves an attempt other than a return. -/
inductive Raised where
  | retry
  | retryJob
  | cancelled
  | operationalError
  | exception (e : DbError)
  deriving DecidableEq

def Disturbance.raised : Disturbance → Raised
  | .operationalError => .operationalError
  | .cancelled => .cancelled

/-- What an attempt meets: the transactions that commit before it begins, its clock, and what breaks
off its own transaction, if anything. -/
structure Weather where
  meanwhile : List (Job × Timestamp)
  now : Timestamp
  disturbance : Option (Disturbance × Point)

/-- `arq.worker.Worker.run_job`: every other exception finishes the job as failed. -/
def runsAgain : Except Raised EventOutcome → Bool
  | .error .retry => true
  | .error .retryJob => true
  | .error .cancelled => true
  | _ => false

/-- `WorkerSettings.max_tries` -/
def maxTries : ℕ := 3

section Attempt

variable (pg : Postgres) (rt : Runtime) (call : EventCall)

/-- The disturbance and the state it leaves behind, when the attempt comes to that point. A poison
event opens no transaction. -/
def struck (w : Weather) (db : Db) : Option (Disturbance × Db) :=
  match prepare rt call, w.disturbance with
  | .ok prep, some (d, point) =>
    ((store pg).interrupt (processPrepared pg prep) w.now db point).map fun db' => (d, db')
  | _, _ => none

/-- An error of a statement leaves the job as it is. -/
def escape (out : Except DbError EventOutcome × Db) : Except Raised EventOutcome × Db :=
  (out.1.mapError .exception, out.2)

def attemptEvent (w : Weather) (db : Db) : Except Raised EventOutcome × Db :=
  match struck pg rt call w db with
  | some (d, db') => (.error d.raised, db')
  | none => escape ((store pg).serial (processEvent pg rt call) w.now db)

def elapse (w : Weather) (db : Db) : Db := replay (serialStep pg rt) db w.meanwhile

/-- The attempts the worker makes at the job of one event. -/
def eventAttempts (weather : ℕ → Weather) (db : Db) :
    List (Attempt Weather Db (Except Raised EventOutcome)) :=
  attempts (elapse pg rt) (attemptEvent pg rt call) runsAgain weather maxTries 0 db

/-- A transient failure with tries left is followed by another attempt, and an event whose project
and partition are there ends up stored if one of the first `max_tries` attempts is undisturbed. -/
structure RetriesTransient (weather : ℕ → Weather) (db : Db) : Prop where
  again : ∀ k a, (eventAttempts pg rt call weather db)[k]? = some a →
    a.result = .error .operationalError → k + 1 < maxTries →
      k + 1 < (eventAttempts pg rt call weather db).length
  stored : ∀ b, call.bound pg rt = some b → b.projectId ∈ db.projects →
    utcDay b.seenAt ∈ db.partitions → (∃ k < maxTries, (weather k).disturbance = none) →
      (endState db (eventAttempts pg rt call weather db)).rowsOf b.projectId b.eventId ≠ 0

end Attempt

/-! ## What jobs and attempts keep -/

section Keeps

variable {pg : Postgres} {rt : Runtime} {call : EventCall} {db c c' : Db}

/-- The projects and the partitions are the same and no event row is lost. -/
structure Db.Keeps (db c : Db) : Prop where
  projects : c.projects = db.projects
  partitions : c.partitions = db.partitions
  rows : ∀ p eventId, db.rowsOf p eventId ≤ c.rowsOf p eventId

theorem Db.Keeps.refl (db : Db) : db.Keeps db := ⟨rfl, rfl, fun _ _ => le_rfl⟩

theorem Db.Keeps.trans (h : db.Keeps c) (h' : c.Keeps c') : db.Keeps c' :=
  ⟨h'.projects.trans h.projects, h'.partitions.trans h.partitions,
    fun p eventId => (h.rows p eventId).trans (h'.rows p eventId)⟩

theorem exec_keeps {s : Session} {q : Request} {r : Response q} {d : WriteSet}
    (he : exec pg s.now c c s.writes q = .ok (r, d, c')) (h : db.Keeps c) : db.Keeps c' := by
  have hsame : c.SameTables c' := exec_sameTables he (Db.SameTables.refl c)
  refine h.trans ⟨?_, ?_, fun p eventId => (rowsOf_sameTables hsame p eventId).ge⟩
  all_goals
    obtain ⟨n, -, rfl⟩ := hsame
    rfl

theorem merge_keeps (w : WriteSet) (c : Db) (h : db.Keeps c) : db.Keeps (w.apply c) :=
  h.trans ⟨rfl, rfl, fun p eventId => rowsOf_le_apply w p eventId⟩

theorem serial_keeps {α : Type} (p : Tx α) (now : Timestamp) (c : Db) :
    c.Keeps ((store pg).serial p now c).2 :=
  Store.serial_invariant (fun _ _ _ _ _ _ he h => exec_keeps he h) merge_keeps (Db.Keeps.refl c)

theorem elapse_keeps (w : Weather) (c : Db) : c.Keeps (elapse pg rt w c) :=
  replay_invariant (fun c' jt _ h => h.trans (serial_keeps (jt.1.program pg rt) jt.2 c'))
    (Db.Keeps.refl c)

theorem struck_cases {w : Weather} {d : Disturbance} (h : struck pg rt call w c = some (d, c')) :
    ∃ prep point, prepare rt call = .ok prep ∧ w.disturbance = some (d, point) ∧
      (store pg).interrupt (processPrepared pg prep) w.now c point = some c' := by
  unfold struck at h
  split at h
  · next prep d' point hprep hw =>
      obtain ⟨c₁, hc₁, hpair⟩ := Option.map_eq_some_iff.mp h
      cases hpair
      exact ⟨prep, point, hprep, hw, hc₁⟩
  · cases h

theorem attemptEvent_struck {w : Weather} {d : Disturbance}
    (h : struck pg rt call w c = some (d, c')) :
    attemptEvent pg rt call w c = (.error d.raised, c') := by
  unfold attemptEvent
  rw [h]

theorem attemptEvent_free {w : Weather} (h : struck pg rt call w c = none) :
    attemptEvent pg rt call w c =
      escape ((store pg).serial (processEvent pg rt call) w.now c) := by
  unfold attemptEvent
  rw [h]

theorem attemptEvent_keeps (w : Weather) (c : Db) : c.Keeps (attemptEvent pg rt call w c).2 := by
  cases hstruck : struck pg rt call w c with
  | none =>
      rw [attemptEvent_free hstruck]
      exact serial_keeps (processEvent pg rt call) w.now c
  | some out =>
      obtain ⟨prep, point, -, -, hinterrupt⟩ := struck_cases hstruck
      rw [attemptEvent_struck hstruck]
      exact Store.interrupt_invariant (fun _ _ _ _ _ _ he h => exec_keeps he h) merge_keeps
        hinterrupt (Db.Keeps.refl c)

/-- Every attempt at the job finds the projects and partitions of the start and all its event
rows. -/
theorem eventAttempts_keep {weather : ℕ → Weather}
    {a : Attempt Weather Db (Except Raised EventOutcome)}
    (ha : a ∈ eventAttempts pg rt call weather db) : db.Keeps a.before := by
  have hall : ∀ a ∈ eventAttempts pg rt call weather db, db.Keeps a.before :=
    (attempts_invariant (fun w c h => h.trans (elapse_keeps w c))
      (fun w c h => h.trans (attemptEvent_keeps w c)) (Db.Keeps.refl db)).1
  exact hall a ha

theorem eventAttempts_made {weather : ℕ → Weather}
    {a : Attempt Weather Db (Except Raised EventOutcome)}
    (ha : a ∈ eventAttempts pg rt call weather db) :
    a.result = (attemptEvent pg rt call a.weather a.before).1 ∧
      a.after = (attemptEvent pg rt call a.weather a.before).2 :=
  Prod.mk.inj (attempts_made ha)

end Keeps

/-! ## What one attempt comes to -/

section Outcome

variable {pg : Postgres} {rt : Runtime} {call : EventCall} {w : Weather} {db : Db}

theorem escape_ne_operationalError (out : Except DbError EventOutcome × Db) :
    (escape out).1 ≠ .error .operationalError := by
  intro h
  obtain ⟨result, db'⟩ := out
  cases result with
  | ok o => cases h
  | error e => cases h

/-- Only a transient failure raises `OperationalError`. -/
theorem operationalError_iff : (attemptEvent pg rt call w db).1 = .error .operationalError ↔
    ∃ db', struck pg rt call w db = some (.operationalError, db') := by
  cases hstruck : struck pg rt call w db with
  | none =>
      rw [attemptEvent_free hstruck]
      simp [escape_ne_operationalError]
  | some out =>
      obtain ⟨d, db'⟩ := out
      rw [attemptEvent_struck hstruck]
      cases d with
      | operationalError => simp [Disturbance.raised]
      | cancelled => simp [Disturbance.raised]

/-- An undisturbed attempt at a bound event ends with the event stored. -/
theorem attempt_stores {b : Bound} (hb : call.bound pg rt = some b)
    (hproject : b.projectId ∈ db.projects) (hday : utcDay b.seenAt ∈ db.partitions)
    (hfree : struck pg rt call w db = none) :
    (attemptEvent pg rt call w db).2.rowsOf b.projectId b.eventId ≠ 0 := by
  rw [attemptEvent_free hfree]
  by_cases hnew : db.rowsOf b.projectId b.eventId = 0
  · rw [serial_stored hb (fun _ => hproject) hday hnew]
    show (b.store w.now db).rowsOf b.projectId b.eventId ≠ 0
    rw [rowsOf_store, if_pos ⟨rfl, rfl⟩]
    omega
  · have hrepeat : ((store pg).serial (processEvent pg rt call) w.now db).2 = db :=
      serial_repeat (bound_eventKey hb) hnew
    rw [escape, hrepeat]
    exact hnew

/-- Of the disturbances only a cancellation has the job run again. -/
theorem attempt_again_or_stores {b : Bound} (hb : call.bound pg rt = some b)
    (hproject : b.projectId ∈ db.projects) (hday : utcDay b.seenAt ∈ db.partitions)
    (hcalm : ∀ db', struck pg rt call w db ≠ some (.operationalError, db')) :
    runsAgain (attemptEvent pg rt call w db).1 = true ∨
      (attemptEvent pg rt call w db).2.rowsOf b.projectId b.eventId ≠ 0 := by
  cases hstruck : struck pg rt call w db with
  | none => exact .inr (attempt_stores hb hproject hday hstruck)
  | some out =>
      obtain ⟨d, db'⟩ := out
      cases d with
      | operationalError => exact absurd hstruck (hcalm db')
      | cancelled =>
          left
          rw [attemptEvent_struck hstruck]
          rfl

theorem struck_none_of_calm (h : w.disturbance = none) : struck pg rt call w db = none := by
  cases hstruck : struck pg rt call w db with
  | none => rfl
  | some out =>
      obtain ⟨prep, point, -, hw, -⟩ := struck_cases hstruck
      rw [h] at hw
      cases hw

end Outcome

/-! ## The attempts at a job -/

section Attempts

variable {pg : Postgres} {rt : Runtime} {call : EventCall} {weather : ℕ → Weather} {db : Db}

/-- A job whose attempts are not hit while a try is left stores its event as soon as the database
lets it. -/
theorem endState_stored {b : Bound} (hb : call.bound pg rt = some b)
    (hproject : b.projectId ∈ db.projects) (hday : utcDay b.seenAt ∈ db.partitions)
    (hcalm : ∀ k a, (eventAttempts pg rt call weather db)[k]? = some a → k + 1 < maxTries →
      ∀ db', struck pg rt call a.weather a.before ≠ some (.operationalError, db'))
    {j : ℕ} (hj : j < maxTries) (hundisturbed : (weather j).disturbance = none) :
    (endState db (eventAttempts pg rt call weather db)).rowsOf b.projectId b.eventId ≠ 0 := by
  have hstays {c c' : Db} (h : c.Keeps c') (hc : c.rowsOf b.projectId b.eventId ≠ 0) :
      c'.rowsOf b.projectId b.eventId ≠ 0 := by
    have hle := h.rows b.projectId b.eventId
    omega
  have hparent {a : Attempt Weather Db (Except Raised EventOutcome)}
      (ha : a ∈ eventAttempts pg rt call weather db) : b.projectId ∈ a.before.projects :=
    (eventAttempts_keep ha).projects ▸ hproject
  have hpartition {a : Attempt Weather Db (Except Raised EventOutcome)}
      (ha : a ∈ eventAttempts pg rt call weather db) : utcDay b.seenAt ∈ a.before.partitions :=
    (eventAttempts_keep ha).partitions ▸ hday
  have hindex : (weather (0 + j)).disturbance = none := by rwa [Nat.zero_add]
  refine attempts_done (fun c => c.rowsOf b.projectId b.eventId ≠ 0)
    (fun w => w.disturbance = none) (fun w c => hstays (elapse_keeps w c))
    (fun w c => hstays (attemptEvent_keeps w c)) (fun k a ha hk => ?_) (fun a ha hw => ?_) hj hindex
  · have hmem := List.mem_of_getElem? ha
    obtain ⟨hresult, hafter⟩ := eventAttempts_made hmem
    rw [hresult, hafter]
    exact attempt_again_or_stores hb (hparent hmem) (hpartition hmem) (hcalm k a ha hk)
  · rw [(eventAttempts_made ha).2]
    exact attempt_stores hb (hparent ha) (hpartition ha) (struck_none_of_calm hw)

/-- Transient failures are retried exactly in the runs that meet none while a try is left. -/
theorem retries_transient_iff (pg : Postgres) (rt : Runtime) (call : EventCall)
    (weather : ℕ → Weather) (db : Db) :
    RetriesTransient pg rt call weather db ↔
      ∀ k a, (eventAttempts pg rt call weather db)[k]? = some a → k + 1 < maxTries →
        ∀ db', struck pg rt call a.weather a.before ≠ some (.operationalError, db') := by
  constructor
  · intro h k a ha hk db' hstruck
    have herror : a.result = .error .operationalError :=
      (eventAttempts_made (List.mem_of_getElem? ha)).1.trans
        (operationalError_iff.mpr ⟨db', hstruck⟩)
    have hagain := ((attempts_next ha).mp (h.again k a ha herror hk)).1
    rw [herror] at hagain
    cases hagain
  · intro hcalm
    constructor
    · intro k a ha herror hk
      have hmade := (eventAttempts_made (List.mem_of_getElem? ha)).1
      obtain ⟨db', hstruck⟩ := operationalError_iff.mp (hmade.symm.trans herror)
      exact absurd hstruck (hcalm k a ha hk db')
    · rintro b hb hproject hday ⟨j, hj, hundisturbed⟩
      exact endState_stored hb hproject hday hcalm hj hundisturbed

/-- A job that retries transient failures does not end with the first. -/
theorem RetriesTransient.not_single (h : RetriesTransient pg rt call weather db) :
    (eventAttempts pg rt call weather db).map Attempt.result ≠ [.error .operationalError] := by
  intro hlog
  obtain ⟨a, ha, hresult⟩ := List.map_eq_singleton_iff.mp hlog
  have hfirst : (eventAttempts pg rt call weather db)[0]? = some a := by
    rw [ha]
    rfl
  have hnext := h.again 0 a hfirst hresult (by decide)
  rw [ha, List.length_singleton] at hnext
  omega

/-- The database cannot be reached at the first attempt, and is back afterwards. -/
def briefOutage (k : ℕ) : Weather :=
  ⟨[], k, if k = 0 then some (.operationalError, .opening) else none⟩

/-- The job ends as failed at its first attempt, and the event is lost. -/
theorem brief_outage_loses_event :
    let call := sampleCall none sampleEventId 0
    let log := eventAttempts samplePostgres sampleRuntime call briefOutage sampleDb
    (call.bound samplePostgres sampleRuntime).isSome = true ∧
      log.map Attempt.result = [.error .operationalError] ∧
      (endState sampleDb log).rowsOf 1 1 = 0 ∧
      ¬ RetriesTransient samplePostgres sampleRuntime call briefOutage sampleDb := by
  intro call log
  have hlog : log.map Attempt.result = [.error .operationalError] := by decide +kernel
  exact ⟨by decide +kernel, hlog, by decide +kernel, fun h => h.not_single hlog⟩

end Attempts

end Crashlens
