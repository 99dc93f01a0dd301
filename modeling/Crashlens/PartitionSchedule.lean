import Crashlens.Retention

/-!
# Partitions ahead of time

`maintain_event_partitions` creates the partitions of the next seven days and `enforce_retention`
drops those before its cutoff, both with the worker in UTC. A schedule is a first maintenance and
any jobs after it, in the order of their days. Ingest has a home on a day whose partition exists.

The tables attached to `events` are those that `create_events_partition` made, so that no other
one stands in the way of a new day.
-/

namespace Crashlens.Retention

deriving instance DecidableEq for PartitionName

def existingPartitionNames (parts : List Partition) : List PartitionName := parts.map (·.name)

/-- `CREATE TABLE IF NOT EXISTS`, for the range of one day. -/
def createEventsPartition (parts : List Partition) (d : ℤ) : List Partition :=
  if .daily d ∈ existingPartitionNames parts then parts else parts ++ [⟨.daily d, []⟩]

def lookaheadPartitionDays (today : ℤ) (daysAhead : ℕ) : Option (List ℤ) :=
  (List.range (daysAhead + 1)).mapM fun offset : ℕ => toDate (today + offset)

/-- One transaction, opened after the days are computed. -/
def maintainEventPartitions (now : Timestamp) (parts : List Partition) : Outcome :=
  match (toDate (utcDay now)).bind fun today => lookaheadPartitionDays today 7 with
  | none => ⟨false, parts⟩
  | some days => ⟨true, days.foldl createEventsPartition parts⟩

/-- A job and the moment it runs; a retention job reads the projects there are by then. -/
inductive Job where
  | maintain (now : Timestamp)
  | enforce (now : Timestamp) (tenants : Tenants)

def Job.today : Job → ℤ
  | .maintain now => utcDay now
  | .enforce now _ => utcDay now

def runJob (parts : List Partition) : Job → List Partition
  | .maintain now => (maintainEventPartitions now parts).partitions
  | .enforce now tenants => (enforceRetention tenants now parts).partitions

def runJobs (parts : List Partition) (jobs : List Job) : List Partition := jobs.foldl runJob parts

/-- The day of the last maintenance once the job has run. -/
def Job.maintained (last : ℤ) : Job → ℤ
  | .maintain now => utcDay now
  | .enforce _ _ => last

def lastMaintained (last : ℤ) (jobs : List Job) : ℤ := jobs.foldl Job.maintained last

/-- A maintenance comes at most seven days after the last one, and no retention is negative. -/
def Job.Regular (last : ℤ) : Job → Prop
  | .maintain now => utcDay now ≤ last + 7
  | .enforce _ tenants => ∀ p ∈ tenants.projects, 0 ≤ p.retentionDays

/-- The jobs may follow a job of the day `today`, with the last maintenance on the day `last`. -/
def Scheduled : ℤ → ℤ → List Job → Prop
  | _, _, [] => True
  | last, today, job :: jobs =>
      today ≤ job.today ∧ job.Regular last ∧ Scheduled (job.maintained last) job.today jobs

instance (last : ℤ) : DecidablePred (Job.Regular last)
  | .maintain _ => inferInstanceAs (Decidable (_ ≤ _))
  | .enforce _ _ => inferInstanceAs (Decidable (∀ p ∈ _, _))

instance Scheduled.decidable :
    (last today : ℤ) → (jobs : List Job) → Decidable (Scheduled last today jobs)
  | _, _, [] => .isTrue trivial
  | last, _, job :: jobs =>
    have := Scheduled.decidable (job.maintained last) job.today jobs
    inferInstanceAs (Decidable (_ ∧ _ ∧ _))

def HasPartition (d : ℤ) (parts : List Partition) : Prop :=
  .daily d ∈ existingPartitionNames parts

/-! ## What a job does to the names -/

theorem hasPartition_createEventsPartition (parts : List Partition) (d d' : ℤ) :
    HasPartition d (createEventsPartition parts d') ↔ HasPartition d parts ∨ d = d' := by
  unfold createEventsPartition HasPartition
  split
  · rename_i hexists
    constructor
    · exact Or.inl
    · rintro (h | rfl)
      · exact h
      · exact hexists
  · simp [existingPartitionNames]

theorem hasPartition_createAll (days : List ℤ) (parts : List Partition) (d : ℤ) :
    HasPartition d (days.foldl createEventsPartition parts) ↔ HasPartition d parts ∨ d ∈ days := by
  induction days generalizing parts with
  | nil => simp
  | cons d' days ih =>
      rw [List.foldl_cons, ih, hasPartition_createEventsPartition, List.mem_cons, or_assoc]

theorem mapM_toDate {xs : List ℕ} {f : ℕ → ℤ} (h : ∀ x ∈ xs, IsDate (f x)) :
    xs.mapM (fun x => toDate (f x)) = some (xs.map f) := by
  induction xs with
  | nil => rfl
  | cons x xs ih =>
      rw [List.forall_mem_cons] at h
      have hdate : toDate (f x) = some (f x) := if_pos h.1
      rw [List.mapM_cons, hdate, ih h.2]
      rfl

theorem lookaheadPartitionDays_eq_some {today : ℤ} {daysAhead : ℕ} (hfirst : IsDate today)
    (hlast : IsDate (today + daysAhead)) : lookaheadPartitionDays today daysAhead =
      some ((List.range (daysAhead + 1)).map fun offset : ℕ => today + offset) := by
  unfold lookaheadPartitionDays
  refine mapM_toDate (f := fun offset : ℕ => today + offset) fun offset hoffset => ?_
  rw [List.mem_range] at hoffset
  unfold IsDate at hfirst hlast ⊢
  omega

theorem maintainEventPartitions_completes {now : Timestamp} (hfirst : IsDate (utcDay now))
    (hlast : IsDate (utcDay now + 7)) (parts : List Partition) (d : ℤ) :
    HasPartition d (maintainEventPartitions now parts).partitions ↔
      HasPartition d parts ∨ utcDay now ≤ d ∧ d ≤ utcDay now + 7 := by
  have htoday : toDate (utcDay now) = some (utcDay now) := if_pos hfirst
  have hdays : lookaheadPartitionDays (utcDay now) 7 = _ :=
    lookaheadPartitionDays_eq_some hfirst hlast
  unfold maintainEventPartitions
  rw [htoday, Option.bind_some, hdays, hasPartition_createAll, List.mem_map]
  refine or_congr_right ⟨?_, ?_⟩
  · rintro ⟨offset, hoffset, rfl⟩
    rw [List.mem_range] at hoffset
    omega
  · intro hd
    refine ⟨(d - utcDay now).toNat, List.mem_range.mpr ?_, ?_⟩ <;> omega

theorem existingPartitionNames_deleteBefore (orgId projectId : ℕ) (bound : Timestamp)
    (parts : List Partition) : existingPartitionNames (deleteBefore orgId projectId bound parts) =
      existingPartitionNames parts := by
  simp [existingPartitionNames, deleteBefore]

theorem existingPartitionNames_trimOrg {now : Timestamp} {orgId : ℕ} {ps : List Project}
    {parts parts' : List Partition} (h : trimOrg now orgId ps parts = some parts') :
    existingPartitionNames parts' = existingPartitionNames parts := by
  induction ps generalizing parts with
  | nil => exact congrArg existingPartitionNames (Option.some.inj h).symm
  | cons p ps ih =>
      simp only [trimOrg, Option.bind_eq_bind, Option.bind_eq_some_iff] at h
      obtain ⟨bound, -, hrest⟩ := h
      rw [ih hrest, existingPartitionNames_deleteBefore]

theorem existingPartitionNames_trim (now : Timestamp) (g : ℤ) (orgs : List (ℕ × List Project))
    (parts : List Partition) :
    existingPartitionNames (trimOverRetentionProjects now g orgs parts).partitions =
      existingPartitionNames parts := by
  induction orgs generalizing parts with
  | nil => rfl
  | cons o rest ih =>
      obtain ⟨orgId, projects⟩ := o
      simp only [trimOverRetentionProjects]
      cases htrim : trimOrg now orgId (projectsNeedingTrim projects g) parts with
      | none => rfl
      | some parts' => exact (ih parts').trans (existingPartitionNames_trimOrg htrim)

theorem hasPartition_dropEventsPartitionsBefore {cutoff d : ℤ} (h : cutoff ≤ d)
    {parts : List Partition} (hhas : HasPartition d parts) :
    HasPartition d (dropEventsPartitionsBefore cutoff parts) := by
  obtain ⟨part, hpart, hname⟩ := List.mem_map.mp hhas
  refine List.mem_map.mpr ⟨part, List.mem_filter.mpr ⟨hpart, ?_⟩, hname⟩
  rw [hname]
  simpa using h

theorem globalMax_nonneg {t : Tenants} (h : ∀ p ∈ t.projects, 0 ≤ p.retentionDays) :
    0 ≤ t.globalMax := by
  unfold Tenants.globalMax foldGlobalMaxRetentionDays
  cases hmax : (t.projects.map (·.retentionDays)).max? with
  | none => decide
  | some m =>
      obtain ⟨p, hp, rfl⟩ := List.mem_map.mp (List.max?_eq_some_iff.mp hmax).1
      exact h p hp

/-- The cutoff is not after today, whatever the run manages to do. -/
theorem hasPartition_enforceRetention {t : Tenants} {now : Timestamp}
    (h : ∀ p ∈ t.projects, 0 ≤ p.retentionDays) {d : ℤ} (hd : utcDay now ≤ d)
    {parts : List Partition} (hhas : HasPartition d parts) :
    HasPartition d (enforceRetention t now parts).partitions := by
  by_cases hstart : Starts t now
  · have hcutoff : utcDay now - t.globalMax ≤ d := by
      have hmax := globalMax_nonneg h
      omega
    rw [enforceRetention_starts hstart, HasPartition, existingPartitionNames_trim]
    exact hasPartition_dropEventsPartitionsBefore hcutoff hhas
  · rw [enforceRetention_stops hstart]
    exact hhas

/-! ## Runs of a schedule -/

/-- Ingest has a home on each of these days. -/
def Covers (first last : ℤ) (parts : List Partition) : Prop :=
  ∀ d, first ≤ d → d ≤ last → HasPartition d parts

theorem covers_maintainEventPartitions {now : Timestamp} (hfirst : IsDate (utcDay now))
    (hlast : IsDate (utcDay now + 7)) (parts : List Partition) :
    Covers (utcDay now) (utcDay now + 7) (maintainEventPartitions now parts).partitions :=
  fun d hd hd' => (maintainEventPartitions_completes hfirst hlast parts d).mpr (.inr ⟨hd, hd'⟩)

theorem IsDate.between {a b d : ℤ} (ha : IsDate a) (hb : IsDate b) (had : a ≤ d) (hdb : d ≤ b) :
    IsDate d := ⟨ha.1.trans had, hdb.trans hb.2⟩

theorem Job.le_maintained {last today : ℤ} {job : Job} (hlast : last ≤ today)
    (hday : today ≤ job.today) : last ≤ job.maintained last ∧ job.maintained last ≤ job.today := by
  cases job with
  | maintain now => exact ⟨hlast.trans hday, le_rfl⟩
  | enforce now tenants => exact ⟨le_rfl, hlast.trans hday⟩

/-- From the day of a job to seven days after the last maintenance there is no hole. -/
theorem covers_runJob {last today : ℤ} {parts : List Partition} {job : Job}
    (hparts : Covers today (last + 7) parts) (hlast : last ≤ today) (hday : today ≤ job.today)
    (hreg : job.Regular last) (hfirst : IsDate last) (hend : IsDate (job.maintained last + 7)) :
    Covers job.today (job.maintained last + 7) (runJob parts job) := by
  cases job with
  | maintain now =>
      have htoday : IsDate (utcDay now) :=
        hfirst.between hend (hlast.trans hday) (Int.le_add_of_nonneg_right (by decide))
      exact covers_maintainEventPartitions htoday hend parts
  | enforce now tenants =>
      intro d hd hd'
      exact hasPartition_enforceRetention hreg hd (hparts d (hday.trans hd) hd')

theorem le_lastMaintained {last today : ℤ} {jobs : List Job} (h : Scheduled last today jobs)
    (hlast : last ≤ today) : last ≤ lastMaintained last jobs := by
  induction jobs generalizing last today with
  | nil => exact le_rfl
  | cons job jobs ih =>
      obtain ⟨hday, -, hrest⟩ := h
      obtain ⟨hle, hle'⟩ := Job.le_maintained hlast hday
      exact hle.trans (ih hrest hle')

/-- No day of the time up to the next maintenance is more than seven days after the last one. -/
theorem le_of_before {last today d : ℤ} {jobs : List Job} (h : Scheduled last today jobs)
    (hbefore : ∀ job ∈ jobs, d ≤ job.today) (hd : d ≤ lastMaintained last jobs + 7) :
    d ≤ last + 7 := by
  induction jobs generalizing last today with
  | nil => exact hd
  | cons job jobs ih =>
      rw [List.forall_mem_cons] at hbefore
      obtain ⟨-, hreg, hrest⟩ := h
      cases job with
      | maintain now => exact hbefore.1.trans hreg
      | enforce now tenants => exact ih hrest hbefore.2 hd

theorem scheduled_append {last today : ℤ} {before after : List Job}
    (h : Scheduled last today (before ++ after)) (hlast : last ≤ today) :
    Scheduled last today before ∧ ∃ today', lastMaintained last before ≤ today' ∧
      Scheduled (lastMaintained last before) today' after := by
  induction before generalizing last today with
  | nil => exact ⟨trivial, today, hlast, h⟩
  | cons job before ih =>
      obtain ⟨hday, hreg, hrest⟩ := h
      obtain ⟨hbefore, hafter⟩ := ih hrest (Job.le_maintained hlast hday).2
      exact ⟨⟨hday, hreg, hbefore⟩, hafter⟩

theorem hasPartition_runJobs {last today d : ℤ} {parts : List Partition} {jobs : List Job}
    (hparts : Covers today (last + 7) parts) (h : Scheduled last today jobs)
    (hlast : last ≤ today) (hfirst : IsDate last) (hend : IsDate (lastMaintained last jobs + 7))
    (htoday : today ≤ d) (hafter : ∀ job ∈ jobs, job.today ≤ d)
    (hd : d ≤ lastMaintained last jobs + 7) : HasPartition d (runJobs parts jobs) := by
  induction jobs generalizing parts last today with
  | nil => exact hparts d htoday hd
  | cons job jobs ih =>
      rw [List.forall_mem_cons] at hafter
      obtain ⟨hday, hreg, hrest⟩ := h
      obtain ⟨hle, hle'⟩ := Job.le_maintained hlast hday
      have hnext : job.maintained last ≤ lastMaintained last (job :: jobs) :=
        le_lastMaintained hrest hle'
      have hmaintained : IsDate (job.maintained last) :=
        hfirst.between hend hle (hnext.trans (Int.le_add_of_nonneg_right (by decide)))
      have hweek : IsDate (job.maintained last + 7) :=
        hmaintained.between hend (Int.le_add_of_nonneg_right (by decide)) (by omega)
      have hcovers := covers_runJob hparts hlast hday hreg hfirst hweek
      exact ih hcovers hrest hle' hmaintained hend hafter.1 hafter.2 hd

/-- In a schedule that starts with a maintenance, at any day from the first maintenance to seven
days after the last one: whatever jobs have run by then, the partition of the day exists. -/
theorem ingest_has_home (parts : List Partition) (first : Timestamp) (before after : List Job)
    (d : ℤ) (hschedule : Scheduled (utcDay first) (utcDay first) (before ++ after))
    (hfirst : IsDate (utcDay first))
    (hlast : IsDate (lastMaintained (utcDay first) (before ++ after) + 7))
    (hbefore : ∀ job ∈ .maintain first :: before, job.today ≤ d)
    (hafter : ∀ job ∈ after, d ≤ job.today)
    (hd : d ≤ lastMaintained (utcDay first) (before ++ after) + 7) :
    HasPartition d (runJobs parts (.maintain first :: before)) := by
  change HasPartition d (runJobs (maintainEventPartitions first parts).partitions before)
  rw [List.forall_mem_cons] at hbefore
  obtain ⟨hran, today, htoday, hrest⟩ := scheduled_append hschedule le_rfl
  have happend : lastMaintained (utcDay first) (before ++ after) =
      lastMaintained (lastMaintained (utcDay first) before) after := List.foldl_append
  rw [happend] at hlast hd
  have hle := le_lastMaintained hran le_rfl
  have hle' := le_lastMaintained hrest htoday
  have hran_last : IsDate (lastMaintained (utcDay first) before + 7) :=
    hfirst.between hlast (by omega) (by omega)
  have hweek : IsDate (utcDay first + 7) := hfirst.between hlast (by omega) (by omega)
  have hcovers := covers_maintainEventPartitions hfirst hweek parts
  exact hasPartition_runJobs hcovers hran le_rfl hfirst hran_last
    hbefore.1 hbefore.2 (le_of_before hrest hafter hd)

/-- Maintained at noon of 2026-07-01 and a week later, with a retention job of a project that keeps
nothing on the day between: the fourteenth of July has its partition. -/
theorem second_week_has_home :
    HasPartition 20648 (runJobs [] [.maintain 1782907200000000,
      .enforce 1783339200000000 ⟨[(1, [⟨10, 1, 0⟩])], by decide, by decide⟩,
      .maintain 1783512000000000]) := by
  refine ingest_has_home [] 1782907200000000 [.enforce 1783339200000000
    ⟨[(1, [⟨10, 1, 0⟩])], by decide, by decide⟩, .maintain 1783512000000000] [] 20648
    ?_ ?_ ?_ ?_ ?_ ?_
  all_goals decide

end Crashlens.Retention
