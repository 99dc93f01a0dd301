import Crashlens.Database
import Mathlib.Data.List.TakeWhile

/-!
# Retention of events

`enforce_retention` of the worker with the session and the worker in UTC: one global cutoff from
the longest retention of all projects drops whole day partitions, and projects that keep less have
their rows deleted one organisation, one transaction, at a time. Source maps are not pruned here.

`retention_days` is an integer column without a check. A Python `date` ends with the years 1 and
9999 and a PostgreSQL `timestamptz` has its own range, and a subtraction that leaves the range
raises: before the drop it stops the whole run, in a trim it takes back the trims of that
organisation and stops the organisations after it.
-/

namespace Crashlens.Retention

structure Project where
  id : ℕ
  orgId : ℕ
  retentionDays : ℤ

structure Event where
  eventId : ℕ
  orgId : ℕ
  projectId : ℕ
  receivedAt : Timestamp
deriving DecidableEq

/-- Only a name `events_YYYYMMDD` tells a day. -/
inductive PartitionName where
  | daily (day : ℤ)
  | other (name : String)

structure Partition where
  name : PartitionName
  events : List Event

/-- What `_load_projects_by_org` returns: each organisation sees its own rows. -/
structure Tenants where
  projectsByOrg : List (ℕ × List Project)
  own : ∀ o ∈ projectsByOrg, ∀ p ∈ o.2, p.orgId = o.1
  distinct : ((projectsByOrg.flatMap (·.2)).map Project.id).Nodup

def day : ℤ := 86400000000

/-- `0001-01-01` to `9999-12-31`, as days since 1970. -/
def IsDate (d : ℤ) : Prop := -719162 ≤ d ∧ d ≤ 2932896

/-- The range of `timestamptz`, 4714-11-24 BC up to 294277-01-01. -/
def IsTimestamp (t : ℤ) : Prop := -2440588 * day ≤ t ∧ t < 106762940 * day

instance : DecidablePred IsDate := fun _ => inferInstanceAs (Decidable (_ ∧ _))

instance : DecidablePred IsTimestamp := fun _ => inferInstanceAs (Decidable (_ ∧ _))

def toDate (d : ℤ) : Option ℤ := if IsDate d then some d else none

def toTimestamp (t : ℤ) : Option Timestamp := if IsTimestamp t then some t else none

def defaultRetentionDaysFallback : ℤ := 90

def foldGlobalMaxRetentionDays (values : List ℤ) : ℤ :=
  values.max?.getD defaultRetentionDaysFallback

def computeRetentionCutoff (today globalMax : ℤ) : Option ℤ := toDate (today - globalMax)

def projectsNeedingTrim (projects : List Project) (globalMax : ℤ) : List Project :=
  projects.filter fun p => p.retentionDays < globalMax

/-- The SQL function: a partition whose name tells no day stays. -/
def dropEventsPartitionsBefore (cutoff : ℤ) (parts : List Partition) : List Partition :=
  parts.filter fun part =>
    match part.name with
    | .daily partDay => ¬ partDay < cutoff
    | .other _ => true

/-- The `DELETE` of a trim, seen through the row security of its organisation. -/
def deleteBefore (orgId projectId : ℕ) (bound : Timestamp) (parts : List Partition) :
    List Partition :=
  parts.map fun part =>
    { part with events := part.events.filter fun e =>
        ¬ (e.orgId = orgId ∧ e.projectId = projectId ∧ e.receivedAt < bound) }

/-- `now() - make_interval(days => :retention_days)`. -/
def trimBound (now : Timestamp) (p : Project) : ℤ := now - p.retentionDays * day

/-- The transaction of one organisation. -/
def trimOrg (now : Timestamp) (orgId : ℕ) : List Project → List Partition → Option (List Partition)
  | [], parts => some parts
  | p :: ps, parts => do
      let bound ← toTimestamp (trimBound now p)
      trimOrg now orgId ps (deleteBefore orgId p.id bound parts)

structure Outcome where
  completed : Bool
  partitions : List Partition

def trimOverRetentionProjects (now : Timestamp) (globalMax : ℤ) :
    List (ℕ × List Project) → List Partition → Outcome
  | [], parts => ⟨true, parts⟩
  | (orgId, projects) :: rest, parts =>
      match trimOrg now orgId (projectsNeedingTrim projects globalMax) parts with
      | some parts' => trimOverRetentionProjects now globalMax rest parts'
      | none => ⟨false, parts⟩

def Tenants.projects (t : Tenants) : List Project := t.projectsByOrg.flatMap (·.2)

def Tenants.globalMax (t : Tenants) : ℤ :=
  foldGlobalMaxRetentionDays (t.projects.map (·.retentionDays))

def enforceRetention (t : Tenants) (now : Timestamp) (parts : List Partition) : Outcome :=
  match toDate (utcDay now) with
  | none => ⟨false, parts⟩
  | some today =>
    match computeRetentionCutoff today t.globalMax with
    | none => ⟨false, parts⟩
    | some cutoff =>
      trimOverRetentionProjects now t.globalMax t.projectsByOrg
        (dropEventsPartitionsBefore cutoff parts)

/-! ## What retention promises -/

def eventsOf (parts : List Partition) : List Event := parts.flatMap (·.events)

/-- Every event lies in the partition of its day and carries the organisation of its project. -/
structure Stored (t : Tenants) (parts : List Partition) : Prop where
  inDay : ∀ part ∈ parts, ∀ e ∈ part.events,
    part.name = .daily (utcDay e.receivedAt) ∧ IsDate (utcDay e.receivedAt)
  inOrg : ∀ e ∈ eventsOf parts, ∀ p ∈ t.projects, e.projectId = p.id → e.orgId = p.orgId

structure Retained (t : Tenants) (now : Timestamp) (before after : List Partition) : Prop where
  notTooEarly : ∀ e ∈ eventsOf before, e ∉ eventsOf after → ∀ p ∈ t.projects,
    e.projectId = p.id → e.receivedAt < now - p.retentionDays * day
  notTooLong : ∀ e ∈ eventsOf after, ∀ p ∈ t.projects,
    e.projectId = p.id → ¬ e.receivedAt < now - (p.retentionDays + 1) * day

/-- The dates and the bounds a run computes are dates and timestamps. -/
structure InRange (t : Tenants) (now : Timestamp) : Prop where
  today : IsDate (utcDay now)
  cutoff : IsDate (utcDay now - t.globalMax)
  bounds : ∀ p ∈ projectsNeedingTrim t.projects t.globalMax, IsTimestamp (trimBound now p)

/-- No event that a partition can hold is overdue. -/
def NothingOverdue (t : Tenants) (now : Timestamp) : Prop :=
  ∀ p ∈ t.projects, now - (p.retentionDays + 1) * day ≤ -719162 * day

/-! ## Which events a run leaves -/

theorem mem_eventsOf {parts : List Partition} {e : Event} :
    e ∈ eventsOf parts ↔ ∃ part ∈ parts, e ∈ part.events := List.mem_flatMap

theorem le_globalMax {t : Tenants} {p : Project} (hp : p ∈ t.projects) :
    p.retentionDays ≤ t.globalMax := by
  unfold Tenants.globalMax foldGlobalMaxRetentionDays
  have hmem : p.retentionDays ∈ t.projects.map (·.retentionDays) := List.mem_map_of_mem hp
  cases hmax : (t.projects.map (·.retentionDays)).max? with
  | none => simp [List.max?_eq_none_iff.mp hmax] at hmem
  | some m => exact (List.max?_eq_some_iff.mp hmax).2 _ hmem

theorem mem_projectsNeedingTrim {projects : List Project} {g : ℤ} {p : Project} :
    p ∈ projectsNeedingTrim projects g ↔ p ∈ projects ∧ p.retentionDays < g := by
  simp [projectsNeedingTrim]

theorem mem_dropEventsPartitionsBefore {t : Tenants} {parts : List Partition}
    (hs : Stored t parts) (cutoff : ℤ) (e : Event) :
    e ∈ eventsOf (dropEventsPartitionsBefore cutoff parts) ↔
      e ∈ eventsOf parts ∧ cutoff ≤ utcDay e.receivedAt := by
  simp only [mem_eventsOf, dropEventsPartitionsBefore, List.mem_filter]
  constructor
  · rintro ⟨part, ⟨hpart, hkeep⟩, he⟩
    rw [(hs.inDay part hpart e he).1] at hkeep
    exact ⟨⟨part, hpart, he⟩, by simpa using hkeep⟩
  · rintro ⟨⟨part, hpart, he⟩, hday⟩
    refine ⟨part, ⟨hpart, ?_⟩, he⟩
    rw [(hs.inDay part hpart e he).1]
    simpa using hday

/-- The `DELETE` of the trim of `p` takes the event. -/
def Expired (now : Timestamp) (orgId : ℕ) (p : Project) (e : Event) : Prop :=
  e.orgId = orgId ∧ e.projectId = p.id ∧ e.receivedAt < trimBound now p

theorem mem_deleteBefore {orgId : ℕ} {p : Project} {now : Timestamp} {parts : List Partition}
    {e : Event} : e ∈ eventsOf (deleteBefore orgId p.id (trimBound now p) parts) ↔
      e ∈ eventsOf parts ∧ ¬ Expired now orgId p e := by
  simp only [mem_eventsOf, deleteBefore, List.mem_map, exists_exists_and_eq_and, List.mem_filter,
    decide_eq_true_eq, Expired]
  constructor
  · rintro ⟨part, hpart, he, hkeep⟩
    exact ⟨⟨part, hpart, he⟩, hkeep⟩
  · rintro ⟨⟨part, hpart, he⟩, hkeep⟩
    exact ⟨part, hpart, he, hkeep⟩

theorem toTimestamp_eq_some {a b : ℤ} :
    toTimestamp a = some b ↔ IsTimestamp a ∧ a = b := by
  unfold toTimestamp
  split <;> simp_all

theorem trimOrg_some {now : Timestamp} {orgId : ℕ} {ps : List Project}
    {parts parts' : List Partition} (h : trimOrg now orgId ps parts = some parts') (e : Event) :
    e ∈ eventsOf parts' ↔ e ∈ eventsOf parts ∧ ∀ p ∈ ps, ¬ Expired now orgId p e := by
  induction ps generalizing parts with
  | nil =>
      simp only [trimOrg, Option.some.injEq] at h
      simp [h]
  | cons p ps ih =>
      simp only [trimOrg, Option.bind_eq_bind, Option.bind_eq_some_iff] at h
      obtain ⟨bound, hbound, hrest⟩ := h
      obtain ⟨-, rfl⟩ := toTimestamp_eq_some.mp hbound
      rw [ih hrest, mem_deleteBefore, List.forall_mem_cons, and_assoc]

theorem trimOrg_isSome_iff (now : Timestamp) (orgId : ℕ) (ps : List Project)
    (parts : List Partition) :
    (trimOrg now orgId ps parts).isSome ↔ ∀ p ∈ ps, IsTimestamp (trimBound now p) := by
  induction ps generalizing parts with
  | nil => simp [trimOrg]
  | cons p ps ih =>
      simp only [trimOrg, Option.bind_eq_bind, List.forall_mem_cons]
      by_cases hb : IsTimestamp (trimBound now p)
      · have hsome : toTimestamp (trimBound now p) = some (trimBound now p) :=
          toTimestamp_eq_some.mpr ⟨hb, rfl⟩
        rw [hsome, Option.bind_some, ih]
        simp [hb]
      · have hnone : toTimestamp (trimBound now p) = none := if_neg hb
        simp [hnone, hb]

/-- The transaction of the organisation commits. -/
def Commits (now : Timestamp) (g : ℤ) (o : ℕ × List Project) : Prop :=
  ∀ p ∈ projectsNeedingTrim o.2 g, IsTimestamp (trimBound now p)

instance (now : Timestamp) (g : ℤ) : DecidablePred (Commits now g) :=
  fun _ => inferInstanceAs (Decidable (∀ p ∈ _, _))

/-- The trims that happen are those of the organisations before the first that fails. -/
theorem mem_trimOverRetentionProjects {now : Timestamp} {g : ℤ} {orgs : List (ℕ × List Project)}
    {parts : List Partition} (e : Event) :
    e ∈ eventsOf (trimOverRetentionProjects now g orgs parts).partitions ↔
      e ∈ eventsOf parts ∧ ∀ o ∈ orgs.takeWhile fun o => Commits now g o,
        ∀ p ∈ projectsNeedingTrim o.2 g, ¬ Expired now o.1 p e := by
  induction orgs generalizing parts with
  | nil => simp [trimOverRetentionProjects]
  | cons o rest ih =>
      obtain ⟨orgId, projects⟩ := o
      simp only [trimOverRetentionProjects]
      have hiff := trimOrg_isSome_iff now orgId (projectsNeedingTrim projects g) parts
      cases htrim : trimOrg now orgId (projectsNeedingTrim projects g) parts with
      | none =>
          have hnot : ¬ Commits now g (orgId, projects) := fun hc => by
            simpa [htrim] using hiff.mpr hc
          simp [hnot]
      | some parts' =>
          have hc : Commits now g (orgId, projects) := hiff.mp (by simp [htrim])
          rw [ih, trimOrg_some htrim]
          simp [hc, and_assoc]

theorem Tenants.mem_projects {t : Tenants} {p : Project} :
    p ∈ t.projects ↔ ∃ o ∈ t.projectsByOrg, p ∈ o.2 := List.mem_flatMap

theorem Tenants.eq_of_id {t : Tenants} {p p' : Project} (hp : p ∈ t.projects)
    (hp' : p' ∈ t.projects) (hid : p.id = p'.id) : p = p' :=
  List.inj_on_of_nodup_map t.distinct hp hp' hid

/-- The dates that are computed before anything is deleted are dates. -/
def Starts (t : Tenants) (now : Timestamp) : Prop :=
  IsDate (utcDay now) ∧ IsDate (utcDay now - t.globalMax)

instance (t : Tenants) (now : Timestamp) : Decidable (Starts t now) :=
  inferInstanceAs (Decidable (_ ∧ _))

theorem enforceRetention_starts {t : Tenants} {now : Timestamp} (h : Starts t now)
    (parts : List Partition) :
    enforceRetention t now parts = trimOverRetentionProjects now t.globalMax t.projectsByOrg
      (dropEventsPartitionsBefore (utcDay now - t.globalMax) parts) := by
  simp [enforceRetention, computeRetentionCutoff, toDate, h.1, h.2]

theorem enforceRetention_stops {t : Tenants} {now : Timestamp} (h : ¬ Starts t now)
    (parts : List Partition) : enforceRetention t now parts = ⟨false, parts⟩ := by
  unfold enforceRetention computeRetentionCutoff toDate
  by_cases htoday : IsDate (utcDay now)
  · have hcutoff : ¬ IsDate (utcDay now - t.globalMax) := fun hc => h ⟨htoday, hc⟩
    simp [htoday, hcutoff]
  · simp [htoday]

theorem mem_enforceRetention {t : Tenants} {now : Timestamp} {parts : List Partition}
    (hs : Stored t parts) (h : Starts t now) (e : Event) :
    e ∈ eventsOf (enforceRetention t now parts).partitions ↔
      (e ∈ eventsOf parts ∧ utcDay now - t.globalMax ≤ utcDay e.receivedAt) ∧
      ∀ o ∈ t.projectsByOrg.takeWhile fun o => Commits now t.globalMax o,
        ∀ p ∈ projectsNeedingTrim o.2 t.globalMax, ¬ Expired now o.1 p e := by
  rw [enforceRetention_starts h, mem_trimOverRetentionProjects, mem_dropEventsPartitionsBefore hs]

/-- An event in a partition before the day of the cutoff is older than the longest retention. -/
theorem receivedAt_lt_of_dropped {now t r g : ℤ} (hr : r ≤ g)
    (h : utcDay t < utcDay now - g) : t < now - r * day := by
  unfold utcDay at h
  unfold day
  omega

/-- An event from the day of the cutoff on is at most one day over the longest retention. -/
theorem le_receivedAt_of_kept {now t g : ℤ}
    (h : utcDay now - g ≤ utcDay t) : now - (g + 1) * day ≤ t := by
  unfold utcDay at h
  unfold day
  omega

theorem overdue_le (now r : ℤ) : now - (r + 1) * day ≤ now - r * day := by
  unfold day
  omega

/-- What goes is old enough in every run, also in one that stops half way. -/
theorem not_too_early {t : Tenants} {now : Timestamp} {parts : List Partition}
    (hs : Stored t parts) {e : Event} (he : e ∈ eventsOf parts)
    (hgone : e ∉ eventsOf (enforceRetention t now parts).partitions) {p : Project}
    (hp : p ∈ t.projects) (hid : e.projectId = p.id) :
    e.receivedAt < now - p.retentionDays * day := by
  by_cases h : Starts t now
  · rw [mem_enforceRetention hs h] at hgone
    by_cases hday : utcDay now - t.globalMax ≤ utcDay e.receivedAt
    · have htrim : ¬ ∀ o ∈ t.projectsByOrg.takeWhile fun o => Commits now t.globalMax o,
          ∀ p ∈ projectsNeedingTrim o.2 t.globalMax, ¬ Expired now o.1 p e :=
        fun hall => hgone ⟨⟨he, hday⟩, hall⟩
      push Not at htrim
      obtain ⟨o, ho, p', hp', -, hid', hlt⟩ := htrim
      have hmem : p' ∈ t.projects := Tenants.mem_projects.mpr
        ⟨o, (List.takeWhile_prefix _).subset ho, (mem_projectsNeedingTrim.mp hp').1⟩
      rw [Tenants.eq_of_id hp hmem (hid.symm.trans hid')]
      exact hlt
    · exact receivedAt_lt_of_dropped (le_globalMax hp) (by omega)
  · rw [enforceRetention_stops h] at hgone
    exact absurd he hgone

theorem InRange.commits {t : Tenants} {now : Timestamp} (h : InRange t now) :
    ∀ o ∈ t.projectsByOrg, Commits now t.globalMax o := by
  intro o ho p hp
  obtain ⟨hpo, hlt⟩ := mem_projectsNeedingTrim.mp hp
  exact h.bounds p (mem_projectsNeedingTrim.mpr ⟨Tenants.mem_projects.mpr ⟨o, ho, hpo⟩, hlt⟩)

theorem not_too_long_of_inRange {t : Tenants} {now : Timestamp} {parts : List Partition}
    (hs : Stored t parts) (h : InRange t now) {e : Event}
    (he : e ∈ eventsOf (enforceRetention t now parts).partitions) {p : Project}
    (hp : p ∈ t.projects) (hid : e.projectId = p.id) :
    ¬ e.receivedAt < now - (p.retentionDays + 1) * day := by
  obtain ⟨⟨hmem, hday⟩, htrim⟩ := (mem_enforceRetention hs ⟨h.today, h.cutoff⟩ e).mp he
  by_cases hlt : p.retentionDays < t.globalMax
  · obtain ⟨o, ho, hpo⟩ := Tenants.mem_projects.mp hp
    have hprefix : o ∈ t.projectsByOrg.takeWhile fun o => Commits now t.globalMax o := by
      rw [List.takeWhile_eq_self_iff.mpr fun o ho => decide_eq_true (h.commits o ho)]
      exact ho
    have horg : e.orgId = o.1 := (hs.inOrg e hmem p hp hid).trans (t.own o ho p hpo)
    have hkept : ¬ e.receivedAt < trimBound now p := fun hex =>
      htrim o hprefix p (mem_projectsNeedingTrim.mpr ⟨hpo, hlt⟩) ⟨horg, hid, hex⟩
    exact fun hover => hkept (hover.trans_le (overdue_le now p.retentionDays))
  · have hmax : p.retentionDays = t.globalMax := le_antisymm (le_globalMax hp) (not_lt.mp hlt)
    rw [hmax]
    exact not_lt.mpr (le_receivedAt_of_kept hday)

theorem first_le_of_isDate {t : ℤ} (h : IsDate (utcDay t)) : -719162 * day ≤ t := by
  have hfirst := h.1
  unfold utcDay at hfirst
  unfold day
  omega

theorem not_too_long_of_nothingOverdue {t : Tenants} {now : Timestamp} {parts : List Partition}
    (hs : Stored t parts) (h : NothingOverdue t now) {e : Event} (he : e ∈ eventsOf parts)
    {p : Project} (hp : p ∈ t.projects) :
    ¬ e.receivedAt < now - (p.retentionDays + 1) * day := by
  obtain ⟨part, hpart, hep⟩ := mem_eventsOf.mp he
  have hfirst := first_le_of_isDate (hs.inDay part hpart e hep).2
  exact not_lt.mpr ((h p hp).trans hfirst)

/-! ## When it keeps its promise -/

/-- The tables with one event of the project, received at the start of a day. -/
def oneEvent (p : Project) (d : ℤ) : List Partition :=
  [⟨.daily d, [⟨0, p.orgId, p.id, d * day⟩]⟩]

theorem utcDay_mul_day (d : ℤ) : utcDay (d * day) = d :=
  Int.mul_ediv_cancel d (by decide)

theorem stored_oneEvent {t : Tenants} {p : Project} (hp : p ∈ t.projects) {d : ℤ}
    (hd : IsDate d) : Stored t (oneEvent p d) := by
  constructor
  · intro part hpart e he
    obtain rfl := List.mem_singleton.mp hpart
    obtain rfl := List.mem_singleton.mp he
    simp [utcDay_mul_day, hd]
  · intro e he p' hp' hid
    have hone : e = ⟨0, p.orgId, p.id, d * day⟩ := by simpa [eventsOf, oneEvent] using he
    subst hone
    rw [Tenants.eq_of_id hp hp' hid]

/-- A run that stops before the drop leaves the first of all events. -/
theorem nothingOverdue_of_not_starts {t : Tenants} {now : Timestamp} (h : ¬ Starts t now)
    (hretained : ∀ parts, Stored t parts →
      Retained t now parts (enforceRetention t now parts).partitions) : NothingOverdue t now := by
  intro p hp
  have hret := hretained _ (stored_oneEvent hp (d := -719162) (by decide))
  rw [enforceRetention_stops h] at hret
  exact not_lt.mp (hret.notTooLong _ (List.mem_singleton_self _) p hp rfl)

/-- A bound out of range is in the far future: the cutoff is a date, so it is not too early. -/
theorem far_of_not_isTimestamp {now r g : ℤ} (hr : r < g) (hcutoff : IsDate (utcDay now - g))
    (h : ¬ IsTimestamp (now - r * day)) : 106762940 * day ≤ now - r * day := by
  obtain ⟨hfirst, -⟩ := hcutoff
  unfold IsTimestamp at h
  unfold utcDay at hfirst
  unfold day at h ⊢
  omega

theorem cutoff_lt_overdue {now r d : ℤ} (hd : IsDate d)
    (h : 106762940 * day ≤ now - r * day) : d * day < now - (r + 1) * day := by
  obtain ⟨-, hlast⟩ := hd
  unfold day at h ⊢
  omega

/-- The organisation of a project whose bound is out of range is not trimmed, and an event of the
day of the cutoff stays. -/
theorem bounds_of_retained {t : Tenants} {now : Timestamp} (h : Starts t now)
    (hretained : ∀ parts, Stored t parts →
      Retained t now parts (enforceRetention t now parts).partitions) :
    ∀ p ∈ projectsNeedingTrim t.projects t.globalMax, IsTimestamp (trimBound now p) := by
  intro p hneed
  obtain ⟨hp, hlt⟩ := mem_projectsNeedingTrim.mp hneed
  by_contra hbad
  have hs := stored_oneEvent hp h.2
  have hret := hretained _ hs
  have hstays : (⟨0, p.orgId, p.id, (utcDay now - t.globalMax) * day⟩ : Event) ∈
      eventsOf (enforceRetention t now (oneEvent p (utcDay now - t.globalMax))).partitions := by
    rw [mem_enforceRetention hs h]
    refine ⟨⟨by simp [eventsOf, oneEvent], le_of_eq (utcDay_mul_day _).symm⟩, ?_⟩
    intro o ho p' hp' hex
    obtain ⟨hpo, -⟩ := mem_projectsNeedingTrim.mp hp'
    have hmem : p' ∈ t.projects := Tenants.mem_projects.mpr
      ⟨o, (List.takeWhile_prefix _).subset ho, hpo⟩
    have hcommits : Commits now t.globalMax o := by
      simpa using List.mem_takeWhile_imp ho
    rw [Tenants.eq_of_id hp hmem hex.2.1] at hbad
    exact hbad (hcommits p' hp')
  have hfar := far_of_not_isTimestamp hlt h.2 hbad
  have hlate : now - (p.retentionDays + 1) * day ≤ (utcDay now - t.globalMax) * day :=
    not_lt.mp (hret.notTooLong _ hstays p hp rfl)
  exact absurd hlate (not_le.mpr (cutoff_lt_overdue h.2 hfar))

/-- A run deletes nothing too early, and keeps nothing too long exactly when no date it computes
leaves its range or no event can be overdue. -/
theorem retained_iff (t : Tenants) (now : Timestamp) :
    (∀ parts, Stored t parts → Retained t now parts (enforceRetention t now parts).partitions) ↔
      InRange t now ∨ NothingOverdue t now := by
  constructor
  · intro hretained
    by_cases h : Starts t now
    · exact .inl ⟨h.1, h.2, bounds_of_retained h hretained⟩
    · exact .inr (nothingOverdue_of_not_starts h hretained)
  · intro h parts hs
    refine ⟨fun e he hgone p hp hid => not_too_early hs he hgone hp hid, ?_⟩
    intro e he p hp hid
    obtain hrange | hnothing := h
    · exact not_too_long_of_inRange hs hrange he hp hid
    · by_cases hstart : Starts t now
      · exact not_too_long_of_nothingOverdue hs hnothing
          ((mem_enforceRetention hs hstart e).mp he).1.1 hp
      · rw [enforceRetention_stops hstart] at he
        exact not_too_long_of_nothingOverdue hs hnothing he hp

/-- Two organisations, one keeping its events for 30 days, the other for a million. -/
def keepsForever : Tenants where
  projectsByOrg := [(1, [⟨10, 1, 30⟩]), (2, [⟨20, 2, 1000000⟩])]
  own := by decide
  distinct := by decide

/-- At noon of 2026-07-01 the subtraction of a million days raises, and an event the first project
got on 2020-01-01 stays. -/
theorem overdue_event_stays :
    Stored keepsForever (oneEvent ⟨10, 1, 30⟩ 18262) ∧
      enforceRetention keepsForever 1782907200000000 (oneEvent ⟨10, 1, 30⟩ 18262) =
        ⟨false, oneEvent ⟨10, 1, 30⟩ 18262⟩ ∧
      ¬ Retained keepsForever 1782907200000000 (oneEvent ⟨10, 1, 30⟩ 18262)
        (oneEvent ⟨10, 1, 30⟩ 18262) := by
  have hmem : (⟨10, 1, 30⟩ : Project) ∈ keepsForever.projects := List.mem_cons_self
  have hstops : ¬ Starts keepsForever 1782907200000000 := by decide
  refine ⟨stored_oneEvent hmem (by decide), enforceRetention_stops hstops _, fun h => ?_⟩
  exact h.notTooLong _ (List.mem_singleton_self _) _ hmem rfl (by decide)

end Crashlens.Retention
