import Crashlens.IssueList
import Crashlens.Library.Tally

/-!
# The detail of an issue and its daily counts

`get_issue` reads the issue, its events and the counts of its last fourteen days. The window starts
at midnight, the query groups by the UTC day, and `zero_fill_occurrences` goes along the days from
the first to today: three accounts of the same days.
-/

namespace Crashlens.Tenant.Detail

open RowSecurity Tally

structure EventRow extends Event where
  orgId : ℕ

instance : TenantRow ℕ EventRow := ⟨EventRow.orgId⟩

def occurrenceWindowDays : ℕ := 14
def recentEventsLimit : ℕ := 25

def microsPerDay : ℤ := 86400000000

structure Occurrence where
  day : PyStr
  count : ℕ
deriving DecidableEq

/-- `counts_by_day` has one entry for a day. -/
def zeroFillOccurrences (countsByDay : List (ℤ × ℕ)) (today : ℤ) (days : ℕ) : List Occurrence :=
  let start := today - (days - 1)
  (List.range days).map fun offset : ℕ =>
    ⟨isoDate (start + offset), (countsByDay.lookup (start + offset)).getD 0⟩

structure EventSummary where
  eventId : PyStr
  receivedAt : PyStr
  environment : PyStr
  release : Option PyStr
  level : PyStr

structure LatestEvent extends EventSummary where
  payload : Dict

def eventSummary (e : Event) : EventSummary where
  eventId := uuidStr e.eventId
  receivedAt := isoformat e.receivedAt
  environment := e.environment.val
  release := e.release.map Subtype.val
  level := levelStr e.level

def latestEvent (e : Event) : LatestEvent := { eventSummary e with payload := e.payload }

structure IssueDetail extends IssueDict where
  latestEvent : Option LatestEvent
  recentEvents : List EventSummary
  occurrences : List Occurrence
  assignedToEmail : Option PyStr

/-- How the database sorts the events of one query by `received_at DESC`. -/
structure EventPlan where
  order : List EventRow → List EventRow
  perm : ∀ rows, (order rows).Perm rows
  sorted : ∀ rows, (order rows).Pairwise fun a b => b.receivedAt ≤ a.receivedAt

def oneOrNoneRow {α : Type} : List α → Except ServiceError (Option α)
  | [] => .ok none
  | [row] => .ok (some row)
  | _ => .error .multipleResults

/-- `accounts.load_users_by_ids` on the assignee. -/
def loadAssigneeEmail (db : Db) (assignedTo : Option ℕ) : Option PyStr :=
  assignedTo.bind fun id => (db.users.find? fun u => u.id = id).map fun u => u.email.val

/-- The rows of the daily counts query. -/
def dailyCounts (events : List EventRow) (windowStart : Timestamp) : List (ℤ × ℕ) :=
  tally (fun e : EventRow => utcDay e.receivedAt)
    (events.filter fun e => windowStart ≤ e.receivedAt)

/-- The answer, from the issue and its events. -/
def issueDetail (latest recent : EventPlan) (db : Db) (events : List EventRow) (now : Timestamp)
    (issue : Issue) : IssueDetail :=
  let today := utcDay now
  let windowStart := (today - (occurrenceWindowDays - 1)) * microsPerDay
  { issueDict issue with
    latestEvent := (latest.order events).head?.map fun e => Detail.latestEvent e.toEvent
    recentEvents := ((recent.order events).take recentEventsLimit).map fun e =>
      eventSummary e.toEvent
    occurrences := zeroFillOccurrences (dailyCounts events windowStart) today occurrenceWindowDays
    assignedToEmail := loadAssigneeEmail db issue.assignedTo }

def getIssue (latest recent : EventPlan) (db : Db) (events : List EventRow) (now : Timestamp)
    (orgId projectId issueId : ℕ) : Except ServiceError (Option IssueDetail) :=
  let scope : Scope ℕ := .tenant orgId
  do
    match ← oneOrNoneRow (select scope (fun p : Project => p.id = projectId) db.projects) with
    | none => return none
    | some _ =>
      match ← oneOrNoneRow (select scope
        (fun i : IssueRow => i.id = issueId && i.projectId = projectId) db.issues) with
      | none => return none
      | some issue =>
        let visible := select scope
          (fun e : EventRow => e.projectId = projectId && e.issueId = issueId) events
        return some (issueDetail latest recent db visible now issue.toIssue)

/-- The stored events of an issue. -/
def eventsOf (events : List EventRow) (orgId projectId issueId : ℕ) : List EventRow :=
  events.filter fun e => e.orgId = orgId ∧ e.projectId = projectId ∧ e.issueId = issueId

section Window

variable {events : List EventRow} {now : Timestamp} {orgId projectId issueId : ℕ}

/-- Midnight of a day is where its events begin. -/
theorem windowStart_le_iff (day : ℤ) (t : Timestamp) :
    day * microsPerDay ≤ t ↔ day ≤ utcDay t := by
  unfold microsPerDay utcDay
  omega

theorem select_events (events : List EventRow) (orgId projectId issueId : ℕ) :
    select (.tenant orgId) (fun e : EventRow => e.projectId = projectId && e.issueId = issueId)
      events = eventsOf events orgId projectId issueId := by
  refine List.filter_congr fun e _ => ?_
  have hadmits : (Scope.tenant orgId).admits (tenant e) = decide (e.orgId = orgId) := rfl
  rw [hadmits, Bool.eq_iff_iff]
  simp

theorem lookup_dailyCounts (events : List EventRow) {start day : ℤ} (h : start ≤ day) :
    ((dailyCounts events (start * microsPerDay)).lookup day).getD 0 =
      events.countP fun e => utcDay e.receivedAt = day := by
  rw [dailyCounts, lookup_tally, List.countP_filter]
  refine List.countP_congr fun e _ => ?_
  rw [Bool.and_eq_true, decide_eq_true_eq, decide_eq_true_eq, windowStart_le_iff]
  omega

theorem zeroFillOccurrences_dailyCounts (events : List EventRow) (today : ℤ) (days : ℕ) :
    zeroFillOccurrences (dailyCounts events ((today - (days - 1)) * microsPerDay)) today days =
      (List.range days).map fun offset : ℕ => ⟨isoDate (today - (days - 1) + offset),
        events.countP fun e => utcDay e.receivedAt = today - (days - 1) + offset⟩ := by
  refine List.map_congr_left fun offset _ => ?_
  rw [lookup_dailyCounts events (by omega)]

theorem getIssue_some {latest recent : EventPlan} {db : Db} {detail : IssueDetail}
    (h : getIssue latest recent db events now orgId projectId issueId = .ok (some detail)) :
    ∃ issue, detail =
      issueDetail latest recent db (eventsOf events orgId projectId issueId) now issue := by
  simp only [getIssue, select_events] at h
  cases hproject : oneOrNoneRow (select (.tenant orgId) (fun p : Project => p.id = projectId)
      db.projects) with
  | error e =>
      rw [hproject] at h
      cases h
  | ok project =>
      rw [hproject] at h
      cases project with
      | none => cases h
      | some project =>
          cases hissue : oneOrNoneRow (select (.tenant orgId)
              (fun i : IssueRow => i.id = issueId && i.projectId = projectId) db.issues) with
          | error e =>
              simp only [hissue] at h
              cases h
          | ok issue =>
              simp only [hissue] at h
              cases issue with
              | none => cases h
              | some issue =>
                  exact ⟨issue.toIssue, (Option.some.inj (Except.ok.inj h)).symm⟩

end Window

/-- One entry for each of the fourteen days up to today, with the events of its day, and in all the
events of the window. -/
theorem occurrences_complete (latest recent : EventPlan) (db : Db) (events : List EventRow)
    (now : Timestamp) (orgId projectId issueId : ℕ) (detail : IssueDetail)
    (h : getIssue latest recent db events now orgId projectId issueId = .ok (some detail)) :
    let stored := eventsOf events orgId projectId issueId
    let today := utcDay now
    detail.occurrences.length = 14 ∧
      (∀ k : ℕ, k < 14 → detail.occurrences[k]? = some ⟨isoDate (today - 13 + k),
        stored.countP fun e => utcDay e.receivedAt = today - 13 + k⟩) ∧
      (detail.occurrences.map Occurrence.day).getLast? = some (isoDate today) ∧
      (detail.occurrences.map Occurrence.count).sum =
        stored.countP fun e => today - 13 ≤ utcDay e.receivedAt ∧ utcDay e.receivedAt ≤ today := by
  intro stored today
  obtain ⟨issue, rfl⟩ := getIssue_some h
  have hseries : (issueDetail latest recent db stored now issue).occurrences =
      (List.range 14).map fun k : ℕ => ⟨isoDate (today - 13 + k),
        stored.countP fun e => utcDay e.receivedAt = today - 13 + k⟩ :=
    zeroFillOccurrences_dailyCounts stored today 14
  rw [hseries]
  refine ⟨by simp, fun k hk => by simp [hk], ?_, ?_⟩
  · rw [List.map_map, List.range_succ, List.map_append, List.map_singleton, List.getLast?_concat,
      Function.comp_apply]
    have hlast : today - 13 + ((13 : ℕ) : ℤ) = today := by omega
    rw [hlast]
  · rw [List.map_map]
    have hsum := sum_countP_window (fun e : EventRow => utcDay e.receivedAt) stored (today - 13) 14
    refine hsum.trans (List.countP_congr fun e _ => ?_)
    rw [decide_eq_true_eq, decide_eq_true_eq]
    omega

def listedPlan : EventPlan where
  order rows := rows.insertionSort fun a b => b.receivedAt ≤ a.receivedAt
  perm rows := List.perm_insertionSort _ rows
  sorted rows := by
    have htotal : Std.Total fun a b : EventRow => b.receivedAt ≤ a.receivedAt :=
      ⟨fun a b => le_total b.receivedAt a.receivedAt⟩
    have htrans : IsTrans EventRow fun a b => b.receivedAt ≤ a.receivedAt :=
      ⟨fun _ _ _ hab hbc => le_trans hbc hab⟩
    exact List.pairwise_insertionSort _ rows

def eventAt (eventId : ℕ) (receivedAt : Timestamp) : EventRow where
  projectId := 3
  issueId := 5
  eventId := eventId
  receivedAt := receivedAt
  environment := ⟨py "production", rfl⟩
  release := none
  level := .error
  payload := []
  orgId := 1

/-- The last instant before the window, its first instant, and an instant of today. -/
def threeEvents : List EventRow :=
  [eventAt 1 (20500 * microsPerDay - 1), eventAt 2 (20500 * microsPerDay),
    eventAt 3 (20513 * microsPerDay + 5)]

theorem threeEvents_complete :
    let detail := issueDetail listedPlan listedPlan twoIssues threeEvents
      (20513 * microsPerDay + 7) (issueTitled 5 ⟨py "a", rfl⟩).toIssue
    let stored := eventsOf threeEvents 1 3 5
    let today := utcDay (20513 * microsPerDay + 7)
    detail.occurrences.length = 14 ∧
      (∀ k : ℕ, k < 14 → detail.occurrences[k]? = some ⟨isoDate (today - 13 + k),
        stored.countP fun e => utcDay e.receivedAt = today - 13 + k⟩) ∧
      (detail.occurrences.map Occurrence.day).getLast? = some (isoDate today) ∧
      (detail.occurrences.map Occurrence.count).sum =
        stored.countP fun e => today - 13 ≤ utcDay e.receivedAt ∧ utcDay e.receivedAt ≤ today :=
  occurrences_complete listedPlan listedPlan twoIssues threeEvents (20513 * microsPerDay + 7) 1 3 5
    _ rfl

example : (zeroFillOccurrences (dailyCounts threeEvents (20500 * microsPerDay)) 20513 14).map
    Occurrence.count = [1, 0, 0, 0, 0, 0, 0, 0, 0, 0, 0, 0, 0, 1] := by decide +kernel

end Crashlens.Tenant.Detail
