import Crashlens.LockDiscipline
import Crashlens.Library.Serial

/-!
# What a delivery does to the tables when nothing runs in between

A `Bound` event has passed the pure half of the processor and fits its columns. `Bound.store` is the
abstract effect of storing it: one release at most, one issue row, one event row.
`serial_processEvent` connects it to the program: on its own a delivery stores exactly the bound
events that are new and have their project and their partition, and every other delivery leaves the
tables alone.
-/

namespace Crashlens

open Transactional

/-- The values the statements of one event bind. -/
structure Bound where
  projectId : ℕ
  seenAt : Timestamp
  fingerprint : Text
  title : Text
  eventId : ℕ
  level : Level
  environment : Text
  release : Option Text
  payload : Dict

def Bound.recorded (b : Bound) : Option Text := b.release.filter Text.nonempty

section Binding

variable (pg : Postgres) (rt : Runtime)

def Prepared.bound (prep : Prepared) : Option Bound := do
  let eventId ← uuidParam pg prep.eventId
  let fingerprint ← Text.ofPyStr? prep.fingerprint
  let title ← Text.ofPyStr? prep.title
  let level ← levelParam prep.level
  let environment ← textParam prep.environment
  let release ← nullableTextParam prep.release
  if (release.filter Text.nonempty).all pg.fitsIndex ∧ (Json.obj prep.payload).storable then
    some ⟨prep.projectId, prep.seenAt, fingerprint, title, eventId, level, environment, release,
      prep.payload⟩
  else none

def EventCall.bound (call : EventCall) : Option Bound :=
  match prepare rt call with
  | .ok prep => prep.bound pg
  | .error _ => none

end Binding

namespace Bound

variable (b : Bound) (now : Timestamp) (db : Db)

/-- The release row of the event, unless the version is known. -/
def releaseWrite : Option Release :=
  match b.recorded with
  | some v =>
    if db.releases.any fun r => r.key = (b.projectId, v) then none else some ⟨b.projectId, v, now⟩
  | none => none

def releaseWrites : WriteSet := { WriteSet.empty with release := b.releaseWrite now db }

/-- The project of the release or the issue that the event inserts is there. -/
def Referenced : Prop :=
  (b.releaseWrite now db).isSome = true ∨ findIssue db b.projectId b.fingerprint = none →
    b.projectId ∈ db.projects

/-- The tables with the event's release recorded. -/
def view : Db := (b.releaseWrites now db).apply db

def shouldRegress : Bool :=
  let fix := (findIssue db b.projectId b.fingerprint).bind Issue.resolvedInRelease
  decideRegression fix b.recorded
    (b.recorded.bind (releaseCreatedAt (b.view now db) b.projectId))
    ((fix.filter Text.nonempty).bind (releaseCreatedAt (b.view now db) b.projectId))

def params : UpsertIssue :=
  ⟨b.projectId, b.fingerprint, b.title, b.level, b.seenAt, b.shouldRegress now db, b.recorded⟩

def issueWrite : IssueWrite :=
  match findIssue db b.projectId b.fingerprint with
  | some old => .update old ((b.params now db).onConflict old)
  | none => .insert ((b.params now db).newRow db.nextId)

/-- What the upsert returns. -/
def row : UpsertRow :=
  match findIssue db b.projectId b.fingerprint with
  | some old =>
    let new := (b.params now db).onConflict old
    ⟨new.id, new.status, new.eventCount, false, some old.status⟩
  | none => ⟨db.nextId, .unresolved, 1, true, none⟩

def event : Event :=
  ⟨b.projectId, (b.row now db).id, b.eventId, b.seenAt, b.environment, b.release, b.level,
    b.payload⟩

/-- The pending rows before the event row. -/
def pending : WriteSet := ⟨some (b.issueWrite now db), b.releaseWrite now db, none, none⟩

def writes : WriteSet := { b.pending now db with event := some (b.event now db) }

/-- An inserted issue takes a fresh id. -/
def afterIds : Db :=
  match findIssue db b.projectId b.fingerprint with
  | some _ => db
  | none => { db with nextId := db.nextId + 1 }

def store : Db := (b.writes now db).apply (b.afterIds db)

end Bound

section Stored

variable (b : Bound) (now : Timestamp) (db : Db)

theorem afterIds_eq : b.afterIds db = { db with nextId := (b.afterIds db).nextId } := by
  unfold Bound.afterIds
  split <;> rfl

@[simp] theorem afterIds_issues : (b.afterIds db).issues = db.issues := by rw [afterIds_eq]

@[simp] theorem afterIds_releases : (b.afterIds db).releases = db.releases := by rw [afterIds_eq]

@[simp] theorem afterIds_events : (b.afterIds db).events = db.events := by rw [afterIds_eq]

@[simp] theorem afterIds_projects : (b.afterIds db).projects = db.projects := by rw [afterIds_eq]

@[simp] theorem afterIds_partitions : (b.afterIds db).partitions = db.partitions := by
  rw [afterIds_eq]

theorem store_issues : (b.store now db).issues = (b.issueWrite now db).apply db.issues := by
  rw [Bound.store, apply_issues_some rfl, afterIds_issues]

theorem store_releases :
    (b.store now db).releases = db.releases ++ (b.releaseWrite now db).toList := by
  rw [Bound.store, apply_releases, afterIds_releases]
  rfl

theorem store_events : (b.store now db).events = db.events ++ [b.event now db] := by
  rw [Bound.store, apply_events, afterIds_events]
  rfl

theorem store_projects : (b.store now db).projects = db.projects := afterIds_projects b db

theorem store_partitions : (b.store now db).partitions = db.partitions := afterIds_partitions b db

/-- An update finds the row it replaces, in its new version. -/
theorem find_apply_update {issues : List Issue} {P : Issue → Bool} {old new : Issue}
    (hold : issues.find? P = some old) (hnew : P new = true) :
    (IssueWrite.apply (.update old new) issues).find? P = some new := by
  induction issues with
  | nil => cases hold
  | cons r issues ih =>
      rw [IssueWrite.apply, List.map_cons]
      by_cases hid : r.id = old.id
      · rw [if_pos hid, List.find?_cons_of_pos hnew]
      · rw [if_neg hid]
        by_cases hr : P r = true
        · rw [List.find?_cons_of_pos hr] at hold
          exact absurd (Option.some.inj hold ▸ rfl) hid
        · rw [List.find?_cons_of_neg hr] at hold ⊢
          exact ih hold

theorem find_apply_insert {issues : List Issue} {P : Issue → Bool} {new : Issue}
    (hnone : issues.find? P = none) (hnew : P new = true) :
    (IssueWrite.apply (.insert new) issues).find? P = some new := by
  rw [IssueWrite.apply, List.find?_append, hnone, Option.none_or, List.find?_cons_of_pos hnew]

/-- The issue of a stored event. -/
theorem findIssue_store : findIssue (b.store now db) b.projectId b.fingerprint =
    some (match findIssue db b.projectId b.fingerprint with
      | some old => (b.params now db).onConflict old
      | none => (b.params now db).newRow db.nextId) := by
  rw [findIssue, store_issues, Bound.issueWrite]
  cases hrow : findIssue db b.projectId b.fingerprint with
  | some old =>
      have hkey : old.key = (b.projectId, b.fingerprint) := (findIssue_some hrow).2
      exact find_apply_update hrow (decide_eq_true hkey)
  | none =>
      have hnone : db.issues.find? (fun r => r.key = (b.projectId, b.fingerprint)) = none := hrow
      exact find_apply_insert hnone (decide_eq_true rfl)

/-- Storing an event adds one row under its key and none under any other. -/
theorem rowsOf_store (p eventId : ℕ) : (b.store now db).rowsOf p eventId =
    db.rowsOf p eventId + if p = b.projectId ∧ eventId = b.eventId then 1 else 0 := by
  rw [Db.rowsOf, store_events, List.countP_append, List.countP_singleton, Db.rowsOf]
  by_cases h : p = b.projectId ∧ eventId = b.eventId
  · obtain ⟨rfl, rfl⟩ := h
    simp [Bound.event]
  · have hne : ¬ (b.projectId = p ∧ b.eventId = eventId) := fun hh => h ⟨hh.1.symm, hh.2.symm⟩
    simp [Bound.event, h, hne]

variable {b now db}

theorem releaseWrite_some {r : Release} (h : b.releaseWrite now db = some r) :
    r = ⟨b.projectId, r.version, now⟩ ∧ b.recorded = some r.version ∧
      r.key ∉ db.releases.map Release.key := by
  unfold Bound.releaseWrite at h
  split at h
  · next v hv =>
      split_ifs at h with hknown
      cases h
      refine ⟨rfl, hv, fun hmem => hknown ?_⟩
      obtain ⟨r, hr, hkey⟩ := List.mem_map.mp hmem
      exact List.any_eq_true.mpr ⟨r, hr, decide_eq_true hkey⟩
  · cases h

theorem recorded_some {v : Text} : b.recorded = some v ↔ b.release = some v ∧ v.nonempty = true :=
  Option.filter_eq_some_iff

/-- The version an event records has a row, its own at the latest. -/
theorem recorded_row {v : Text} (h : b.recorded = some v) :
    ∃ t, ⟨b.projectId, v, t⟩ ∈ db.releases ++ (b.releaseWrite now db).toList ∧
      (⟨b.projectId, v, t⟩ ∈ db.releases ∨ t = now) := by
  by_cases hknown : (db.releases.any fun r => r.key = (b.projectId, v)) = true
  · obtain ⟨r, hr, hkey⟩ := List.any_eq_true.mp hknown
    obtain ⟨hp, hv⟩ := Prod.mk.inj (of_decide_eq_true hkey : r.key = (b.projectId, v))
    have hrow : ⟨b.projectId, v, r.createdAt⟩ ∈ db.releases := by
      rw [← hp, ← hv]
      exact hr
    exact ⟨r.createdAt, List.mem_append_left _ hrow, .inl hrow⟩
  · have hwrite : b.releaseWrite now db = some ⟨b.projectId, v, now⟩ := by
      simp only [Bound.releaseWrite, h]
      rw [if_neg hknown]
    exact ⟨now, List.mem_append_right _ (by rw [hwrite]; exact List.mem_singleton_self _), .inr rfl⟩

theorem afterIds_valid (hdb : db.Valid) : (b.afterIds db).Valid := by
  unfold Bound.afterIds
  split
  · exact hdb
  · exact ⟨hdb.keys, hdb.ids, fun r hr => Nat.lt_succ_of_lt (hdb.idsFresh r hr),
      fun e he => Nat.lt_succ_of_lt (hdb.eventIds e he), hdb.releaseKeys⟩

/-- The rows of a stored event fit the tables. -/
theorem writes_fits (hdb : db.Valid) : (b.writes now db).Fits (b.afterIds db) := by
  refine ⟨fun iw hiw => ?_, fun r hr => ?_, fun e he => ⟨b.issueWrite now db, rfl, ?_⟩⟩
  · cases hiw
    unfold Bound.issueWrite Bound.afterIds
    cases hrow : findIssue db b.projectId b.fingerprint with
    | some old => exact ⟨(findIssue_some hrow).1, rfl, rfl⟩
    | none =>
        refine ⟨findIssue_none hrow, fun hmem => ?_, Nat.lt_succ_self _, fun e he => ?_⟩
        · obtain ⟨r, hr, hid⟩ := List.mem_map.mp hmem
          exact absurd hid (Nat.ne_of_lt (hdb.idsFresh r hr))
        · exact Nat.ne_of_lt (hdb.eventIds e he)
  · rw [afterIds_releases]
    exact (releaseWrite_some hr).2.2
  · cases he
    unfold Bound.issueWrite Bound.event Bound.row
    cases findIssue db b.projectId b.fingerprint with
    | some old => rfl
    | none => rfl

theorem store_valid (hdb : db.Valid) : (b.store now db).Valid :=
  (writes_fits hdb).valid_apply (afterIds_valid hdb)

theorem view_valid (hdb : db.Valid) : (b.view now db).Valid := by
  have hfits : (b.releaseWrites now db).Fits db :=
    ⟨fun _ h => (by cases h), fun r hr => (releaseWrite_some hr).2.2, fun _ h => (by cases h)⟩
  exact hfits.valid_apply hdb

end Stored

/-! ## The statements of a bound event -/

section Statements

variable {pg : Postgres} {now : Timestamp} {db : Db}

abbrev TxRuns (pg : Postgres) (now : Timestamp) {α : Type} (p : Tx α) (w : WriteSet) (db : Db)
    (out : Except DbError α) (w' : WriteSet) (db' : Db) : Prop :=
  Runs (store pg) now p w db out w' db'

theorem runs_execute {q : Request} {r : Response q} {w w' : WriteSet} {db' : Db}
    (h : exec pg now db db w q = .ok (r, w', db')) :
    TxRuns pg now (execute q) w db (.ok r) w' db' := Runs.request h

theorem runs_createdAtOf (p : ℕ) (v : Option Text) (w : WriteSet) :
    TxRuns pg now (createdAtOf p v) w db (.ok (v.bind (releaseCreatedAt (w.apply db) p))) w db := by
  cases v with
  | none => exact .pure ..
  | some v => exact runs_execute rfl

theorem nullableTextParam_str {s : PyStr} {release : Option Text}
    (h : nullableTextParam (.str s) = some release) :
    ∃ v, textParam (.str s) = some v ∧ release = some v := by
  simp only [nullableTextParam, Option.map_eq_some_iff] at h
  obtain ⟨v, hv, rfl⟩ := h
  exact ⟨v, hv, rfl⟩

theorem nullableTextParam_of_not_string {v : Json} {bound : Option Text}
    (hstr : ∀ c cs, v = .str (c :: cs) → False) (h : nullableTextParam v = some bound) :
    bound.filter Text.nonempty = none := by
  cases v with
  | null =>
      cases h
      rfl
  | str s =>
      cases s with
      | nil =>
          cases h
          rfl
      | cons c cs => exact absurd rfl (hstr c cs)
  | _ => cases h

/-- A release string is recorded when it is not empty, and nothing else is. -/
theorem runs_recordRelease {p : ℕ} {release : Json} {bound : Option Text}
    (hbound : nullableTextParam release = some bound)
    (hfits : (bound.filter Text.nonempty).all pg.fitsIndex)
    (hproject : ∀ v, bound.filter Text.nonempty = some v →
      (db.releases.any fun r => r.key = (p, v)) = false → p ∈ db.projects) :
    TxRuns pg now (recordRelease p release) .empty db (.ok (bound.filter Text.nonempty))
      { WriteSet.empty with
        release := match bound.filter Text.nonempty with
          | some v => if db.releases.any fun r => r.key = (p, v) then none else some ⟨p, v, now⟩
          | none => none } db := by
  unfold recordRelease
  split
  · next c cs =>
      obtain ⟨v, hv, rfl⟩ := nullableTextParam_str hbound
      have hne : v.nonempty = true := textParam_nonempty hv
      have hrec : (some v).filter Text.nonempty = some v := by rw [Option.filter_some, if_pos hne]
      rw [hrec] at hfits ⊢
      have hfit : (!pg.fitsIndex v) = false := by simpa using hfits
      refine Runs.bind (Runs.ofOption_some hv _ _) (.answer (r := ()) ?_ (.pure ..))
      show exec pg now db db .empty (.upsertRelease p v) = _
      simp only [exec, hfit, apply_empty, Bool.false_eq_true, if_false]
      by_cases hknown : (db.releases.any fun r => r.key = (p, v)) = true
      · rw [if_pos hknown, if_pos hknown]
        rfl
      · have hthere := hproject v hrec (Bool.eq_false_of_not_eq_true hknown)
        rw [if_neg hknown, if_neg hknown, if_neg (not_not_intro hthere)]
  · next hstr =>
      rw [nullableTextParam_of_not_string hstr hbound]
      exact .pure ..

/-- A release of a project that is gone is rejected. -/
theorem runs_recordRelease_unreferenced {p : ℕ} {release : Json} {bound : Option Text} {v : Text}
    (hbound : nullableTextParam release = some bound) (hv : bound.filter Text.nonempty = some v)
    (hfits : pg.fitsIndex v = true) (hnew : (db.releases.any fun r => r.key = (p, v)) = false)
    (hproject : p ∉ db.projects) :
    TxRuns pg now (recordRelease p release) .empty db (.error .integrityError) .empty db := by
  unfold recordRelease
  split
  · next c cs =>
      obtain ⟨v', hv', rfl⟩ := nullableTextParam_str hbound
      obtain rfl : v' = v := Option.some.inj (Option.filter_eq_some_iff.mp hv).1
      refine Runs.bind (Runs.ofOption_some hv' _ _) (.reject ?_)
      show exec pg now db db .empty (.upsertRelease p v') = _
      simp only [exec, hfits, apply_empty, hnew, Bool.not_true, Bool.false_eq_true, if_false]
      exact if_pos hproject
  · next hstr =>
      rw [nullableTextParam_of_not_string hstr hbound] at hv
      cases hv

/-- A release pending alone hides no issue. -/
theorem findIssue_view (b : Bound) (p : ℕ) (f : Text) :
    findIssue (b.view now db) p f = findIssue db p f := rfl

theorem runs_decideShouldRegress {prep : Prepared} {b : Bound}
    (hp : prep.projectId = b.projectId) (hrel : nullableTextParam prep.release = some b.release)
    (hfits : b.recorded.all pg.fitsIndex)
    (hrefs : (b.releaseWrite now db).isSome = true → b.projectId ∈ db.projects) :
    TxRuns pg now (decideShouldRegress prep b.fingerprint) .empty db
      (.ok (b.recorded, b.shouldRegress now db))
      (b.releaseWrites now db) db := by
  unfold decideShouldRegress
  have hfix : fixRelease ((findIssue (b.view now db) b.projectId b.fingerprint).map fun r =>
      (r.status, r.resolvedInRelease)) =
      (findIssue db b.projectId b.fingerprint).bind Issue.resolvedInRelease := by
    rw [findIssue_view]
    cases findIssue db b.projectId b.fingerprint <;> rfl
  have hproject (v : Text) (hv : b.recorded = some v)
      (hnew : (db.releases.any fun r => r.key = (b.projectId, v)) = false) :
      b.projectId ∈ db.projects := by
    refine hrefs ?_
    simp only [Bound.releaseWrite, hv, hnew, Bool.false_eq_true, if_false, Option.isSome_some]
  rw [hp]
  refine Runs.bind (runs_recordRelease hrel hfits hproject) (Runs.bind (runs_execute rfl) ?_)
  refine Runs.bind (runs_createdAtOf b.projectId b.recorded _) ?_
  refine Runs.bind (runs_createdAtOf b.projectId _ _) ?_
  have hshould := congrArg (fun fix => decideRegression fix b.recorded
    (b.recorded.bind (releaseCreatedAt (b.view now db) b.projectId))
    ((fix.filter Text.nonempty).bind (releaseCreatedAt (b.view now db) b.projectId))) hfix
  rw [show b.shouldRegress now db = _ from hshould.symm]
  exact .pure ..

/-- The event passed the pure half and fits its columns. -/
structure Prepared.Binds (pg : Postgres) (prep : Prepared) (b : Bound) : Prop where
  projectId : prep.projectId = b.projectId
  seenAt : prep.seenAt = b.seenAt
  eventId : uuidParam pg prep.eventId = some b.eventId
  fingerprint : Text.ofPyStr? prep.fingerprint = some b.fingerprint
  title : Text.ofPyStr? prep.title = some b.title
  level : levelParam prep.level = some b.level
  environment : textParam prep.environment = some b.environment
  release : nullableTextParam prep.release = some b.release
  fits : b.recorded.all pg.fitsIndex
  storable : (Json.obj prep.payload).storable = true
  payload : prep.payload = b.payload

theorem Prepared.bound_eq_some {prep : Prepared} {b : Bound} :
    prep.bound pg = some b ↔ prep.Binds pg b := by
  simp only [Prepared.bound, Option.bind_eq_bind, Option.bind_eq_some_iff]
  constructor
  · rintro ⟨eventId, hid, fingerprint, hf, title, ht, level, hl, environment, he, release, hr, hb⟩
    split_ifs at hb with hfits
    cases hb
    exact ⟨rfl, rfl, hid, hf, ht, hl, he, hr, hfits.1, hfits.2, rfl⟩
  · rintro ⟨hp, hs, hid, hf, ht, hl, he, hr, hfits, hst, hpay⟩
    refine ⟨_, hid, _, hf, _, ht, _, hl, _, he, _, hr, ?_⟩
    rw [if_pos ⟨hfits, hst⟩, hp, hs, hpay]

theorem runs_bindLevel {v : Json} {l : Level} (h : levelParam v = some l) (w : WriteSet) :
    TxRuns pg now (bindLevel v) w db (.ok l) w db := by
  unfold bindLevel
  split
  · exact Runs.ofOption_some h w db
  · exact Runs.ofOption_some h w db

theorem runs_bindPayload {payload : Dict} (h : (Json.obj payload).storable = true) (w : WriteSet) :
    TxRuns pg now (bindPayload payload) w db (.ok payload) w db := by
  rw [bindPayload, if_pos h]
  exact .pure ..

theorem runs_upsertIssue (b : Bound) (hrefs : b.Referenced now db) :
    TxRuns pg now (execute (.upsertIssue (b.params now db))) (b.releaseWrites now db) db
      (.ok (b.row now db)) (b.pending now db) (b.afterIds db) := by
  apply runs_execute
  have hview : findIssue (b.view now db) (b.params now db).projectId (b.params now db).fingerprint =
      findIssue db b.projectId b.fingerprint := rfl
  have hprior (id : ℕ) : (b.params now db).prior (b.view now db) id =
      ((findIssue db b.projectId b.fingerprint).filter fun r => r.id = id).map Issue.status := rfl
  have happly : (b.releaseWrites now db).apply db = b.view now db := rfl
  simp only [exec, happly, hview, hprior, Bound.row, Bound.pending, Bound.issueWrite,
    Bound.afterIds]
  cases hissue : findIssue db b.projectId b.fingerprint with
  | some old =>
      have hself : (some old).filter (fun r => r.id = ((b.params now db).onConflict old).id) =
          some old := by simp
      dsimp only
      rw [hself]
      rfl
  | none =>
      have hproject : b.projectId ∈ db.projects := hrefs (.inr hissue)
      exact if_neg (not_not_intro hproject)

/-- A new issue of a project that is gone is rejected. -/
theorem runs_upsertIssue_unreferenced (b : Bound)
    (hnew : findIssue db b.projectId b.fingerprint = none) (hproject : b.projectId ∉ db.projects) :
    TxRuns pg now (execute (.upsertIssue (b.params now db))) (b.releaseWrites now db) db
      (.error .integrityError) (b.releaseWrites now db) db := by
  have hview : findIssue (b.view now db) (b.params now db).projectId (b.params now db).fingerprint =
      none := hnew
  have happly : (b.releaseWrites now db).apply db = b.view now db := rfl
  have hreject : exec pg now db db (b.releaseWrites now db) (.upsertIssue (b.params now db)) =
      .error .integrityError := by
    simp only [exec, happly, hview]
    exact if_pos hproject
  exact .reject hreject

theorem runs_insertEvent (b : Bound) (hday : utcDay b.seenAt ∈ db.partitions)
    (hnew : db.rowsOf b.projectId b.eventId = 0) :
    TxRuns pg now (execute (.insertEvent (b.event now db)))
      (b.pending now db) (b.afterIds db) (.ok ()) (b.writes now db) (b.afterIds db) := by
  apply runs_execute
  have hevents (w : WriteSet) (hw : w.event = none) :
      (w.apply (b.afterIds db)).events = db.events := by
    rw [apply_events, hw, Option.toList_none, List.append_nil, afterIds_events]
  have hkey : (db.events.any fun e => e.key = (b.event now db).key) = false := by
    have hnone := rowsOf_eq_zero_iff.mp hnew
    rw [List.any_eq_false] at hnone ⊢
    intro e he heq
    refine hnone e he (decide_eq_true ?_)
    have hk : e.key = (b.projectId, b.eventId, b.seenAt) := of_decide_eq_true heq
    exact ⟨congrArg Prod.fst hk, congrArg (fun k => k.2.1) hk⟩
  have hmem : ¬ utcDay (b.event now db).receivedAt ∉ (b.afterIds db).partitions := by
    rw [afterIds_partitions]
    exact not_not_intro hday
  simp only [exec]
  rw [if_neg hmem, hevents _ rfl, hkey]
  rfl

/-- A day without a partition rejects its events. -/
theorem runs_insertEvent_unpartitioned (b : Bound) (hday : utcDay b.seenAt ∉ db.partitions) :
    TxRuns pg now (execute (.insertEvent (b.event now db)))
      (b.pending now db) (b.afterIds db) (.error .integrityError) (b.pending now db)
      (b.afterIds db) := by
  have hmem : utcDay (b.event now db).receivedAt ∉ (b.afterIds db).partitions := by
    rw [afterIds_partitions]
    exact hday
  have hreject : exec pg now (b.afterIds db) (b.afterIds db) (b.pending now db)
      (.insertEvent (b.event now db)) = .error .integrityError := by
    simp only [exec, if_pos hmem]
  exact .reject hreject

/-- Up to the insertion of the event row, whichever way that goes. -/
theorem runs_storeEvent {prep : Prepared} {b : Bound} (hb : prep.Binds pg b)
    (hrefs : b.Referenced now db) {out : Except DbError Unit} {w' : WriteSet} {db' : Db}
    (hinsert : TxRuns pg now (execute (.insertEvent (b.event now db)))
      (b.pending now db) (b.afterIds db) out w' db') :
    TxRuns pg now (storeEvent prep b.fingerprint b.eventId b.recorded (b.shouldRegress now db))
      (b.releaseWrites now db) db (out.map fun _ => eventResult (b.row now db) b.recorded) w'
      db' := by
  unfold storeEvent
  rw [hb.projectId, hb.seenAt]
  have htitle : textParam (.str prep.title) = some b.title := hb.title
  refine Runs.bind (Runs.ofOption_some htitle _ _) ?_
  refine Runs.bind (runs_bindLevel hb.level _) ?_
  refine Runs.bind (runs_upsertIssue b hrefs) ?_
  refine Runs.bind (Runs.ofOption_some hb.environment _ _) ?_
  refine Runs.bind (Runs.ofOption_some hb.release _ _) ?_
  refine Runs.bind (runs_bindPayload hb.storable _) ?_
  rw [hb.payload]
  exact hinsert.map _

theorem runs_dedupeEvent (pg : Postgres) (now : Timestamp) (db : Db) (p eventId : ℕ) :
    TxRuns pg now (execute (.dedupeEvent p eventId)) .empty db
      (.ok (decide (db.rowsOf p eventId ≠ 0))) .empty db := by
  apply runs_execute
  have hany : (db.events.any fun e => e.projectId = p ∧ e.eventId = eventId) =
      decide (db.rowsOf p eventId ≠ 0) := by
    by_cases hzero : db.rowsOf p eventId = 0
    · rw [rowsOf_eq_zero_iff.mp hzero, hzero]
      rfl
    · rw [decide_eq_true hzero, ← Bool.not_eq_false]
      exact fun h => hzero (rowsOf_eq_zero_iff.mpr h)
  simp only [exec, apply_empty, hany]

theorem runs_processPrepared {prep : Prepared} {b : Bound} (hb : prep.Binds pg b)
    (hnew : db.rowsOf b.projectId b.eventId = 0) (hrefs : b.Referenced now db)
    {out : Except DbError Unit} {w' : WriteSet} {db' : Db}
    (hinsert : TxRuns pg now (execute (.insertEvent (b.event now db)))
      (b.pending now db) (b.afterIds db) out w' db') :
    TxRuns pg now (processPrepared pg prep) .empty db
      ((out.map fun _ => eventResult (b.row now db) b.recorded).map .stored) w' db' := by
  have hdedupe : TxRuns pg now (execute (.dedupeEvent prep.projectId b.eventId)) .empty db
      (.ok false) .empty db := by
    have h := runs_dedupeEvent pg now db b.projectId b.eventId
    rwa [hnew, ← hb.projectId] at h
  have hfingerprint : textParam (.str prep.fingerprint) = some b.fingerprint := hb.fingerprint
  refine Runs.bind (Runs.ofOption_some hb.eventId _ _) (Runs.bind hdedupe ?_)
  refine Runs.bind (Runs.ofOption_some hfingerprint _ _) ?_
  refine Runs.bind (runs_decideShouldRegress hb.projectId hb.release hb.fits fun h =>
    hrefs (.inl h)) ?_
  exact (runs_storeEvent hb hrefs hinsert).map _

theorem runs_storeEvent_unreferenced (now : Timestamp) {prep : Prepared} {b : Bound}
    (hb : prep.Binds pg b) (hnew : findIssue db b.projectId b.fingerprint = none)
    (hproject : b.projectId ∉ db.projects) :
    TxRuns pg now (storeEvent prep b.fingerprint b.eventId b.recorded (b.shouldRegress now db))
      (b.releaseWrites now db) db (.error .integrityError) (b.releaseWrites now db) db := by
  unfold storeEvent
  rw [hb.projectId, hb.seenAt]
  have htitle : textParam (.str prep.title) = some b.title := hb.title
  refine Runs.bind (Runs.ofOption_some htitle _ _) ?_
  refine Runs.bind (runs_bindLevel hb.level _) ?_
  exact Runs.bind_error (runs_upsertIssue_unreferenced b hnew hproject)

/-- An event that refers to a project that is gone is rejected. -/
theorem runs_processPrepared_unreferenced {prep : Prepared} {b : Bound} (hb : prep.Binds pg b)
    (hnew : db.rowsOf b.projectId b.eventId = 0) (hrefs : ¬ b.Referenced now db) :
    TxRuns pg now (processPrepared pg prep) .empty db (.error .integrityError) .empty db := by
  obtain ⟨hinserts, hproject⟩ := Classical.not_imp.mp hrefs
  have hdedupe : TxRuns pg now (execute (.dedupeEvent prep.projectId b.eventId)) .empty db
      (.ok false) .empty db := by
    have h := runs_dedupeEvent pg now db b.projectId b.eventId
    rwa [hnew, ← hb.projectId] at h
  have hfingerprint : textParam (.str prep.fingerprint) = some b.fingerprint := hb.fingerprint
  refine Runs.bind (Runs.ofOption_some hb.eventId _ _) (Runs.bind hdedupe ?_)
  refine Runs.bind (Runs.ofOption_some hfingerprint _ _) ?_
  cases hwrite : b.releaseWrite now db with
  | some row =>
      have hversion : b.recorded = some row.version := (releaseWrite_some hwrite).2.1
      have hunknown : (db.releases.any fun r => r.key = (b.projectId, row.version)) = false := by
        rw [Bound.releaseWrite, hversion] at hwrite
        exact Bool.eq_false_of_not_eq_true (Option.ite_none_left_eq_some.mp hwrite).1
      have hfits : pg.fitsIndex row.version = true := by
        have h := hb.fits
        rwa [hversion] at h
      refine Runs.bind_error (Runs.bind_error ?_)
      rw [hb.projectId]
      exact runs_recordRelease_unreferenced hb.release hversion hfits hunknown hproject
  | none =>
      rw [hwrite] at hinserts
      have hissue : findIssue db b.projectId b.fingerprint = none :=
        hinserts.resolve_left Bool.false_ne_true
      have hnothing : b.releaseWrites now db = .empty := by
        rw [Bound.releaseWrites, hwrite]
        rfl
      have hdecide := runs_decideShouldRegress hb.projectId hb.release hb.fits
        fun h => by rw [hwrite] at h; cases h
      have hstore := runs_storeEvent_unreferenced now hb hissue hproject
      rw [hnothing] at hdecide hstore
      exact Runs.bind hdecide (Runs.bind_error hstore)

theorem runs_processPrepared_repeat (now : Timestamp) {prep : Prepared} {eventId : ℕ}
    (hid : uuidParam pg prep.eventId = some eventId)
    (hstored : db.rowsOf prep.projectId eventId ≠ 0) :
    TxRuns pg now (processPrepared pg prep) .empty db (.ok .duplicate) .empty db := by
  have hdedupe : TxRuns pg now (execute (.dedupeEvent prep.projectId eventId)) .empty db
      (.ok true) .empty db := by
    have h := runs_dedupeEvent pg now db prep.projectId eventId
    rwa [decide_eq_true hstored] at h
  exact Runs.bind (Runs.ofOption_some hid _ _) (Runs.bind hdedupe (.pure ..))

end Statements

/-! ## A delivery on its own -/

section Serial

variable {pg : Postgres} {rt : Runtime} {call : EventCall} {now : Timestamp} {db : Db}

theorem processEvent_ok {prep : Prepared} (h : prepare rt call = .ok prep) :
    processEvent pg rt call = processPrepared pg prep := by
  unfold processEvent
  rw [h]

theorem processEvent_error {e : PyError} (h : prepare rt call = .error e) :
    processEvent pg rt call = .pure .poison := by
  unfold processEvent
  rw [h]

/-- A poison event leaves everything as it was. -/
theorem serial_poison {e : PyError} (h : prepare rt call = .error e) :
    (store pg).serial (processEvent pg rt call) now db = (.ok .poison, db) := by
  have hruns : TxRuns pg now (processEvent pg rt call) .empty db (.ok .poison) .empty db := by
    rw [processEvent_error h]
    exact .pure ..
  have hserial := hruns.serial_ok
  rwa [show (store pg).merge .empty db = db from apply_empty] at hserial

theorem bound_eq_some {b : Bound} (h : call.bound pg rt = some b) :
    ∃ prep, prepare rt call = .ok prep ∧ prep.Binds pg b := by
  unfold EventCall.bound at h
  split at h
  · next prep hprep => exact ⟨prep, hprep, Prepared.bound_eq_some.mp h⟩
  · cases h

theorem bound_of_prepare {prep : Prepared} {b : Bound} (hprep : prepare rt call = .ok prep)
    (hb : prep.Binds pg b) : call.bound pg rt = some b := by
  unfold EventCall.bound
  rw [hprep]
  exact Prepared.bound_eq_some.mpr hb

theorem bound_call {b : Bound} (h : call.bound pg rt = some b) :
    b.projectId = call.projectId ∧ b.seenAt = call.seenAt := by
  obtain ⟨prep, hprep, hbinds⟩ := bound_eq_some h
  obtain ⟨_, _, _, _, _, -, -, -, -, -, -, rfl⟩ := prepare_ok_iff.mp hprep
  exact ⟨hbinds.projectId.symm, hbinds.seenAt.symm⟩

theorem bound_payload {b : Bound} (h : call.bound pg rt = some b) :
    b.payload = symbolicated rt call := by
  obtain ⟨prep, hprep, hbinds⟩ := bound_eq_some h
  obtain ⟨_, _, _, _, _, -, -, -, -, -, -, rfl⟩ := prepare_ok_iff.mp hprep
  exact hbinds.payload.symm

theorem bound_eventKey {b : Bound} (h : call.bound pg rt = some b) :
    call.eventKey pg = some (b.projectId, b.eventId) := by
  obtain ⟨prep, hprep, hbinds⟩ := bound_eq_some h
  rw [(prepare_eventKey hprep hbinds.eventId).2, hbinds.projectId]

/-- A bound event that is new and has its project and its partition is stored. -/
theorem serial_stored {b : Bound} (hb : call.bound pg rt = some b) (hrefs : b.Referenced now db)
    (hday : utcDay b.seenAt ∈ db.partitions) (hnew : db.rowsOf b.projectId b.eventId = 0) :
    (store pg).serial (processEvent pg rt call) now db =
      (.ok (.stored (eventResult (b.row now db) b.recorded)), b.store now db) := by
  obtain ⟨prep, hprep, hbinds⟩ := bound_eq_some hb
  rw [processEvent_ok hprep]
  exact (runs_processPrepared hbinds hnew hrefs (runs_insertEvent b hday hnew)).serial_ok

theorem serial_unpartitioned {b : Bound} (hb : call.bound pg rt = some b)
    (hrefs : b.Referenced now db) (hday : utcDay b.seenAt ∉ db.partitions)
    (hnew : db.rowsOf b.projectId b.eventId = 0) :
    (store pg).serial (processEvent pg rt call) now db =
      (.error .integrityError, b.afterIds db) := by
  obtain ⟨prep, hprep, hbinds⟩ := bound_eq_some hb
  rw [processEvent_ok hprep]
  exact (runs_processPrepared hbinds hnew hrefs
    (runs_insertEvent_unpartitioned b hday)).serial_error

theorem serial_unreferenced {b : Bound} (hb : call.bound pg rt = some b)
    (hrefs : ¬ b.Referenced now db) (hnew : db.rowsOf b.projectId b.eventId = 0) :
    (store pg).serial (processEvent pg rt call) now db = (.error .integrityError, db) := by
  obtain ⟨prep, hprep, hbinds⟩ := bound_eq_some hb
  rw [processEvent_ok hprep]
  exact (runs_processPrepared_unreferenced hbinds hnew hrefs).serial_error

/-- A delivery whose key is stored already leaves everything as it was. -/
theorem serial_repeat {p eventId : ℕ} (hkey : call.eventKey pg = some (p, eventId))
    (hstored : db.rowsOf p eventId ≠ 0) :
    ((store pg).serial (processEvent pg rt call) now db).2 = db := by
  cases hprep : prepare rt call with
  | error e => rw [serial_poison hprep]
  | ok prep =>
      have hparts := prepare_ok_iff.mp hprep
      obtain ⟨fingerprint, title, idJson, level, environment, -, -, -, hitem, -, -, rfl⟩ := hparts
      rw [EventCall.eventKey, Dict.get_of_item hitem, Option.map_eq_some_iff] at hkey
      obtain ⟨id, hid, hpair⟩ := hkey
      obtain ⟨rfl, rfl⟩ := Prod.mk.inj hpair
      rw [processEvent_ok hprep, (runs_processPrepared_repeat now hid hstored).serial_ok]
      exact apply_empty

/-- A program returns only values of the given kind, whatever it is answered. -/
def Returns (pg : Postgres) {α : Type} (p : Tx α) (post : α → Prop) : Prop :=
  ∀ s, p.wp (store pg).Answers (fun _ _ => True) (fun a _ => post a) s

theorem Returns.pure {α : Type} {a : α} {post : α → Prop} (h : post a) :
    Returns pg (.pure a) post := fun _ => h

theorem Returns.bind {α β : Type} {p : Tx α} {f : α → Tx β} {mid : α → Prop} {post : β → Prop}
    (hp : Returns pg p mid) (hf : ∀ a, mid a → Returns pg (f a) post) :
    Returns pg (p.bind f) post :=
  fun s => Program.wp_bind.mpr (Program.wp_mono (fun a s' ha => hf a ha s') (hp s))

theorem Returns.ofOption {α : Type} (e : DbError) (x : Option α) :
    Returns pg (.ofOption e x) (fun a => x = some a) := fun _ => wp_ofOption.mpr fun _ h => h

theorem Returns.execute (q : Request) : Returns pg (execute q) (fun _ => True) :=
  fun _ => wp_execute trivial fun _ _ _ => trivial

theorem returns_bindLevel (v : Json) :
    Returns pg (bindLevel v) (fun l => levelParam v = some l) := by
  unfold bindLevel
  split
  · exact .ofOption _ _
  · exact .ofOption _ _

theorem returns_bindPayload (payload : Dict) :
    Returns pg (bindPayload payload) (fun _ => (Json.obj payload).storable = true) := by
  unfold bindPayload
  split
  · next h => exact .pure h
  · exact fun _ => trivial

theorem returns_upsertRelease (p : ℕ) (v : Text) :
    Returns pg (Crashlens.execute (.upsertRelease p v)) (fun _ => pg.fitsIndex v = true) := by
  refine fun s => wp_execute trivial fun r s' hr => ?_
  obtain ⟨snap, db₀, d, db', he, -⟩ := hr
  by_contra hno
  have hreject : (!pg.fitsIndex v) = true := by simpa using hno
  simp only [store, exec, hreject, if_true] at he
  cases he

theorem returns_recordRelease (p : ℕ) (release : Json) :
    Returns pg (recordRelease p release) (fun _ => ∀ bound, nullableTextParam release = some bound →
      (bound.filter Text.nonempty).all pg.fitsIndex) := by
  unfold recordRelease
  split
  · next c cs =>
      refine Returns.bind (.ofOption _ _) fun v hv => ?_
      refine Returns.bind (returns_upsertRelease p v) fun _ hfit => .pure fun bound hbound => ?_
      obtain ⟨v', hv', rfl⟩ := nullableTextParam_str hbound
      obtain rfl : v = v' := Option.some.inj (hv.symm.trans hv')
      rw [Option.filter_some, if_pos (textParam_nonempty hv)]
      exact hfit
  · next hstr =>
      refine .pure fun bound hbound => ?_
      rw [nullableTextParam_of_not_string hstr hbound]
      rfl

theorem returns_createdAtOf (p : ℕ) (v : Option Text) :
    Returns pg (createdAtOf p v) (fun _ => True) := by
  cases v with
  | none => exact .pure trivial
  | some v => exact .execute _

theorem returns_decideShouldRegress (prep : Prepared) (fingerprint : Text) :
    Returns pg (decideShouldRegress prep fingerprint) (fun _ => ∀ bound,
      nullableTextParam prep.release = some bound →
        (bound.filter Text.nonempty).all pg.fitsIndex) := by
  unfold decideShouldRegress
  refine Returns.bind (returns_recordRelease _ _) fun _ hfits => ?_
  refine Returns.bind (.execute _) fun _ _ => ?_
  refine Returns.bind (returns_createdAtOf _ _) fun _ _ => ?_
  exact Returns.bind (returns_createdAtOf _ _) fun _ _ => .pure hfits

theorem returns_storeEvent {prep : Prepared} {fingerprint : Text} {eventId : ℕ}
    (hid : uuidParam pg prep.eventId = some eventId)
    (hfingerprint : Text.ofPyStr? prep.fingerprint = some fingerprint)
    (hfits : ∀ bound, nullableTextParam prep.release = some bound →
      (bound.filter Text.nonempty).all pg.fitsIndex)
    (eventRelease : Option Text) (shouldRegress : Bool) :
    Returns pg (storeEvent prep fingerprint eventId eventRelease shouldRegress)
      (fun _ => ∃ b, prep.Binds pg b) := by
  unfold storeEvent
  refine Returns.bind (.ofOption _ _) fun title htitle => ?_
  refine Returns.bind (returns_bindLevel _) fun level hlevel => ?_
  refine Returns.bind (.execute _) fun row _ => ?_
  refine Returns.bind (.ofOption _ _) fun environment henvironment => ?_
  refine Returns.bind (.ofOption _ _) fun release hrelease => ?_
  refine Returns.bind (returns_bindPayload _) fun payload hstorable => ?_
  refine Returns.bind (.execute _) fun _ _ => .pure ?_
  let b : Bound := ⟨prep.projectId, prep.seenAt, fingerprint, title, eventId, level,
    environment, release, prep.payload⟩
  exact ⟨b, rfl, rfl, hid, hfingerprint, htitle, hlevel, henvironment, hrelease,
    hfits release hrelease, hstorable, rfl⟩

/-- What the program has bound when it returns a stored event. -/
theorem returns_processPrepared (prep : Prepared) :
    Returns pg (processPrepared pg prep) (fun o => ∀ r, o = .stored r → ∃ b, prep.Binds pg b) := by
  unfold processPrepared
  refine Returns.bind (.ofOption _ _) fun eventId hid => ?_
  refine Returns.bind (.execute _) fun dup _ => ?_
  cases dup with
  | true => exact .pure fun r hr => by cases hr
  | false =>
      refine Returns.bind (.ofOption _ _) fun fingerprint hfingerprint => ?_
      refine Returns.bind (returns_decideShouldRegress _ _) fun (eventRelease, regress) h => ?_
      exact Returns.bind (returns_storeEvent hid hfingerprint h eventRelease regress)
        fun r hb => .pure fun _ _ => hb

/-- The tables are as they were; at most an id has been handed out. -/
def Db.SameTables (db db' : Db) : Prop := ∃ n, db.nextId ≤ n ∧ db' = { db with nextId := n }

theorem Db.SameTables.refl (db : Db) : db.SameTables db := ⟨db.nextId, le_rfl, rfl⟩

theorem exec_sameTables {s : Session} {q : Request}
    {r : Response q} {d : WriteSet} {c c' : Db} (he : exec pg s.now c c s.writes q = .ok (r, d, c'))
    (hc : db.SameTables c) : db.SameTables c' := by
  obtain ⟨-, -, -, rfl⟩ | ⟨-, -, -, -, -, rfl⟩ | ⟨-, -, -, -, rfl⟩ | ⟨-, -, -, -, -, -, rfl⟩ |
    ⟨-, -, -, rfl⟩ := executes_cases (t := s.after q r d) ⟨r, d, he, rfl⟩
  · exact hc
  · exact hc
  · obtain ⟨n, hn, rfl⟩ := hc
    exact ⟨n + 1, by omega, rfl⟩
  · exact hc
  · exact hc

theorem eval_sameTables {α : Type} {p : Tx α} {s s' : Session}
    {out : Except DbError α} {db' : Db}
    (h : p.eval (store pg).handler (s, db) = (out, (s', db'))) : db.SameTables db' :=
  Store.eval_invariant (fun _ _ _ _ _ _ he hc => exec_sameTables he hc) h (Db.SameTables.refl db)

/-- On its own a delivery stores a bound event that is new and has its project and its partition,
and every other delivery leaves the tables as they were. -/
theorem serial_processEvent (pg : Postgres) (rt : Runtime) (call : EventCall) (now : Timestamp)
    (db : Db) :
    (∃ b, call.bound pg rt = some b ∧ b.Referenced now db ∧ utcDay b.seenAt ∈ db.partitions ∧
      db.rowsOf b.projectId b.eventId = 0 ∧
      (store pg).serial (processEvent pg rt call) now db =
        (.ok (.stored (eventResult (b.row now db) b.recorded)), b.store now db)) ∨
    ((∀ r, ((store pg).serial (processEvent pg rt call) now db).1 ≠ .ok (.stored r)) ∧
      db.SameTables ((store pg).serial (processEvent pg rt call) now db).2) := by
  by_cases hstores : ∃ b, call.bound pg rt = some b ∧ b.Referenced now db ∧
      utcDay b.seenAt ∈ db.partitions ∧ db.rowsOf b.projectId b.eventId = 0
  · obtain ⟨b, hb, hrefs, hday, hnew⟩ := hstores
    exact .inl ⟨b, hb, hrefs, hday, hnew, serial_stored hb hrefs hday hnew⟩
  · right
    have hnot : ∀ r, ((store pg).serial (processEvent pg rt call) now db).1 ≠ .ok (.stored r) := by
      intro r hr
      cases hprep : prepare rt call with
      | error e =>
          rw [serial_poison hprep] at hr
          cases hr
      | ok prep =>
          obtain ⟨s, db₁, hpost, -, -⟩ := Store.serial_post (returns_processPrepared prep _)
            (show (store pg).serial (processPrepared pg prep) now db = (.ok (.stored r), _) from
              Prod.ext (processEvent_ok hprep ▸ hr) rfl)
          obtain ⟨b, hb⟩ := hpost r rfl
          have hbound : call.bound pg rt = some b := bound_of_prepare hprep hb
          by_cases hnew : db.rowsOf b.projectId b.eventId = 0
          · by_cases hrefs : b.Referenced now db
            · by_cases hday : utcDay b.seenAt ∈ db.partitions
              · exact hstores ⟨b, hbound, hrefs, hday, hnew⟩
              · rw [serial_unpartitioned hbound hrefs hday hnew] at hr
                cases hr
            · rw [serial_unreferenced hbound hrefs hnew] at hr
              cases hr
          · have hrepeat := runs_processPrepared_repeat now hb.eventId
              (hb.projectId ▸ hnew)
            rw [processEvent_ok hprep, hrepeat.serial_ok] at hr
            cases hr
    refine ⟨hnot, ?_⟩
    match hserial : (store pg).serial (processEvent pg rt call) now db with
    | (.error e, db') =>
        obtain ⟨s, he⟩ := Store.serial_error_cases hserial
        exact eval_sameTables he
    | (.ok o, db') =>
        obtain ⟨s, db₁, hpost, he, hdb⟩ := Store.serial_post (processEvent_spec rt call now) hserial
        have hempty : s.writes = .empty := by
          cases o with
          | poison => exact hpost.1
          | duplicate => exact hpost.1
          | stored r => exact absurd (congrArg Prod.fst hserial) (hnot r)
        rw [hempty, show (store pg).merge .empty db₁ = db₁ from apply_empty] at hdb
        exact hdb ▸ eval_sameTables he

end Serial

end Crashlens
