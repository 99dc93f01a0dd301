import Crashlens.LockDiscipline
import Mathlib.Data.List.MinMax
import Mathlib.Order.Lattice

/-!
# The counters of an issue agree with its events

`Issue.Balanced` says that `event_count` and `last_seen` of an issue are what its event rows add up
to. Every commit of every job keeps all issues of a project balanced, so they are balanced in every
committed state that transactions reach from an empty project.
-/

namespace Crashlens

open Transactional

/-- The event rows carrying an issue id. -/
def Db.eventsOf (db : Db) (issueId : ℕ) : List Event :=
  db.events.filter fun e => e.issueId = issueId

/-- `event_count` is the number of event rows and `last_seen` the greatest `received_at`. -/
structure Issue.Balanced (db : Db) (r : Issue) : Prop where
  count : r.eventCount = (db.eventsOf r.id).length
  lastSeen : ((db.eventsOf r.id).map Event.receivedAt).max? = some r.lastSeen

theorem Db.Valid.keyed_length_le_one {db : Db} (h : db.Valid) (k : ℕ × Text) :
    (db.issues.filter fun r => r.key = k).length ≤ 1 := by
  have hsub : (db.issues.filter fun r => r.key = k).Sublist db.issues := List.filter_sublist
  have hnodup := h.keys.sublist (hsub.map Issue.key)
  have hall : (db.issues.filter fun r => r.key = k).map Issue.key =
      List.replicate (db.issues.filter fun r => r.key = k).length k := by
    rw [List.eq_replicate_iff]
    refine ⟨List.length_map .., fun k' hk' => ?_⟩
    obtain ⟨r, hr, rfl⟩ := List.mem_map.mp hk'
    simpa using List.of_mem_filter hr
  rw [hall] at hnodup
  exact List.nodup_replicate.mp hnodup

theorem max?_append_singleton {l : List Timestamp} {m x : Timestamp} (h : l.max? = some m) :
    (l ++ [x]).max? = some (max m x) := by
  rw [List.max?_eq_some_iff] at h ⊢
  obtain ⟨hm, hle⟩ := h
  constructor
  · by_cases hmx : m ≤ x
    · rw [max_eq_right hmx]
      simp
    · rw [max_eq_left (le_of_not_ge hmx)]
      exact List.mem_append_left _ hm
  · intro y hy
    rw [List.mem_append, List.mem_singleton] at hy
    obtain hy | rfl := hy
    · exact le_max_of_le_left (hle y hy)
    · exact le_max_right m y

section Commit

variable {db : Db} {w : WriteSet}

theorem eventsOf_apply (id : ℕ) :
    (w.apply db).eventsOf id = db.eventsOf id ++ w.event.toList.filter fun e => e.issueId = id := by
  rw [Db.eventsOf, apply_events, List.filter_append]
  rfl

theorem eventsOf_apply_of_ne {id : ℕ} (h : ∀ e, w.event = some e → e.issueId ≠ id) :
    (w.apply db).eventsOf id = db.eventsOf id := by
  rw [eventsOf_apply, List.filter_eq_nil_iff.mpr, List.append_nil]
  intro e he
  simpa using h e (Option.mem_toList.mp he)

theorem eventsOf_apply_self {id : ℕ} {e : Event} (he : w.event = some e) (hid : e.issueId = id) :
    (w.apply db).eventsOf id = db.eventsOf id ++ [e] := by
  rw [eventsOf_apply, he, Option.toList_some, List.filter_singleton]
  simp [hid]

/-- An issue row keeps its balance while no event is stored for it. -/
theorem Issue.Balanced.of_eventsOf_eq {db' : Db} {r r' : Issue} (h : r.Balanced db)
    (hid : r'.id = r.id) (hcount : r'.eventCount = r.eventCount) (hseen : r'.lastSeen = r.lastSeen)
    (he : db'.eventsOf r.id = db.eventsOf r.id) : r'.Balanced db' := by
  constructor
  · rw [hcount, hid, he]
    exact h.count
  · rw [hseen, hid, he]
    exact h.lastSeen

/-- The upsert of an existing row and the event row it belongs to balance. -/
theorem Issue.Balanced.onConflict {r : Issue} (h : r.Balanced db) {p : UpsertIssue} {e : Event}
    (he : w.event = some e) (hid : e.issueId = r.id) (hseen : e.receivedAt = p.seenAt) :
    (p.onConflict r).Balanced (w.apply db) := by
  constructor
  · rw [onConflict_id, eventsOf_apply_self he hid, List.length_append, ← h.count]
    rfl
  · rw [onConflict_id, eventsOf_apply_self he hid, List.map_append, List.map_singleton, hseen]
    exact max?_append_singleton h.lastSeen

/-- A new row and the first event of its issue balance. -/
theorem newRow_balanced {p : UpsertIssue} {id : ℕ} {e : Event}
    (hnew : ∀ e ∈ db.events, e.issueId ≠ id) (he : w.event = some e) (hid : e.issueId = id)
    (hseen : e.receivedAt = p.seenAt) : (p.newRow id).Balanced (w.apply db) := by
  have hnone : db.eventsOf id = [] :=
    List.filter_eq_nil_iff.mpr fun e he => by simpa using hnew e he
  constructor
  · rw [show (p.newRow id).id = id from rfl, eventsOf_apply_self he hid, hnone]
    rfl
  · rw [show (p.newRow id).id = id from rfl, eventsOf_apply_self he hid, hnone, List.nil_append,
      List.map_singleton, hseen]
    rfl

theorem ServiceUpdate.keeps {pg : Postgres} {old new : Issue} (h : ServiceUpdate pg old new) :
    new.id = old.id ∧ new.projectId = old.projectId ∧ new.eventCount = old.eventCount ∧
      new.lastSeen = old.lastSeen := by
  obtain ⟨a, snap, rfl⟩ | ⟨u, rfl⟩ := h
  · cases a <;> exact ⟨rfl, rfl, rfl, rfl⟩
  · exact ⟨rfl, rfl, rfl, rfl⟩

/-- A commit keeps the issues of a project balanced. -/
theorem commit_balanced {pg : Postgres} {job : Job} {o : Outcome} {s : Session} {p : ℕ}
    (hfit : s.writes.Fits db) (hpost : JobPost pg rt job o s)
    (hbal : ∀ r ∈ db.issues, r.projectId = p → r.Balanced db) :
    ∀ r ∈ (s.writes.apply db).issues, r.projectId = p → r.Balanced (s.writes.apply db) := by
  intro r hr hp
  have hkeep (r : Issue) (hmem : r ∈ db.issues) (hp : r.projectId = p)
      (hne : ∀ e, s.writes.event = some e → e.issueId ≠ r.id) : r.Balanced (s.writes.apply db) :=
    (hbal r hmem hp).of_eventsOf_eq rfl rfl rfl (eventsOf_apply_of_ne hne)
  obtain ⟨hi, he⟩ | ⟨call, _, q, id, e, -, -, -, hi, he, hid, hseen⟩ |
    ⟨call, _, q, old, e, -, -, -, hi, he, hid, hseen⟩ | ⟨old, new, -, hnew, hi, he⟩ |
    ⟨old, -, hi, he⟩ := hpost.cases
  · rw [apply_issues_none hi] at hr
    exact hkeep r hr hp fun e he' => by rw [he] at he'; cases he'
  · have hfit' := hfit.issue _ hi
    rw [apply_issues_some hi, IssueWrite.apply, List.mem_append, List.mem_singleton] at hr
    obtain hr | rfl := hr
    · refine hkeep r hr hp fun e' he' heq => hfit'.2.1 ?_
      rw [he] at he'
      cases he'
      exact List.mem_map.mpr ⟨r, hr, heq.symm.trans hid⟩
    · exact newRow_balanced hfit'.2.2.2 he hid hseen
  · obtain ⟨hold, -, -⟩ := hfit.issue _ hi
    rw [apply_issues_some hi] at hr
    obtain rfl | ⟨hr, hne⟩ := mem_apply_update hr
    · exact (hbal old hold hp).onConflict he hid hseen
    · refine hkeep r hr hp fun e' he' heq => hne ?_
      rw [he] at he'
      cases he'
      exact heq.symm.trans hid
  · obtain ⟨hold, -, -⟩ := hfit.issue _ hi
    obtain ⟨hid, hproj, hcount, hseen⟩ := hnew.keeps
    have hnone (id : ℕ) : ∀ e, s.writes.event = some e → e.issueId ≠ id :=
      fun e he' => by rw [he] at he'; cases he'
    rw [apply_issues_some hi] at hr
    obtain rfl | ⟨hr, -⟩ := mem_apply_update hr
    · exact (hbal old hold (hproj ▸ hp)).of_eventsOf_eq hid hcount hseen
        (eventsOf_apply_of_ne (hnone old.id))
    · exact hkeep r hr hp (hnone r.id)
  · rw [apply_issues_some hi] at hr
    exact hkeep r (List.mem_of_mem_filter hr) hp fun e he' => by rw [he] at he'; cases he'

end Commit

section Runs

variable {ι : Type} [DecidableEq ι] [Fintype ι] {pg : Postgres} {rt : Runtime} {jobs : ι → Job}
  {now : ι → Timestamp} {db : Db} {p : ℕ} {w w' : IssueWorld ι}

theorem step_balanced {act : Action ι} (hw : (lockDiscipline pg rt jobs).Sound w)
    (hbal : ∀ r ∈ w.committed.issues, r.projectId = p → r.Balanced w.committed)
    (h : w.step (store pg) act = some w') :
    ∀ r ∈ w'.committed.issues, r.projectId = p → r.Balanced w'.committed := by
  obtain ⟨hi, he⟩ | ⟨i, a, s, waiting, -, -, hpost, hfit, rfl⟩ := step_committed hw h
  · intro r hr hp
    rw [hi] at hr
    exact (hbal r hr hp).of_eventsOf_eq rfl rfl rfl (by rw [Db.eventsOf, he, Db.eventsOf])
  · exact commit_balanced hfit hpost hbal

theorem counters_agree (hdb : db.Valid) (hp : db.EmptyProject p) {acts : List (Action ι)}
    (h : run (World.step (store pg)) (startJobs pg rt jobs now db) acts = some w) :
    (∀ r ∈ w.committed.issues, r.projectId = p → r.Balanced w.committed) ∧
    ∀ f, (w.committed.issues.filter fun r => r.key = (p, f)).length ≤ 1 := by
  have hinv : (lockDiscipline pg rt jobs).Sound w ∧
      ∀ r ∈ w.committed.issues, r.projectId = p → r.Balanced w.committed :=
    run_invariant (I := fun w => (lockDiscipline pg rt jobs).Sound w ∧
      ∀ r ∈ w.committed.issues, r.projectId = p → r.Balanced w.committed)
      (fun w act w' hw hstep => ⟨(lockDiscipline pg rt jobs).step_sound hw.1 hstep,
        step_balanced hw.1 hw.2 hstep⟩)
      ⟨startJobs_sound hdb, fun r hr hrp => absurd hrp (hp.issues r hr)⟩ h
  obtain ⟨hsound, hbal⟩ := hinv
  exact ⟨hbal, fun f => hsound.valid.keyed_length_le_one (p, f)⟩

/-- Two events of one issue, the second upsert waiting for the commit of the first. -/
theorem counters_agree_two_events :
    let jobs : Fin 2 → Job := fun i => .event (sampleCall (some "1.0")
      (if i = 0 then sampleEventId else py "00000000-0000-0000-0000-000000000002") (10 - i.val))
    ∃ w, run (World.step (store samplePostgres))
        (startJobs samplePostgres sampleRuntime jobs (fun i => i.val) sampleDb)
        [.run 0, .run 1, .run 0, .run 0, .run 0, .run 0, .run 1, .run 0, .run 0, .run 1, .run 1,
          .run 1, .run 1, .run 1, .run 1] = some w ∧
      (∀ r ∈ w.committed.issues, r.projectId = 1 → r.Balanced w.committed) ∧
      ∀ f, (w.committed.issues.filter fun r => r.key = (1, f)).length ≤ 1 := by
  intro jobs
  obtain ⟨w, hw⟩ := Option.isSome_iff_exists.mp (by decide +kernel :
    (run (World.step (store samplePostgres))
      (startJobs samplePostgres sampleRuntime jobs (fun i => i.val) sampleDb)
      [.run 0, .run 1, .run 0, .run 0, .run 0, .run 0, .run 1, .run 0, .run 0, .run 1, .run 1,
        .run 1, .run 1, .run 1, .run 1]).isSome = true)
  exact ⟨w, hw, counters_agree sampleDb_valid sampleDb_emptyProject hw⟩

end Runs

end Crashlens
