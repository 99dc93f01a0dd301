import Crashlens.Delivery

/-!
# Delivering an event again changes nothing

The duplicate check compares parsed ids, so a repeat is found whatever its spelling, its payload and
its `received_at`. A sequence of deliveries ends in the same database as the sequence without its
repeats.
-/

namespace Crashlens

open Transactional

/-- One `process_event` call and the clock of its transaction. -/
abbrev Delivery := EventCall × Timestamp

def isStored : Except DbError EventOutcome → Bool
  | .ok (.stored _) => true
  | _ => false

theorem isStored_iff {o : Except DbError EventOutcome} :
    isStored o = true ↔ ∃ r, o = .ok (.stored r) := by
  rcases o with e | o
  · simp [isStored]
  · cases o <;> simp [isStored]

section Deliveries

variable (pg : Postgres) (rt : Runtime)

def deliver (db : Db) (d : Delivery) : Db := ((store pg).serial (processEvent pg rt d.1) d.2 db).2

def delivers (db : Db) (d : Delivery) : Bool :=
  isStored ((store pg).serial (processEvent pg rt d.1) d.2 db).1

/-- The deliveries left when those go whose `(project_id, event_id)` an earlier one has stored. -/
def withoutRedeliveries (db : Db) (ds : List Delivery) : List Delivery :=
  withoutRepeats (deliver pg rt) (fun d => d.1.eventKey pg) (delivers pg rt) [] db ds

variable {pg rt} {db : Db} {d : Delivery}

theorem deliver_cases (pg : Postgres) (rt : Runtime) (db : Db) (d : Delivery) :
    (∃ b, d.1.bound pg rt = some b ∧ utcDay b.seenAt ∈ db.partitions ∧
      db.rowsOf b.projectId b.eventId = 0 ∧ delivers pg rt db d = true ∧
      deliver pg rt db d = b.store d.2 db) ∨
    (delivers pg rt db d = false ∧ db.SameTables (deliver pg rt db d)) := by
  obtain ⟨b, hb, -, hday, hnew, hserial⟩ | ⟨hnot, hsame⟩ := serial_processEvent pg rt d.1 d.2 db
  · left
    refine ⟨b, hb, hday, hnew, ?_, ?_⟩
    · exact isStored_iff.mpr ⟨_, congrArg Prod.fst hserial⟩
    · exact congrArg Prod.snd hserial
  · right
    refine ⟨?_, hsame⟩
    rw [← Bool.not_eq_true]
    intro hstored
    obtain ⟨r, hr⟩ := isStored_iff.mp hstored
    exact hnot r hr

theorem rowsOf_sameTables {db' : Db} (h : db.SameTables db') (p eventId : ℕ) :
    db'.rowsOf p eventId = db.rowsOf p eventId := by
  obtain ⟨n, -, rfl⟩ := h
  rfl

theorem rowsOf_deliver (pg : Postgres) (rt : Runtime) (db : Db) (d : Delivery) (p eventId : ℕ) :
    db.rowsOf p eventId ≤ (deliver pg rt db d).rowsOf p eventId := by
  obtain ⟨b, -, -, -, -, hstore⟩ | ⟨-, hsame⟩ := deliver_cases pg rt db d
  · rw [hstore, rowsOf_store]
    omega
  · rw [rowsOf_sameTables hsame]

theorem rowsOf_delivered {p eventId : ℕ} (hdone : delivers pg rt db d = true)
    (hkey : d.1.eventKey pg = some (p, eventId)) :
    (deliver pg rt db d).rowsOf p eventId ≠ 0 := by
  obtain ⟨b, hb, -, -, -, hstore⟩ | ⟨hnot, -⟩ := deliver_cases pg rt db d
  · have hpair := Option.some.inj (hkey.symm.trans (bound_eventKey hb))
    rw [hstore, rowsOf_store, if_pos (Prod.mk.inj hpair)]
    omega
  · rw [hdone] at hnot
    cases hnot

theorem redelivery_changes_nothing (pg : Postgres) (rt : Runtime) (db : Db) (ds : List Delivery) :
    replay (deliver pg rt) db (withoutRedeliveries pg rt db ds) = replay (deliver pg rt) db ds := by
  have hstays (db : Db) (d : Delivery) (k : ℕ × ℕ) (hstored : db.rowsOf k.1 k.2 ≠ 0) :
      (deliver pg rt db d).rowsOf k.1 k.2 ≠ 0 := by
    have hle := rowsOf_deliver pg rt db d k.1 k.2
    omega
  have hstores (db : Db) (d : Delivery) (k : ℕ × ℕ) (hdone : delivers pg rt db d = true)
      (hkey : d.1.eventKey pg = some k) : (deliver pg rt db d).rowsOf k.1 k.2 ≠ 0 :=
    rowsOf_delivered hdone hkey
  have hvoid (db : Db) (d : Delivery) (k : ℕ × ℕ) (hstored : db.rowsOf k.1 k.2 ≠ 0)
      (hkey : d.1.eventKey pg = some k) : deliver pg rt db d = db := serial_repeat hkey hstored
  exact replay_withoutRepeats hstays hstores hvoid (fun k hk => by cases hk) ds

/-- The second delivery spells the id without hyphens, arrives a day later and is dropped. -/
example :
    let ds : List Delivery := [(sampleCall none sampleEventId 0, 1),
      (sampleCall (some "1.0") (toHex 32 1) 86400000000, 2)]
    (withoutRedeliveries samplePostgres sampleRuntime sampleDb ds).length = 1 := by
  decide +kernel

end Deliveries

end Crashlens
