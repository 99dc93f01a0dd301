import Crashlens.Library.ReadCommitted
import Mathlib.Data.List.Nodup

/-!
# Instance administrators

`set_instance_admin` behind `require_instance_admin`, as a transaction over the `users` table: the
caller is loaded and authorised, the administrators are counted, and the flag of the target is
updated. Nothing locks the rows that were read, so both the authorisation and the count may be out
of date when the update commits. The caller and the target are compared by their texts, while the
update finds the row by the uuid the text stands for.
-/

namespace Crashlens.Admin

open Transactional

/-- How uuids are written (`str`) and read by the database driver. -/
structure UuidText (Uuid : Type) where
  str : Uuid → String
  parse : String → Option Uuid
  parse_str : ∀ u, parse (str u) = some u

structure UserRow (Uuid : Type) where
  id : Uuid
  email : String
  isInstanceAdmin : Bool
deriving DecidableEq

/-- The `users` table with its primary key. -/
structure Users (Uuid : Type) where
  rows : List (UserRow Uuid)
  key : (rows.map UserRow.id).Nodup

section Tables

variable {Uuid : Type} [DecidableEq Uuid]

def UserRow.setFlag (u : UserRow Uuid) (id : Uuid) (enabled : Bool) : UserRow Uuid :=
  if u.id = id then { u with isInstanceAdmin := enabled } else u

theorem setFlag_id (u : UserRow Uuid) (id : Uuid) (enabled : Bool) :
    (u.setFlag id enabled).id = u.id := by
  unfold UserRow.setFlag
  split <;> rfl

def Users.setFlag (users : Users Uuid) (id : Uuid) (enabled : Bool) : Users Uuid where
  rows := users.rows.map fun u => u.setFlag id enabled
  key := by
    have hids : (fun u : UserRow Uuid => (u.setFlag id enabled).id) = UserRow.id :=
      funext fun u => setFlag_id u id enabled
    rw [List.map_map, Function.comp_def, hids]
    exact users.key

def Users.find? (users : Users Uuid) (id : Uuid) : Option (UserRow Uuid) :=
  users.rows.find? fun u => u.id = id

def Users.adminCount (users : Users Uuid) : ℕ := users.rows.countP UserRow.isInstanceAdmin

def Users.isAdmin (users : Users Uuid) (id : Uuid) : Bool :=
  users.rows.any fun u => u.id = id && u.isInstanceAdmin

def Users.HasAdmin (users : Users Uuid) : Prop := ∃ u ∈ users.rows, u.isInstanceAdmin = true

inductive Request (Uuid : Type) where
  | loadUserById (userId : Uuid)
  | countAdmins
  | updateFlag (targetUserId : String) (enabled : Bool)

abbrev Response {Uuid : Type} : Request Uuid → Type
  | .loadUserById _ => Option (UserRow Uuid)
  | .countAdmins => ℕ
  | .updateFlag _ _ => Option (UserRow Uuid)

inductive AdminError where
  | dataError
  | unauthenticated
  | forbidden
  | lastAdmin
  | noSuchUser
deriving DecidableEq

/-- The flag an open transaction has written and not committed. -/
abbrev Pending (Uuid : Type) := Option (Uuid × Bool)

def Pending.apply (d : Pending Uuid) (users : Users Uuid) : Users Uuid :=
  match d with
  | some (id, enabled) => users.setFlag id enabled
  | none => users

end Tables

section Requests

variable {Uuid : Type} [DecidableEq Uuid] (uuids : UuidText Uuid)

def exec (_ : Unit) (snapshot committed : Users Uuid) (d : Pending Uuid) :
    (q : Request Uuid) → Except AdminError (Response q × Pending Uuid × Users Uuid)
  | .loadUserById userId => .ok ((d.apply snapshot).find? userId, d, committed)
  | .countAdmins => .ok ((d.apply snapshot).adminCount, d, committed)
  | .updateFlag targetUserId enabled =>
    match uuids.parse targetUserId with
    | none => .error .dataError
    | some id =>
      match (d.apply committed).find? id with
      | none => .ok (none, d, committed)
      | some row => .ok (some (row.setFlag id enabled), some (id, enabled), committed)

/-- `UPDATE` locks the row of the target. -/
def blocks (d : Pending Uuid) : Request Uuid → Bool
  | .updateFlag targetUserId _ => d.any fun w => uuids.parse targetUserId = some w.1
  | _ => false

def store : Store Unit (Users Uuid) (Pending Uuid) AdminError (Request Uuid) Response where
  noWrites := none
  merge := Pending.apply
  exec := exec uuids
  blocks := blocks uuids

def wouldOrphanInstance (enabled isSelf : Bool) (adminCount : ℕ) : Bool :=
  !enabled && isSelf && adminCount ≤ 1

/-- The path parameter and the body of one request, and the user its token stands for. -/
structure AdminRequest (Uuid : Type) where
  targetUserId : String
  enabled : Bool
  caller : Uuid

abbrev AdminTx (Uuid α : Type) := Program (Request Uuid) Response AdminError α

def execute (q : Request Uuid) : AdminTx Uuid (Response q) := Program.request q

def requireInstanceAdmin (userId : Uuid) : AdminTx Uuid Unit := do
  match ← execute (.loadUserById userId) with
  | none => .raise .unauthenticated
  | some user => if user.isInstanceAdmin then .pure () else .raise .forbidden

def setInstanceAdmin (targetUserId : String) (enabled : Bool) (actingUserId : String) :
    AdminTx Uuid (UserRow Uuid) := do
  let adminCount ← execute .countAdmins
  let isSelf : Bool := targetUserId = actingUserId
  if wouldOrphanInstance enabled isSelf adminCount then .raise .lastAdmin
  else
    match ← execute (.updateFlag targetUserId enabled) with
    | none => .raise .noSuchUser
    | some row => .pure row

def AdminRequest.program (r : AdminRequest Uuid) : AdminTx Uuid (UserRow Uuid) := do
  requireInstanceAdmin r.caller
  setInstanceAdmin r.targetUserId r.enabled (uuids.str r.caller)

/-- The caller is still an administrator, a target that is the caller is written as the caller is,
and the guard would still let the request pass. -/
structure AdminRequest.StillAllowed (r : AdminRequest Uuid) (users : Users Uuid) : Prop where
  authorised : users.isAdmin r.caller = true
  spelled : uuids.parse r.targetUserId = some r.caller → r.targetUserId = uuids.str r.caller
  guarded : wouldOrphanInstance r.enabled (r.targetUserId = uuids.str r.caller) users.adminCount =
    false

instance (r : AdminRequest Uuid) (users : Users Uuid) : Decidable (r.StillAllowed uuids users) :=
  decidable_of_iff (users.isAdmin r.caller = true ∧
      (uuids.parse r.targetUserId = some r.caller → r.targetUserId = uuids.str r.caller) ∧
      wouldOrphanInstance r.enabled (r.targetUserId = uuids.str r.caller) users.adminCount = false)
    ⟨fun h => ⟨h.1, h.2.1, h.2.2⟩, fun h => ⟨h.authorised, h.spelled, h.guarded⟩⟩

abbrev AdminWorld (ι Uuid : Type) :=
  World ι Unit (Users Uuid) (Pending Uuid) AdminError (Request Uuid) Response (UserRow Uuid)

variable {ι : Type} (reqs : ι → AdminRequest Uuid)

def startRequests (users : Users Uuid) : AdminWorld ι Uuid :=
  World.start (store uuids) (fun i => (reqs i).program uuids) (fun _ => ()) users

/-- A demotion that commits would still be allowed on the users committed by now. -/
def CommitsAllowed (w : AdminWorld ι Uuid) : Action ι → Prop
  | .run i => (w.txns i).atCommit = true → (reqs i).enabled = false →
      (reqs i).StillAllowed uuids w.committed
  | .fail _ => True

instance (w : AdminWorld ι Uuid) (act : Action ι) : Decidable (CommitsAllowed uuids reqs w act) :=
  match act with
  | .run i => inferInstanceAs (Decidable ((w.txns i).atCommit = true →
      (reqs i).enabled = false → (reqs i).StillAllowed uuids w.committed))
  | .fail _ => .isTrue trivial

/-- A request that gets as far as its commit has written the flag it was asked to write. -/
def FlagWritten (r : AdminRequest Uuid) (_ : UserRow Uuid)
    (s : Session Unit (Pending Uuid) (Request Uuid) Response) : Prop :=
  ∃ id, uuids.parse r.targetUserId = some id ∧ s.writes = some (id, r.enabled)

end Requests

section Spec

variable {Uuid : Type} [DecidableEq Uuid] {uuids : UuidText Uuid}

theorem answers_updateFlag {s s' : Session Unit (Pending Uuid) (Request Uuid) Response}
    {targetUserId : String} {enabled : Bool} {row : UserRow Uuid}
    (h : (store uuids).Answers (.updateFlag targetUserId enabled) s (some row) s') :
    ∃ id, uuids.parse targetUserId = some id ∧ s'.writes = some (id, enabled) := by
  obtain ⟨snap, c, d, c', he, rfl⟩ := h
  simp only [store, exec] at he
  split at he
  · cases he
  · next id hid =>
      split at he
      · cases he
      · cases he
        exact ⟨id, hid, rfl⟩

theorem setInstanceAdmin_spec (r : AdminRequest Uuid) (actingUserId : String)
    (s : Session Unit (Pending Uuid) (Request Uuid) Response) :
    (setInstanceAdmin r.targetUserId r.enabled actingUserId).wp (store uuids).Answers
      (fun _ _ => True) (FlagWritten uuids r) s := by
  refine ⟨trivial, fun (adminCount : ℕ) s₁ _ => ?_⟩
  simp only [Program.pure_bind]
  by_cases horphan : wouldOrphanInstance r.enabled (r.targetUserId = actingUserId) adminCount = true
  · rw [if_pos horphan]
    trivial
  · rw [if_neg horphan]
    refine ⟨trivial, fun row s₂ h₂ => ?_⟩
    cases row with
    | none => trivial
    | some row => exact answers_updateFlag h₂

theorem program_spec (r : AdminRequest Uuid)
    (s : Session Unit (Pending Uuid) (Request Uuid) Response) :
    (r.program uuids).wp (store uuids).Answers (fun _ _ => True) (FlagWritten uuids r) s := by
  rw [AdminRequest.program, Program.bind_eq, Program.wp_bind]
  refine ⟨trivial, fun user s₁ _ => ?_⟩
  cases user with
  | none => trivial
  | some user =>
      simp only [Program.pure_bind]
      by_cases hadmin : user.isInstanceAdmin = true
      · rw [if_pos hadmin]
        exact setInstanceAdmin_spec r _ s₁
      · rw [if_neg hadmin]
        trivial

end Spec

section Admins

variable {Uuid : Type} [DecidableEq Uuid] {users : Users Uuid}

theorem mem_setFlag {u : UserRow Uuid} (hu : u ∈ users.rows) (id : Uuid) (enabled : Bool) :
    u.setFlag id enabled ∈ (users.setFlag id enabled).rows :=
  List.mem_map_of_mem hu

theorem setFlag_of_ne {u : UserRow Uuid} {id : Uuid} (h : u.id ≠ id) (enabled : Bool) :
    u.setFlag id enabled = u := if_neg h

theorem hasAdmin_of_isAdmin_ne {id caller : Uuid} (hcaller : users.isAdmin caller = true)
    (hne : caller ≠ id) (enabled : Bool) : (users.setFlag id enabled).HasAdmin := by
  obtain ⟨u, hu, hid⟩ := List.any_eq_true.mp hcaller
  simp only [Bool.and_eq_true, decide_eq_true_eq] at hid
  refine ⟨u, ?_, hid.2⟩
  have hmem := mem_setFlag hu id enabled
  rwa [setFlag_of_ne (by rw [hid.1]; exact hne)] at hmem

/-- With two administrators, one of them is someone else. -/
theorem exists_other_admin (hcount : 1 < users.adminCount) (id : Uuid) :
    ∃ u ∈ users.rows, u.isInstanceAdmin = true ∧ u.id ≠ id := by
  by_contra! hnone
  let admins := users.rows.filter UserRow.isInstanceAdmin
  have hall : ∀ x ∈ admins.map UserRow.id, x = id := by
    intro x hx
    obtain ⟨u, hu, rfl⟩ := List.mem_map.mp hx
    obtain ⟨hrow, hflag⟩ := List.mem_filter.mp hu
    exact hnone u hrow hflag
  have hnodup : (admins.map UserRow.id).Nodup :=
    users.key.sublist (List.filter_sublist.map UserRow.id)
  rw [List.eq_replicate_of_mem hall, List.nodup_replicate, List.length_map] at hnodup
  have hlength : admins.length = users.adminCount := List.countP_eq_length_filter.symm
  omega

/-- What a request leaves pending does no harm if the request would still be allowed. -/
theorem hasAdmin_setFlag {r : AdminRequest Uuid} {uuids : UuidText Uuid} {id : Uuid}
    (h : users.HasAdmin) (hid : uuids.parse r.targetUserId = some id)
    (hallowed : r.enabled = false → r.StillAllowed uuids users) :
    (users.setFlag id r.enabled).HasAdmin := by
  cases henabled : r.enabled with
  | true =>
      obtain ⟨u, hu, hflag⟩ := h
      refine ⟨_, mem_setFlag hu id true, ?_⟩
      unfold UserRow.setFlag
      split
      · rfl
      · exact hflag
  | false =>
      obtain ⟨hcaller, hspelled, hguard⟩ := hallowed henabled
      by_cases hself : id = r.caller
      · have htext := hspelled (hself ▸ hid)
        have hcount : 1 < users.adminCount := by
          simpa [wouldOrphanInstance, henabled, htext] using hguard
        obtain ⟨u, hu, hflag, hne⟩ := exists_other_admin hcount id
        refine ⟨u, ?_, hflag⟩
        have hmem := mem_setFlag hu id false
        rwa [setFlag_of_ne hne] at hmem
      · exact hasAdmin_of_isAdmin_ne hcaller (Ne.symm hself) false

end Admins

section Runs

variable {ι Uuid : Type} [DecidableEq ι] [Fintype ι] [DecidableEq Uuid] {uuids : UuidText Uuid}
variable {reqs : ι → AdminRequest Uuid} {w w' : AdminWorld ι Uuid} {act : Action ι}

/-- The committed users change only by commits. -/
theorem exec_committed {snap c c' : Users Uuid} {d d' : Pending Uuid} {q : Request Uuid}
    {r : Response q} (h : exec uuids () snap c d q = .ok (r, d', c')) : c' = c := by
  cases q with
  | loadUserById userId => cases h; rfl
  | countAdmins => cases h; rfl
  | updateFlag targetUserId enabled =>
      simp only [exec] at h
      split at h
      · cases h
      · split at h <;> cases h <;> rfl

structure Sound (uuids : UuidText Uuid) (reqs : ι → AdminRequest Uuid) (w : AdminWorld ι Uuid) :
    Prop where
  verified : ∀ i, (w.txns i).Verified (store uuids) (fun _ _ => True) (FlagWritten uuids (reqs i))
  hasAdmin : w.committed.HasAdmin

theorem step_sound (hs : Sound uuids reqs w) (hallowed : CommitsAllowed uuids reqs w act)
    (h : w.step (store uuids) act = some w') : Sound uuids reqs w' := by
  refine ⟨World.step_verified (store uuids) hs.verified h, ?_⟩
  obtain ⟨i, e, -, -, -, -, rfl⟩ | ⟨i, q, next, s, -, -, -, rfl⟩ |
    ⟨i, q, next, s, waiting, r, d, c, -, -, -, he, rfl⟩ | ⟨i, a, s, waiting, rfl, ht, rfl⟩ :=
    World.step_cases (store uuids) h
  · exact hs.hasAdmin
  · exact hs.hasAdmin
  · rw [World.set_committed, exec_committed he]
    exact hs.hasAdmin
  · have hv := hs.verified i
    rw [ht] at hv
    obtain ⟨id, hid, hwrites⟩ := hv
    rw [World.set_committed]
    have happly : (store uuids).merge s.writes w.committed =
        w.committed.setFlag id (reqs i).enabled := by rw [hwrites]; rfl
    rw [happly]
    exact hasAdmin_setFlag hs.hasAdmin hid (hallowed (by rw [ht]; rfl))

/-- In every interleaving in which each demotion that commits would still be allowed on the users
committed by then, every committed state has an administrator. -/
theorem instance_keeps_admin (uuids : UuidText Uuid) (reqs : ι → AdminRequest Uuid)
    (users : Users Uuid) (hadmin : users.HasAdmin) (acts : List (Action ι))
    (hallowed : Along (World.step (store uuids)) (CommitsAllowed uuids reqs)
      (startRequests uuids reqs users) acts)
    (w : AdminWorld ι Uuid)
    (h : run (World.step (store uuids)) (startRequests uuids reqs users) acts = some w) :
    w.committed.HasAdmin := by
  have hstart : Sound uuids reqs (startRequests uuids reqs users) :=
    ⟨fun i => program_spec (reqs i) _, hadmin⟩
  exact (run_invariant_of_along (fun _ _ _ hs ha hstep => step_sound hs ha hstep) hstart
    hallowed h).hasAdmin

/-- Two uuids, in lower and in upper case. -/
def twoUuids : UuidText Bool where
  str u := if u then "bbbbbbbb-0000-4000-8000-000000000000"
    else "aaaaaaaa-0000-4000-8000-000000000000"
  parse s :=
    if s = "aaaaaaaa-0000-4000-8000-000000000000" || s = "AAAAAAAA-0000-4000-8000-000000000000"
    then some false
    else if s = "bbbbbbbb-0000-4000-8000-000000000000" ||
      s = "BBBBBBBB-0000-4000-8000-000000000000" then some true
    else none
  parse_str := by decide +kernel

def twoAdmins : Users Bool := ⟨[⟨false, "a@example", true⟩, ⟨true, "b@example", true⟩], by decide⟩

def oneAdmin : Users Bool := ⟨[⟨false, "a@example", true⟩, ⟨true, "b@example", false⟩], by decide⟩

/-- Each of the two takes the flag from the other. -/
def mutualDemotion (i : Bool) : AdminRequest Bool := ⟨twoUuids.str !i, false, i⟩

/-- The only administrator names himself in upper case. -/
def shoutedDemotion (i : Bool) : AdminRequest Bool :=
  ⟨"AAAAAAAA-0000-4000-8000-000000000000", false, i⟩

def flagsAfter (reqs : Bool → AdminRequest Bool) (users : Users Bool) (acts : List (Action Bool)) :
    Option (List Bool) :=
  (run (World.step (store twoUuids)) (startRequests twoUuids reqs users) acts).map fun w =>
    w.committed.rows.map UserRow.isInstanceAdmin

theorem no_admin_of_flags {reqs : Bool → AdminRequest Bool} {users : Users Bool}
    {acts : List (Action Bool)} (h : flagsAfter reqs users acts = some [false, false]) :
    ∃ w, run (World.step (store twoUuids)) (startRequests twoUuids reqs users) acts = some w ∧
      ¬ w.committed.HasAdmin := by
  obtain ⟨w, hw, hflags⟩ := Option.map_eq_some_iff.mp h
  refine ⟨w, hw, fun ⟨u, hu, hadmin⟩ => ?_⟩
  have hmem : u.isInstanceAdmin ∈ w.committed.rows.map UserRow.isInstanceAdmin :=
    List.mem_map_of_mem hu
  rw [hflags, hadmin] at hmem
  simp at hmem

/-- Both are authorised before either commits; and one request suffices for the last one. -/
theorem instance_loses_last_admin :
    (twoAdmins.HasAdmin ∧ ∃ w, run (World.step (store twoUuids))
      (startRequests twoUuids mutualDemotion twoAdmins)
      [.run false, .run true, .run false, .run true, .run false, .run true, .run false, .run true] =
        some w ∧ ¬ w.committed.HasAdmin) ∧
    (oneAdmin.HasAdmin ∧ ∃ w, run (World.step (store twoUuids))
      (startRequests twoUuids shoutedDemotion oneAdmin)
      [.run false, .run false, .run false, .run false] = some w ∧ ¬ w.committed.HasAdmin) :=
  ⟨⟨⟨_, List.mem_cons_self, rfl⟩, no_admin_of_flags (by decide +kernel)⟩,
    ⟨⟨_, List.mem_cons_self, rfl⟩, no_admin_of_flags (by decide +kernel)⟩⟩

theorem one_demotion_keeps_admin : ∃ w, run (World.step (store twoUuids))
    (startRequests twoUuids mutualDemotion twoAdmins)
    [.run false, .run false, .run false, .run false] = some w ∧ w.committed.HasAdmin :=
  ⟨_, rfl, instance_keeps_admin twoUuids mutualDemotion twoAdmins ⟨_, List.mem_cons_self, rfl⟩
    [.run false, .run false, .run false, .run false] (by decide +kernel) _ rfl⟩

end Runs

end Crashlens.Admin
