import Crashlens.Library.Transition
import Crashlens.PyValue
import Mathlib.Logic.Function.Basic

/-!
# Account lockout

`authenticate` on one account, by any number of callers at once. A call reads the row, checks the
password and commits; the commit writes the attributes whose assigned value differs from the value
the call read, as SQLAlchemy's unit of work does, on whatever row is there by then.

The counter is written as one more than the count that was read, so a failure that commits between
another call's read and its commit is not counted. When every commit finds the row as its call read
it, the counter is exact and the account locks. The lock runs from the reading of the clock the
tenth call took when it started, not from its commit.
-/

namespace Crashlens.Lockout

open Transactional

def lockoutThreshold : ℕ := 10
/-- Fifteen minutes in microseconds. -/
def lockoutDuration : Timestamp := 15 * 60 * 1000000

structure User where
  passwordHash : String
  failedLoginCount : ℕ
  lockedUntil : Option Timestamp
  lastLoginAt : Option Timestamp
deriving DecidableEq

def User.isLocked (u : User) (now : Timestamp) : Bool := u.lockedUntil.any fun t => now < t

def User.lockElapsed (u : User) (now : Timestamp) : Bool := u.lockedUntil.any fun t => t ≤ now

def User.effectiveCount (u : User) (now : Timestamp) : ℕ :=
  if u.lockElapsed now then 0 else u.failedLoginCount

/-- The attributes `authenticate` assigns once the password is checked. -/
def User.judge (u : User) (now : Timestamp) (ok : Bool) : User :=
  if ok then { u with failedLoginCount := 0, lockedUntil := none, lastLoginAt := some now }
  else
    let newCount := u.effectiveCount now + 1
    { u with
      failedLoginCount := newCount
      lockedUntil := if lockoutThreshold ≤ newCount then some (now + lockoutDuration) else none }

/-- An attribute is part of the `UPDATE` when it was assigned another value than was read. -/
def flushed {α : Type} [DecidableEq α] (seen assigned row : α) : α :=
  if assigned = seen then row else assigned

def User.flush (seen assigned row : User) : User where
  passwordHash := flushed seen.passwordHash assigned.passwordHash row.passwordHash
  failedLoginCount :=
    flushed seen.failedLoginCount assigned.failedLoginCount row.failedLoginCount
  lockedUntil := flushed seen.lockedUntil assigned.lockedUntil row.lockedUntil
  lastLoginAt := flushed seen.lastLoginAt assigned.lastLoginAt row.lastLoginAt

/-- How far one call of `authenticate` has come. `refused` returned `None` without a look at the
password. -/
inductive Call where
  | fresh
  | identified (now : Timestamp) (seen : User)
  | verified (now : Timestamp) (seen : User) (ok : Bool)
  | refused
  | returned (ok : Bool)
deriving DecidableEq

/-- The row has the counter and the lock the call read. -/
def Call.Finds (row : User) : Call → Prop
  | .verified _ seen _ =>
    row.failedLoginCount = seen.failedLoginCount ∧ row.lockedUntil = seen.lockedUntil
  | _ => True

instance (row : User) (c : Call) : Decidable (c.Finds row) :=
  match c with
  | .verified _ seen _ => inferInstanceAs (Decidable (row.failedLoginCount =
      seen.failedLoginCount ∧ row.lockedUntil = seen.lockedUntil))
  | .fresh | .identified _ _ | .refused | .returned _ => .isTrue trivial

/-- The attempt that brought the failures to the threshold: the time it took as `now`, and the time
of its commit. -/
structure Reached where
  started : Timestamp
  committed : Timestamp

/-- What has really happened: the wrong passwords committed since the counter was last reset. -/
structure Ledger where
  failures : ℕ
  reached : Option Reached

def Ledger.record (l : Ledger) (now : Timestamp) (seen : User) (ok : Bool) (clock : Timestamp) :
    Ledger :=
  if ok then ⟨0, none⟩
  else
    let failures := if seen.lockElapsed now then 1 else l.failures + 1
    ⟨failures,
      if failures < lockoutThreshold then none
      else if failures = lockoutThreshold then some ⟨now, clock⟩
      else l.reached⟩

structure Account (ι : Type) where
  row : User
  calls : ι → Call
  ledger : Ledger

/-- A call starts at the time it reads the row; `commit` happens at its own time. -/
inductive Action (ι : Type) where
  | readRow (i : ι) (now : Timestamp)
  | checkPassword (i : ι)
  | commit (i : ι) (clock : Timestamp)

section Machine

variable {ι : Type} [DecidableEq ι]

def Account.set (a : Account ι) (i : ι) (c : Call) : Account ι :=
  { a with calls := Function.update a.calls i c }

variable (verifyPassword : String → String → Bool) (password : ι → String)

/-- The interleaved steps of `authenticate`. -/
def step (a : Account ι) : Action ι → Option (Account ι)
  | .readRow i now =>
    match a.calls i with
    | .fresh => some (a.set i (if a.row.isLocked now then .refused else .identified now a.row))
    | _ => none
  | .checkPassword i =>
    match a.calls i with
    | .identified now seen =>
      some (a.set i (.verified now seen (verifyPassword seen.passwordHash (password i))))
    | _ => none
  | .commit i clock =>
    match a.calls i with
    | .verified now seen ok =>
      some { a.set i (.returned ok) with
        row := seen.flush (seen.judge now ok) a.row
        ledger := a.ledger.record now seen ok clock }
    | _ => none

/-- The account as a reset leaves it, and nobody has called yet. -/
def Account.fresh (row : User) : Account ι := ⟨row, fun _ => .fresh, ⟨0, none⟩⟩

/-- A call that starts within the duration of the lockout, counted from the commit that brought the
failures to the threshold, returns without checking the password. -/
def LockoutHolds (a : Account ι) : Action ι → Prop
  | .readRow i now => ∀ r ∈ a.ledger.reached, now < r.committed + lockoutDuration →
      ∀ a' ∈ step verifyPassword password a (.readRow i now), a'.calls i = .refused
  | _ => True

/-- The row still has the counter and the lock that the committing call read. -/
def Undisturbed (a : Account ι) : Action ι → Prop
  | .commit i _ => (a.calls i).Finds a.row
  | _ => True

/-- The call does not start between `LOCKOUT_DURATION` after the start of the attempt that reached
the threshold and `LOCKOUT_DURATION` after its commit. -/
def OutsideGap (a : Account ι) : Action ι → Prop
  | .readRow i now => a.calls i = .fresh → ∀ r ∈ a.ledger.reached,
      now < r.committed + lockoutDuration → now < r.started + lockoutDuration
  | _ => True

instance (a : Account ι) (act : Action ι) :
    Decidable (LockoutHolds verifyPassword password a act) :=
  match act with
  | .readRow i now => inferInstanceAs (Decidable (∀ r ∈ a.ledger.reached,
      now < r.committed + lockoutDuration →
      ∀ a' ∈ step verifyPassword password a (.readRow i now), a'.calls i = .refused))
  | .checkPassword _ => .isTrue trivial
  | .commit _ _ => .isTrue trivial

instance (a : Account ι) (act : Action ι) : Decidable (Undisturbed a act) :=
  match act with
  | .commit i _ => inferInstanceAs (Decidable ((a.calls i).Finds a.row))
  | .checkPassword _ => .isTrue trivial
  | .readRow _ _ => .isTrue trivial

instance (a : Account ι) (act : Action ι) : Decidable (OutsideGap a act) :=
  match act with
  | .readRow i now => inferInstanceAs (Decidable (a.calls i = .fresh → ∀ r ∈ a.ledger.reached,
      now < r.committed + lockoutDuration → now < r.started + lockoutDuration))
  | .checkPassword _ => .isTrue trivial
  | .commit _ _ => .isTrue trivial

end Machine

section Row

variable {u row : User} {now clock : Timestamp} {l : Ledger}

@[simp] theorem flushed_self {α : Type} [DecidableEq α] (seen row : α) :
    flushed seen seen row = row := if_pos rfl

theorem flushed_of_found {α : Type} [DecidableEq α] {seen row : α} (h : row = seen)
    (assigned : α) : flushed seen assigned row = assigned := by
  unfold flushed
  by_cases ha : assigned = seen
  · rw [if_pos ha, h, ha]
  · rw [if_neg ha]

/-- A row that is not locked has no lock, or one that has elapsed. -/
theorem lockedUntil_of_not_isLocked (h : u.isLocked now = false) :
    u.lockElapsed now = true ∨ u.lockedUntil = none ∧ u.lockElapsed now = false := by
  unfold User.isLocked at h
  unfold User.lockElapsed
  cases hlock : u.lockedUntil with
  | none => exact .inr ⟨rfl, rfl⟩
  | some t =>
      rw [hlock] at h
      have hle : ¬ now < t := by simpa using h
      exact .inl (by simpa using not_lt.mp hle)

end Row

section Invariant

variable {ι : Type} {verifyPassword : String → String → Bool}
variable {password : ι → String} {hash : String} {a a' : Account ι} {act : Action ι}

/-- A call that got past the lock read an unlocked row, and its password was found wrong. -/
def Call.Wrong (hash : String) : Call → Prop
  | .identified now seen => seen.passwordHash = hash ∧ seen.isLocked now = false
  | .verified now seen ok => seen.passwordHash = hash ∧ seen.isLocked now = false ∧ ok = false
  | _ => True

/-- The row counts the failures there have been, and locks from the threshold on. -/
structure Sound (hash : String) (a : Account ι) : Prop where
  hash_eq : a.row.passwordHash = hash
  count_eq : a.row.failedLoginCount = a.ledger.failures
  lock_eq : a.row.lockedUntil = a.ledger.reached.map fun r => r.started + lockoutDuration
  below_of_open : a.ledger.reached = none → a.ledger.failures < lockoutThreshold
  wrong : ∀ i, (a.calls i).Wrong hash

theorem Account.fresh_sound {row : User} (hcount : row.failedLoginCount = 0)
    (hlock : row.lockedUntil = none) :
    Sound row.passwordHash (Account.fresh row : Account ι) where
  hash_eq := rfl
  count_eq := hcount
  lock_eq := hlock
  below_of_open := fun _ => by simp [Account.fresh, lockoutThreshold]
  wrong := fun _ => trivial

variable [DecidableEq ι]

/-- Everything one step can do. -/
theorem step_cases (h : step verifyPassword password a act = some a') :
    (∃ i now, act = .readRow i now ∧ a.calls i = .fresh ∧
      a' = a.set i (if a.row.isLocked now then .refused else .identified now a.row)) ∨
    (∃ i now seen, act = .checkPassword i ∧ a.calls i = .identified now seen ∧
      a' = a.set i (.verified now seen (verifyPassword seen.passwordHash (password i)))) ∨
    (∃ i clock now seen ok, act = .commit i clock ∧ a.calls i = .verified now seen ok ∧
      a' = { a.set i (.returned ok) with
        row := seen.flush (seen.judge now ok) a.row
        ledger := a.ledger.record now seen ok clock }) := by
  cases act with
  | readRow i now =>
      simp only [step] at h
      split at h
      · next hc => exact .inl ⟨i, now, rfl, hc, (Option.some.inj h).symm⟩
      · cases h
  | checkPassword i =>
      simp only [step] at h
      split at h
      · next now seen hc => exact .inr (.inl ⟨i, now, seen, rfl, hc, (Option.some.inj h).symm⟩)
      · cases h
  | commit i clock =>
      simp only [step] at h
      split at h
      · next now seen ok hc =>
          exact .inr (.inr ⟨i, clock, now, seen, ok, rfl, hc, (Option.some.inj h).symm⟩)
      · cases h

theorem wrong_set {i : ι} {c : Call} (h : ∀ j, (a.calls j).Wrong hash) (hc : c.Wrong hash) :
    ∀ j, ((a.set i c).calls j).Wrong hash := by
  intro j
  by_cases hj : j = i
  · subst hj
    simpa [Account.set] using hc
  · simpa [Account.set, hj] using h j

/-- A wrong password committed on the row it was judged by is counted. -/
theorem commit_sound {i : ι} {now clock : Timestamp} {seen : User} (hs : Sound hash a)
    (hc : a.calls i = .verified now seen false) (hfound : (a.calls i).Finds a.row) :
    Sound hash { a.set i (.returned false) with
      row := seen.flush (seen.judge now false) a.row
      ledger := a.ledger.record now seen false clock } := by
  have hunlocked : seen.isLocked now = false := by
    have h := hs.wrong i
    rw [hc] at h
    exact h.2.1
  obtain ⟨hcount, hlock⟩ : a.row.failedLoginCount = seen.failedLoginCount ∧
      a.row.lockedUntil = seen.lockedUntil := by simpa [hc, Call.Finds] using hfound
  have hwrong := wrong_set (i := i) hs.wrong (c := .returned false) trivial
  have hrow : (seen.flush (seen.judge now false) a.row).failedLoginCount =
      seen.effectiveCount now + 1 := flushed_of_found hcount _
  have hrowLock : (seen.flush (seen.judge now false) a.row).lockedUntil =
      if lockoutThreshold ≤ seen.effectiveCount now + 1 then some (now + lockoutDuration)
      else none := flushed_of_found hlock _
  have hrowHash : (seen.flush (seen.judge now false) a.row).passwordHash = hash := by
    rw [← hs.hash_eq]
    exact flushed_self _ _
  obtain helapsed | ⟨hnone, helapsed⟩ := lockedUntil_of_not_isLocked hunlocked
  · have heff : seen.effectiveCount now = 0 := by simp [User.effectiveCount, helapsed]
    have hledger : a.ledger.record now seen false clock = ⟨1, none⟩ := by
      simp [Ledger.record, helapsed, lockoutThreshold]
    refine ⟨hrowHash, ?_, ?_, ?_, hwrong⟩
    · simp only [hrow, heff, hledger]
    · simp [hrowLock, heff, hledger, lockoutThreshold]
    · simp [hledger, lockoutThreshold]
  · have heff : seen.effectiveCount now = a.ledger.failures := by
      simp [User.effectiveCount, helapsed, ← hcount, hs.count_eq]
    have hopen : a.ledger.reached = none := by
      have h := hs.lock_eq
      rw [hlock, hnone] at h
      exact Option.map_eq_none_iff.mp h.symm
    have hbelow := hs.below_of_open hopen
    refine ⟨hrowHash, ?_, ?_, ?_, hwrong⟩
    · simp [hrow, heff, Ledger.record, helapsed]
    · simp only [hrowLock, heff, Ledger.record, helapsed, Bool.false_eq_true, if_false]
      by_cases hlast : a.ledger.failures + 1 < lockoutThreshold
      · rw [if_neg (by omega), if_pos hlast, Option.map_none]
      · rw [if_pos (by omega), if_neg hlast, if_pos (by omega), Option.map_some]
    · simp only [Ledger.record, helapsed, Bool.false_eq_true, if_false]
      intro hnotReached
      by_contra hlast
      rw [if_neg hlast, if_pos (by omega)] at hnotReached
      cases hnotReached

theorem step_sound (hwrong : ∀ i, verifyPassword hash (password i) = false) (hs : Sound hash a)
    (hund : Undisturbed a act) (h : step verifyPassword password a act = some a') :
    Sound hash a' := by
  obtain ⟨i, now, -, hc, rfl⟩ | ⟨i, now, seen, -, hc, rfl⟩ |
    ⟨i, clock, now, seen, ok, rfl, hc, rfl⟩ := step_cases h
  · refine ⟨hs.hash_eq, hs.count_eq, hs.lock_eq, hs.below_of_open, wrong_set hs.wrong ?_⟩
    by_cases hlocked : a.row.isLocked now = true
    · rw [if_pos hlocked]
      trivial
    · rw [if_neg hlocked]
      exact ⟨hs.hash_eq, by simpa using hlocked⟩
  · refine ⟨hs.hash_eq, hs.count_eq, hs.lock_eq, hs.below_of_open, wrong_set hs.wrong ?_⟩
    have hseen : seen.passwordHash = hash ∧ seen.isLocked now = false := by
      simpa [hc, Call.Wrong] using hs.wrong i
    exact ⟨hseen.1, hseen.2, by rw [hseen.1]; exact hwrong i⟩
  · have hok : ok = false := by
      have hw := hs.wrong i
      rw [hc] at hw
      exact hw.2.2
    subst hok
    exact commit_sound hs hc hund

/-- On a sound account the lock refuses exactly the calls it should, outside the gap. -/
theorem lockoutHolds_iff (hs : Sound hash a) :
    LockoutHolds verifyPassword password a act ↔ OutsideGap a act := by
  cases act with
  | checkPassword i => exact Iff.rfl
  | commit i clock => exact Iff.rfl
  | readRow i now =>
      by_cases hfresh : a.calls i = .fresh
      · have hlocked (r : Reached) (hr : r ∈ a.ledger.reached) :
            a.row.isLocked now = true ↔ now < r.started + lockoutDuration := by
          have hreached : a.ledger.reached = some r := hr
          simp [User.isLocked, hs.lock_eq, hreached]
        have hstep : step verifyPassword password a (.readRow i now) =
            some (a.set i (if a.row.isLocked now then .refused else .identified now a.row)) := by
          simp only [step, hfresh]
        have hrefused : (∀ a' ∈ step verifyPassword password a (.readRow i now),
            a'.calls i = .refused) ↔ a.row.isLocked now = true := by
          by_cases hl : a.row.isLocked now = true <;> simp [hstep, Account.set, hl]
        simp only [LockoutHolds, OutsideGap, hrefused, hfresh, true_implies]
        exact forall_congr' fun r => forall_congr' fun hr => imp_congr_right fun _ => hlocked r hr
      · have hstep : step verifyPassword password a (.readRow i now) = none := by
          cases hc : a.calls i <;> simp_all [step]
        simp [LockoutHolds, OutsideGap, hstep, hfresh]

/-- Under any interleaving of wrong guesses, as long as every commit finds the counter and the lock
its call read, the lockout holds at every call exactly when no call starts in the gap. -/
theorem lockout_holds_iff (verifyPassword : String → String → Bool) (password : ι → String)
    (row : User) (hcount : row.failedLoginCount = 0) (hlock : row.lockedUntil = none)
    (hwrong : ∀ i, verifyPassword row.passwordHash (password i) = false)
    (acts : List (Action ι))
    (hund : Along (step verifyPassword password) Undisturbed (Account.fresh row) acts) :
    Along (step verifyPassword password) (LockoutHolds verifyPassword password)
        (Account.fresh row) acts ↔
      Along (step verifyPassword password) OutsideGap (Account.fresh row) acts :=
  along_congr_of_along (fun _ _ _ hs hR h => step_sound hwrong hs hR h)
    (fun _ _ hs => lockoutHolds_iff hs) (Account.fresh_sound hcount hlock) hund

end Invariant

section Runs

def plainVerify (hash password : String) : Bool := hash == password

def freshUser : User := ⟨"right", 0, none, none⟩

/-- Ten guesses read the row before any of them commits. -/
def overlapping : List (Action (Fin 11)) :=
  (List.finRange 10).map (fun i => .readRow i.castSucc 0) ++
  (List.finRange 10).map (fun i => .checkPassword i.castSucc) ++
  (List.finRange 10).map (fun i => .commit i.castSucc 1) ++ [.readRow 10 2]

/-- All ten write a count of one, and the eleventh guess is checked. -/
theorem overlapping_guesses_not_locked :
    ¬ Along (step plainVerify fun _ => "wrong") (LockoutHolds plainVerify fun _ => "wrong")
      (Account.fresh freshUser) overlapping := by
  decide +kernel

/-- Ten guesses one after another, and an eleventh. -/
def oneByOne : List (Action (Fin 11)) :=
  ((List.finRange 10).flatMap fun i =>
    [.readRow i.castSucc 0, .checkPassword i.castSucc, .commit i.castSucc 1]) ++ [.readRow 10 2]

theorem one_by_one_locked :
    Along (step plainVerify fun _ => "wrong") (LockoutHolds plainVerify fun _ => "wrong")
      (Account.fresh freshUser) oneByOne :=
  (lockout_holds_iff plainVerify (fun _ => "wrong") freshUser rfl rfl (fun _ => by decide) oneByOne
    (by decide +kernel)).mpr (by decide +kernel)

end Runs

end Crashlens.Lockout
