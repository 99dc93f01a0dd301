import Crashlens.Library.Transition
import Crashlens.Library.Program
import Mathlib.Data.Fintype.Defs
import Mathlib.Data.Fintype.Basic
import Mathlib.Logic.Function.Basic
import Mathlib.Algebra.BigOperators.Group.Finset.Piecewise

/-!
# Interleaved transactions at isolation level READ COMMITTED

A `Store` says what one statement does: it reads a snapshot and the committed state, both with the
transaction's own writes on top, and answers with new pending writes. A transaction is a `Program`
over the store's statements; its writes stay private until the commit merges them into the
committed state. A statement that needs a row locked by another transaction starts, which fixes its
snapshot, and takes effect once the lock is free, on the rows committed by then. Every other
statement is one atomic step.

`World.step` interleaves any finite number of transactions, each of which may also fail at any
point. `serial` runs one transaction with nothing in between, and `run_alone` shows that this is one
of the interleavings.
-/

namespace Transactional

variable {κ σ δ ε : Type} {Req : Type} {Resp : Req → Type} {α ι : Type}

structure Store (κ σ δ ε : Type) (Req : Type) (Resp : Req → Type) where
  noWrites : δ
  merge : δ → σ → σ
  /-- Clock of the transaction, statement snapshot, committed state, pending writes, statement. -/
  exec : κ → σ → σ → δ → (q : Req) → Except ε (Resp q × δ × σ)
  /-- The pending writes of another transaction hold a lock the statement needs. -/
  blocks : δ → Req → Bool

/-- What a transaction has done so far: its writes and the statements answered, oldest first. -/
structure Session (κ δ : Type) (Req : Type) (Resp : Req → Type) where
  now : κ
  writes : δ
  log : List ((q : Req) × Resp q)

def Session.after (s : Session κ δ Req Resp) (q : Req) (r : Resp q) (d : δ) :
    Session κ δ Req Resp := { s with writes := d, log := s.log ++ [⟨q, r⟩] }

section SessionLemmas

variable (s : Session κ δ Req Resp) (q : Req) (r : Resp q) (d : δ)

@[simp] theorem Session.after_now : (s.after q r d).now = s.now := rfl
@[simp] theorem Session.after_writes : (s.after q r d).writes = d := rfl
@[simp] theorem Session.after_log : (s.after q r d).log = s.log ++ [⟨q, r⟩] := rfl

end SessionLemmas

/-- A running transaction carries the snapshot of a statement that waits for a lock. -/
inductive Txn (κ σ δ ε : Type) (Req : Type) (Resp : Req → Type) (α : Type) where
  | running (p : Program Req Resp ε α) (s : Session κ δ Req Resp) (waiting : Option σ)
  | committed (a : α) (s : Session κ δ Req Resp)
  | aborted (e : Option ε)

def Txn.isCommitted : Txn κ σ δ ε Req Resp α → Bool
  | .committed _ _ => true
  | _ => false

/-- The transaction has nothing left to do but commit. -/
def Txn.atCommit : Txn κ σ δ ε Req Resp α → Bool
  | .running (.pure _) _ _ => true
  | _ => false

theorem Txn.isCommitted_iff {t : Txn κ σ δ ε Req Resp α} :
    t.isCommitted = true ↔ ∃ a s, t = .committed a s := by
  cases t <;> simp [isCommitted]

structure World (ι κ σ δ ε : Type) (Req : Type) (Resp : Req → Type) (α : Type) where
  committed : σ
  txns : ι → Txn κ σ δ ε Req Resp α

/-- `run i` executes the next step of transaction `i`; `fail i` makes it fail and roll back. -/
inductive Action (ι : Type) where
  | run (i : ι)
  | fail (i : ι)

namespace Store

variable (S : Store κ σ δ ε Req Resp)

def init (now : κ) : Session κ δ Req Resp := ⟨now, S.noWrites, []⟩

/-- One statement of a transaction that has the database to itself. -/
def handler (q : Req) (p : Session κ δ Req Resp × σ) :
    Except ε (Resp q) × (Session κ δ Req Resp × σ) :=
  match S.exec p.1.now p.2 p.2 p.1.writes q with
  | .ok (r, d, c) => (.ok r, (p.1.after q r d, c))
  | .error e => (.error e, p)

/-- A whole transaction with nothing in between: it commits, or rolls back with its error. -/
def serial (p : Program Req Resp ε α) (now : κ) (c : σ) : Except ε α × σ :=
  match p.eval S.handler (S.init now, c) with
  | (.ok a, (s, c')) => (.ok a, S.merge s.writes c')
  | (.error e, (_, c')) => (.error e, c')

/-- The answers a statement may get from some snapshot and some committed state. -/
def Answers (q : Req) (s : Session κ δ Req Resp) (r : Resp q) (s' : Session κ δ Req Resp) : Prop :=
  ∃ snap c d c', S.exec s.now snap c s.writes q = .ok (r, d, c') ∧ s' = s.after q r d

def Holds (t : Txn κ σ δ ε Req Resp α) (q : Req) : Bool :=
  match t with
  | .running _ s _ => S.blocks s.writes q
  | _ => false

end Store

namespace World

variable (S : Store κ σ δ ε Req Resp) [DecidableEq ι]

def Blocked (w : World ι κ σ δ ε Req Resp α) (i : ι) (q : Req) : Prop :=
  ∃ j, j ≠ i ∧ S.Holds (w.txns j) q = true

instance [Fintype ι] (w : World ι κ σ δ ε Req Resp α) (i : ι) (q : Req) :
    Decidable (w.Blocked S i q) := Fintype.decidableExistsFintype

def set (w : World ι κ σ δ ε Req Resp α) (i : ι) (t : Txn κ σ δ ε Req Resp α) (c : σ) :
    World ι κ σ δ ε Req Resp α := ⟨c, Function.update w.txns i t⟩

@[simp] theorem set_committed (w : World ι κ σ δ ε Req Resp α) (i : ι)
    (t : Txn κ σ δ ε Req Resp α) (c : σ) : (w.set i t c).committed = c := rfl

@[simp] theorem set_txns_self (w : World ι κ σ δ ε Req Resp α) (i : ι)
    (t : Txn κ σ δ ε Req Resp α) (c : σ) : (w.set i t c).txns i = t := Function.update_self ..

theorem set_txns_ne (w : World ι κ σ δ ε Req Resp α) {i j : ι} (h : j ≠ i)
    (t : Txn κ σ δ ε Req Resp α) (c : σ) : (w.set i t c).txns j = w.txns j :=
  Function.update_of_ne h ..

/-- The next statement of transaction `i`, when it is not blocked. -/
def statement (w : World ι κ σ δ ε Req Resp α) (i : ι) (s : Session κ δ Req Resp)
    (waiting : Option σ) (q : Req) (next : Resp q → Program Req Resp ε α) :
    World ι κ σ δ ε Req Resp α :=
  match S.exec s.now (waiting.getD w.committed) w.committed s.writes q with
  | .ok (r, d, c) => w.set i (.running (next r) (s.after q r d) none) c
  | .error e => w.set i (.aborted (some e)) w.committed

variable [Fintype ι]

def step (w : World ι κ σ δ ε Req Resp α) : Action ι → Option (World ι κ σ δ ε Req Resp α)
  | .fail i =>
    match w.txns i with
    | .running _ _ _ => some (w.set i (.aborted none) w.committed)
    | _ => none
  | .run i =>
    match w.txns i with
    | .running (.pure a) s _ => some (w.set i (.committed a s) (S.merge s.writes w.committed))
    | .running (.raise e) _ _ => some (w.set i (.aborted (some e)) w.committed)
    | .running (.call q next) s waiting =>
      if w.Blocked S i q then
        match waiting with
        | none => some (w.set i (.running (.call q next) s (some w.committed)) w.committed)
        | some _ => none
      else some (w.statement S i s waiting q next)
    | _ => none

theorem step_pure {w : World ι κ σ δ ε Req Resp α} {i : ι} {a : α} {s : Session κ δ Req Resp}
    {waiting : Option σ} (ht : w.txns i = .running (.pure a) s waiting) :
    w.step S (.run i) = some (w.set i (.committed a s) (S.merge s.writes w.committed)) := by
  simp only [step, ht]

/-- Everything one step can do. -/
theorem step_cases {w w' : World ι κ σ δ ε Req Resp α} {act : Action ι}
    (h : w.step S act = some w') :
    (∃ i e p s waiting, w.txns i = .running p s waiting ∧
      w' = w.set i (.aborted e) w.committed) ∨
    (∃ i q next s, act = .run i ∧ w.txns i = .running (.call q next) s none ∧ w.Blocked S i q ∧
      w' = w.set i (.running (.call q next) s (some w.committed)) w.committed) ∨
    (∃ i q next s waiting r d c, act = .run i ∧ w.txns i = .running (.call q next) s waiting ∧
      ¬ w.Blocked S i q ∧
      S.exec s.now (waiting.getD w.committed) w.committed s.writes q = .ok (r, d, c) ∧
      w' = w.set i (.running (next r) (s.after q r d) none) c) ∨
    (∃ i a s waiting, act = .run i ∧ w.txns i = .running (.pure a) s waiting ∧
      w' = w.set i (.committed a s) (S.merge s.writes w.committed)) := by
  cases act with
  | fail i =>
      simp only [step] at h
      split at h
      · next p s waiting ht => exact .inl ⟨i, none, p, s, waiting, ht, (Option.some.inj h).symm⟩
      · cases h
  | run i =>
      simp only [step] at h
      split at h
      · next a s waiting ht =>
          exact .inr (.inr (.inr ⟨i, a, s, waiting, rfl, ht, (Option.some.inj h).symm⟩))
      · next e s waiting ht =>
          exact .inl ⟨i, some e, _, s, waiting, ht, (Option.some.inj h).symm⟩
      · next q next s waiting ht =>
          by_cases hb : w.Blocked S i q
          · rw [if_pos hb] at h
            cases waiting with
            | none => exact .inr (.inl ⟨i, q, next, s, rfl, ht, hb, (Option.some.inj h).symm⟩)
            | some snap => cases h
          · rw [if_neg hb] at h
            have hw := (Option.some.inj h).symm
            unfold statement at hw
            split at hw
            · next r d c he =>
                exact .inr (.inr (.inl ⟨i, q, next, s, waiting, r, d, c, rfl, ht, hb, he, hw⟩))
            · next e he => exact .inl ⟨i, some e, _, s, waiting, ht, hw⟩
      · cases h

/-- Transaction `i` has done this much, and may be running or committed. -/
def Has (w : World ι κ σ δ ε Req Resp α) (i : ι) (s : Session κ δ Req Resp) : Prop :=
  (∃ p waiting, w.txns i = .running p s waiting) ∨ ∃ a, w.txns i = .committed a s

/-- What every statement preserves of its session holds of every transaction. -/
theorem step_session {J : ι → Session κ δ Req Resp → Prop}
    {w w' : World ι κ σ δ ε Req Resp α} {act : Action ι}
    (hJ : ∀ i s, w.Has i s → J i s) (h : w.step S act = some w')
    (hexec : ∀ i q next s waiting r d c, act = .run i →
      w.txns i = .running (.call q next) s waiting → ¬ w.Blocked S i q →
      S.exec s.now (waiting.getD w.committed) w.committed s.writes q = .ok (r, d, c) →
      J i (s.after q r d)) :
    ∀ i s, w'.Has i s → J i s := by
  have hset {i j : ι} {t : Txn κ σ δ ε Req Resp α} {c : σ} {s' : Session κ δ Req Resp}
      (hhas : (w.set i t c).Has j s')
      (hself : (∃ p waiting, t = .running p s' waiting) ∨ (∃ a, t = .committed a s') → J i s') :
      J j s' := by
    by_cases hj : j = i
    · subst hj
      unfold Has at hhas
      rw [set_txns_self] at hhas
      exact hself hhas
    · unfold Has at hhas
      rw [set_txns_ne _ hj] at hhas
      exact hJ j s' hhas
  intro j s' hhas
  obtain ⟨i, e, -, -, -, -, rfl⟩ | ⟨i, q, next, s, -, ht, -, rfl⟩ |
    ⟨i, q, next, s, waiting, r, d, c, hact, ht, hb, he, rfl⟩ | ⟨i, a, s, waiting, -, ht, rfl⟩ :=
    step_cases S h
  · exact hset hhas (by simp)
  · refine hset hhas fun hs => ?_
    obtain ⟨p, waiting, hp⟩ | ⟨a, ha⟩ := hs
    · cases hp
      exact hJ i s' (.inl ⟨_, _, ht⟩)
    · cases ha
  · refine hset hhas fun hs => ?_
    obtain ⟨p, waiting', hp⟩ | ⟨a, ha⟩ := hs
    · cases hp
      exact hexec i q next s waiting r d c hact ht hb he
    · cases ha
  · refine hset hhas fun hs => ?_
    obtain ⟨p, waiting', hp⟩ | ⟨b, hb⟩ := hs
    · cases hp
    · cases hb
      exact hJ i s' (.inl ⟨_, _, ht⟩)

/-- A transaction that has aborted stays so. -/
theorem step_aborted {w w' : World ι κ σ δ ε Req Resp α} {act : Action ι} {j : ι}
    (hj : ∃ e, w.txns j = .aborted e) (h : w.step S act = some w') :
    ∃ e, w'.txns j = .aborted e := by
  obtain ⟨e, he⟩ := hj
  have hset {i : ι} {t : Txn κ σ δ ε Req Resp α} {c : σ} (hne : j ≠ i) :
      ∃ e, (w.set i t c).txns j = .aborted e := ⟨e, by rw [set_txns_ne _ hne, he]⟩
  obtain ⟨i, e', p, s, waiting, ht, rfl⟩ | ⟨i, q, next, s, -, ht, -, rfl⟩ |
    ⟨i, q, next, s, waiting, r, d, c, -, ht, -, -, rfl⟩ | ⟨i, a, s, waiting, -, ht, rfl⟩ :=
    step_cases S h
  · exact hset fun hji => by rw [← hji, he] at ht; cases ht
  · exact hset fun hji => by rw [← hji, he] at ht; cases ht
  · exact hset fun hji => by rw [← hji, he] at ht; cases ht
  · exact hset fun hji => by rw [← hji, he] at ht; cases ht

/-- A quantity of the transactions, summed over all of them. -/
def total (w : World ι κ σ δ ε Req Resp α) (f : Txn κ σ δ ε Req Resp α → ℕ) : ℕ :=
  ∑ i, f (w.txns i)

theorem total_set (w : World ι κ σ δ ε Req Resp α) (i : ι) (t : Txn κ σ δ ε Req Resp α) (c : σ)
    (f : Txn κ σ δ ε Req Resp α → ℕ) :
    (w.set i t c).total f + f (w.txns i) = w.total f + f t := by
  have hupdate : (fun j => f ((w.set i t c).txns j)) =
      Function.update (fun j => f (w.txns j)) i (f t) := by
    funext j
    by_cases hj : j = i
    · subst hj
      rw [set_txns_self, Function.update_self]
    · rw [set_txns_ne _ hj, Function.update_of_ne hj]
  have hsplit := Finset.sum_erase_add Finset.univ (fun j => f (w.txns j)) (Finset.mem_univ i)
  have hrest := Finset.sum_update_of_mem (Finset.mem_univ i) (fun j => f (w.txns j)) (f t)
  rw [Finset.sdiff_singleton_eq_erase] at hrest
  simp only [total]
  rw [hupdate, hrest]
  omega

theorem total_set_of_eq {w : World ι κ σ δ ε Req Resp α} {i : ι} {t : Txn κ σ δ ε Req Resp α}
    {f : Txn κ σ δ ε Req Resp α → ℕ} (h : f t = f (w.txns i)) (c : σ) :
    (w.set i t c).total f = w.total f := by
  have htotal := w.total_set i t c f
  omega

end World

section Verified

variable (S : Store κ σ δ ε Req Resp)

/-- The rest of a transaction meets its preconditions and ends in its postcondition, whatever the
other transactions commit meanwhile. -/
def Txn.Verified (pre : (q : Req) → Session κ δ Req Resp → Prop)
    (post : α → Session κ δ Req Resp → Prop) : Txn κ σ δ ε Req Resp α → Prop
  | .running p s _ => p.wp S.Answers pre post s
  | .committed a s => post a s
  | .aborted _ => True

end Verified

section StepVerified

variable (S : Store κ σ δ ε Req Resp) [DecidableEq ι] [Fintype ι]
variable {pre : (q : Req) → Session κ δ Req Resp → Prop}
variable {post : ι → α → Session κ δ Req Resp → Prop} {w w' : World ι κ σ δ ε Req Resp α}

/-- Transactions stay verified, whatever the others do. -/
theorem World.step_verified {act : Action ι} (hv : ∀ i, (w.txns i).Verified S pre (post i))
    (h : w.step S act = some w') : ∀ i, (w'.txns i).Verified S pre (post i) := by
  have hset {i : ι} {t : Txn κ σ δ ε Req Resp α} {c : σ} (ht : t.Verified S pre (post i)) :
      ∀ j, ((w.set i t c).txns j).Verified S pre (post j) := by
    intro j
    by_cases hj : j = i
    · subst hj
      rwa [World.set_txns_self]
    · rw [World.set_txns_ne _ hj]
      exact hv j
  obtain ⟨i, e, -, -, -, -, rfl⟩ | ⟨i, q, next, s, -, ht, -, rfl⟩ |
    ⟨i, q, next, s, waiting, r, d, c, -, ht, -, he, rfl⟩ | ⟨i, a, s, waiting, -, ht, rfl⟩ :=
    World.step_cases S h
  · exact hset trivial
  · have hi := hv i
    rw [ht] at hi
    exact hset hi
  · have hi := hv i
    rw [ht] at hi
    exact hset (hi.2 r _ ⟨_, _, d, c, he, rfl⟩)
  · have hi := hv i
    rw [ht] at hi
    exact hset hi

end StepVerified

section Alone

variable (S : Store κ σ δ ε Req Resp) [DecidableEq ι]

/-- All transactions are about to begin, each with its program and its clock. -/
def World.start (progs : ι → Program Req Resp ε α) (now : ι → κ) (c : σ) :
    World ι κ σ δ ε Req Resp α := ⟨c, fun i => .running (progs i) (S.init (now i)) none⟩

theorem World.blocked_set (w : World ι κ σ δ ε Req Resp α) (i : ι) (t : Txn κ σ δ ε Req Resp α)
    (c : σ) (q : Req) : (w.set i t c).Blocked S i q ↔ w.Blocked S i q := by
  refine exists_congr fun j => and_congr_right fun hj => ?_
  rw [World.set_txns_ne w hj]

/-- Where the world ends when transaction `i` runs to its end without interruption. -/
def World.finish (w : World ι κ σ δ ε Req Resp α) (i : ι) :
    Except ε α × (Session κ δ Req Resp × σ) → World ι κ σ δ ε Req Resp α
  | (.ok a, (s, c)) => w.set i (.committed a s) (S.merge s.writes c)
  | (.error e, (_, c)) => w.set i (.aborted (some e)) c

theorem World.finish_set (w : World ι κ σ δ ε Req Resp α) (i : ι) (t : Txn κ σ δ ε Req Resp α)
    (c : σ) (out : Except ε α × (Session κ δ Req Resp × σ)) :
    (w.set i t c).finish S i out = w.finish S i out := by
  match out with
  | (.ok a, (s, c')) => simp only [finish, set, Function.update_idem]
  | (.error e, (s, c')) => simp only [finish, set, Function.update_idem]

/-- The uninterrupted execution of one transaction is one of the interleavings. -/
theorem World.run_alone [Fintype ι] (w : World ι κ σ δ ε Req Resp α) (i : ι)
    (p : Program Req Resp ε α) (s : Session κ δ Req Resp) (ht : w.txns i = .running p s none)
    (hfree : ∀ q, ¬ w.Blocked S i q) :
    ∃ n, run (World.step S) w (List.replicate n (.run i)) =
      some (w.finish S i (p.eval S.handler (s, w.committed))) := by
  induction p generalizing w s with
  | pure a =>
      have hstep : w.step S (.run i) = some (w.finish S i (.ok a, (s, w.committed))) := by
        simp only [step, ht, finish]
      exact ⟨1, by rw [List.replicate_one, run_cons_of_step hstep]; rfl⟩
  | raise e =>
      have hstep : w.step S (.run i) = some (w.finish S i (.error e, (s, w.committed))) := by
        simp only [step, ht, finish]
      exact ⟨1, by rw [List.replicate_one, run_cons_of_step hstep]; rfl⟩
  | call q next ih =>
      have hstep : w.step S (.run i) = some (w.statement S i s none q next) := by
        simp only [step, ht, if_neg (hfree q)]
      cases he : S.exec s.now w.committed w.committed s.writes q with
      | error e =>
          refine ⟨1, ?_⟩
          rw [List.replicate_one, run_cons_of_step hstep, run_nil]
          simp only [statement, Option.getD_none, he, Program.eval, Store.handler, finish]
      | ok out =>
          obtain ⟨r, d, c⟩ := out
          have hw : w.statement S i s none q next =
              w.set i (.running (next r) (s.after q r d) none) c := by
            simp only [statement, Option.getD_none, he]
          obtain ⟨n, hn⟩ := ih r (w.set i (.running (next r) (s.after q r d) none) c)
            (s.after q r d) (set_txns_self ..) (fun q' => by
              rw [World.blocked_set]
              exact hfree q')
          refine ⟨n + 1, ?_⟩
          rw [List.replicate_succ, run_cons_of_step hstep, hw, hn, World.finish_set]
          simp only [Program.eval, Store.handler, he, set_committed]

end Alone

end Transactional
