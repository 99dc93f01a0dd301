import Crashlens.Library.Transition
import Mathlib.Logic.Function.Basic
import Mathlib.Data.Int.Basic
import Mathlib.Data.List.Count

/-!
# Python transport

`_transport.py`: any number of threads call `submit`, `flush` and `close` while one worker drains
the queue. Each section under the condition's lock and each queue operation is one step; so is the
test of `_closed` at the head of `submit` and `close`, which takes no lock.

`_pending` is raised with each put and lowered by the worker. The sentinel branch of `close` takes
an item off a full queue without lowering it, and a `submit` that tested `_closed` in time may put
its event behind the sentinel, where the worker never looks.
-/

namespace Crashlens.Python

open Transactional

inductive Item (ε : Type) where
  | event (envelope : ε)
  | shutdown
deriving DecidableEq

def Item.isEvent {ε : Type} : Item ε → Bool
  | event _ => true
  | shutdown => false

/-- Where a thread of the application is within a call. -/
inductive Thread (ε : Type) where
  | ready
  | submitting (envelope : ε)
  | flushing
  | settingClosed
  | closeFlushing
  | puttingShutdown
  | makingRoom
  | puttingAgain
deriving DecidableEq

/-- The queue, the counter and the worker. -/
structure Core (ε : Type) where
  queue : List (Item ε)
  pending : ℤ
  inHands : Option ε
  exited : Bool

structure Transport (ι ε : Type) extends Core ε where
  closed : Bool
  threads : ι → Thread ε

inductive Action (ι ε : Type) where
  | submit (i : ι) (envelope : ε)
  | put (i : ι)
  | flush (i : ι)
  /-- The loop of `flush` looks at `_pending`, before or after the deadline. -/
  | poll (i : ι) (late : Bool)
  | close (i : ι)
  | setClosed (i : ι)
  | putShutdown (i : ι)
  | makeRoom (i : ι)
  | putShutdownAgain (i : ι)
  | get
  | settle
deriving DecidableEq

section Machine

variable {ι ε : Type} [DecidableEq ι] (maxsize : ℤ)

def Transport.new : Transport ι ε := ⟨⟨[], 0, none, false⟩, false, fun _ => .ready⟩

/-- `queue.Queue` raises `Full` at `maxsize` items; a size of zero or less is no bound. -/
def full (queue : List (Item ε)) : Bool := 0 < maxsize && maxsize ≤ queue.length

def Transport.goto (t : Transport ι ε) (i : ι) (th : Thread ε) : Transport ι ε :=
  { t with threads := Function.update t.threads i th }

/-- What `flush` returns on looking at `_pending`, if it does not wait on. -/
def flushResult (pending : ℤ) (late : Bool) : Option Bool :=
  if 0 < pending then (if late then some false else none) else some true

def step (t : Transport ι ε) : Action ι ε → Option (Transport ι ε)
  | .submit i envelope =>
    match t.threads i with
    | .ready => some (if t.closed then t else t.goto i (.submitting envelope))
    | _ => none
  | .put i =>
    match t.threads i with
    | .submitting envelope =>
      some (if full maxsize t.queue then t.goto i .ready
        else { t.goto i .ready with
          queue := t.queue ++ [.event envelope], pending := t.pending + 1 })
    | _ => none
  | .flush i =>
    match t.threads i with
    | .ready => some (t.goto i .flushing)
    | _ => none
  | .poll i late =>
    match t.threads i with
    | .flushing => some (if (flushResult t.pending late).isSome then t.goto i .ready else t)
    | .closeFlushing =>
      some (if (flushResult t.pending late).isSome then t.goto i .puttingShutdown else t)
    | _ => none
  | .close i =>
    match t.threads i with
    | .ready => some (if t.closed then t else t.goto i .settingClosed)
    | _ => none
  | .setClosed i =>
    match t.threads i with
    | .settingClosed => some { t.goto i .closeFlushing with closed := true }
    | _ => none
  | .putShutdown i =>
    match t.threads i with
    | .puttingShutdown =>
      some (if full maxsize t.queue then t.goto i .makingRoom
        else { t.goto i .ready with queue := t.queue ++ [.shutdown] })
    | _ => none
  | .makeRoom i =>
    match t.threads i with
    | .makingRoom => some { t.goto i .puttingAgain with queue := t.queue.tail }
    | _ => none
  | .putShutdownAgain i =>
    match t.threads i with
    | .puttingAgain =>
      some (if full maxsize t.queue then t.goto i .ready
        else { t.goto i .ready with queue := t.queue ++ [.shutdown] })
    | _ => none
  | .get =>
    if t.exited || t.inHands.isSome then none
    else
      match t.queue with
      | [] => none
      | .shutdown :: rest => some { t with queue := rest, exited := true }
      | .event envelope :: rest => some { t with queue := rest, inHands := some envelope }
  | .settle =>
    match t.inHands with
    | some _ => some { t with inHands := none, pending := t.pending - 1 }
    | none => none

end Machine

section Properties

variable {ι ε : Type}

def events (queue : List (Item ε)) : ℕ := queue.countP Item.isEvent

/-- Accepted events that are neither sent nor given up. -/
def Core.outstanding (c : Core ε) : ℤ := events c.queue + if c.inHands.isSome then 1 else 0

def Core.PendingExact (c : Core ε) : Prop := c.pending = c.outstanding

/-- The worker leaves no event behind. -/
def Core.ExitsEmpty (c : Core ε) : Prop := c.exited = true → events c.queue = 0

/-- A `flush` that returns tells whether an accepted event is outstanding. -/
def FlushExact (t : Transport ι ε) : Action ι ε → Prop
  | .poll _ late => ∀ r ∈ flushResult t.pending late, r = true ↔ t.outstanding = 0
  | _ => True

/-- The sentinel branch of `close` does not take an event off the queue. -/
def KeepsEvents (c : Core ε) : Action ι ε → Prop
  | .makeRoom _ => ∀ item ∈ c.queue.head?, item.isEvent = false
  | _ => True

/-- No event is accepted once a sentinel is in the queue or has stopped the worker. -/
def PutsInTime (maxsize : ℤ) (t : Transport ι ε) : Action ι ε → Prop
  | .put _ => full maxsize t.queue = false →
      t.exited = false ∧ ∀ item ∈ t.queue, item.isEvent = true
  | _ => True

instance (c : Core ε) (act : Action ι ε) : Decidable (KeepsEvents c act) :=
  match act with
  | .makeRoom _ => inferInstanceAs (Decidable (∀ item ∈ c.queue.head?, item.isEvent = false))
  | .submit _ _ | .put _ | .flush _ | .poll _ _ | .close _ | .setClosed _ | .putShutdown _
  | .putShutdownAgain _ | .get | .settle => .isTrue trivial

end Properties

section Effects

variable {ι ε : Type}

/-- What a step does to the queue, the counter and the worker. -/
inductive Effect (maxsize : ℤ) (act : Action ι ε) (c : Core ε) : Core ε → Prop where
  | nothing : Effect maxsize act c c
  | accept (i : ι) (envelope : ε) (hact : act = .put i) (room : full maxsize c.queue = false) :
      Effect maxsize act c
        { c with queue := c.queue ++ [.event envelope], pending := c.pending + 1 }
  | signal : Effect maxsize act c { c with queue := c.queue ++ [.shutdown] }
  | discard (i : ι) (hact : act = .makeRoom i) :
      Effect maxsize act c { c with queue := c.queue.tail }
  | stop (rest : List (Item ε)) (hq : c.queue = .shutdown :: rest) :
      Effect maxsize act c { c with queue := rest, exited := true }
  | take (envelope : ε) (rest : List (Item ε)) (hq : c.queue = .event envelope :: rest)
      (running : c.exited = false) (free : c.inHands = none) :
      Effect maxsize act c { c with queue := rest, inHands := some envelope }
  | settle (envelope : ε) (held : c.inHands = some envelope) :
      Effect maxsize act c { c with inHands := none, pending := c.pending - 1 }

variable {maxsize : ℤ} {act : Action ι ε}

/-- How far `_pending` is above the events it should count. -/
def Core.surplus (c : Core ε) : ℤ := c.pending - c.outstanding

theorem surplus_eq_zero_iff {c : Core ε} : c.surplus = 0 ↔ c.PendingExact := by
  unfold Core.surplus Core.PendingExact
  omega

@[simp] theorem events_nil : events ([] : List (Item ε)) = 0 := rfl

@[simp] theorem events_append (q q' : List (Item ε)) : events (q ++ q') = events q + events q' :=
  List.countP_append

@[simp] theorem events_event (envelope : ε) (q : List (Item ε)) :
    events (.event envelope :: q) = events q + 1 :=
  List.countP_cons_of_pos (p := Item.isEvent) rfl

@[simp] theorem events_shutdown (q : List (Item ε)) : events (.shutdown :: q) = events q := by
  simp [events, Item.isEvent]

section Surplus

variable {c c' : Core ε}

/-- Discarding the head of the queue leaves the counter above by the events in it. -/
theorem surplus_discard (c : Core ε) : ({ c with queue := c.queue.tail } : Core ε).surplus =
    c.surplus + (events c.queue - events c.queue.tail) := by
  simp only [Core.surplus, Core.outstanding]
  omega

theorem events_tail_of_keeps (h : ∀ item ∈ c.queue.head?, item.isEvent = false) :
    events c.queue.tail = events c.queue := by
  cases hq : c.queue with
  | nil => rfl
  | cons item rest =>
      rw [hq] at h
      cases item with
      | event envelope => exact absurd (h _ rfl) (by simp [Item.isEvent])
      | shutdown => simp

theorem events_tail_le (q : List (Item ε)) : events q.tail ≤ events q := by
  cases q with
  | nil => exact le_rfl
  | cons item rest => cases item <;> simp

/-- The other steps keep the counter as far out as it was. -/
theorem Effect.surplus_le (h : Effect maxsize act c c') :
    c.surplus ≤ c'.surplus ∧ (KeepsEvents c act → c'.surplus = c.surplus) := by
  have hsame (heq : c'.surplus = c.surplus) :
      c.surplus ≤ c'.surplus ∧ (KeepsEvents c act → c'.surplus = c.surplus) :=
    ⟨by omega, fun _ => heq⟩
  cases h with
  | nothing => exact hsame rfl
  | accept i envelope hact room =>
      refine hsame ?_
      simp only [Core.surplus, Core.outstanding, events_append, events_event, events_nil]
      omega
  | signal =>
      refine hsame ?_
      simp only [Core.surplus, Core.outstanding, events_append, events_shutdown, events_nil]
      omega
  | discard i hact =>
      have hle := events_tail_le c.queue
      rw [surplus_discard]
      refine ⟨by omega, fun hkeeps => ?_⟩
      rw [hact] at hkeeps
      have heq := events_tail_of_keeps hkeeps
      omega
  | stop rest hq =>
      refine hsame ?_
      simp only [Core.surplus, Core.outstanding, hq, events_shutdown]
  | take envelope rest hq running free =>
      refine hsame ?_
      simp only [Core.surplus, Core.outstanding, hq, free, events_event, Option.isSome_some,
        Option.isSome_none, Bool.false_eq_true, if_true, if_false]
      omega
  | settle envelope held =>
      refine hsame ?_
      simp only [Core.surplus, Core.outstanding, held, Option.isSome_some, Option.isSome_none,
        Bool.false_eq_true, if_true, if_false]
      omega

end Surplus

section Order

variable {c c' : Core ε}

/-- No event waits behind a sentinel, and none at all once the worker has stopped. -/
structure Ordered (c : Core ε) : Prop where
  before : c.queue.Pairwise fun a b => b.isEvent = true → a.isEvent = true
  stopped : c.exited = true → ∀ item ∈ c.queue, item.isEvent = false

theorem Effect.ordered (ho : Ordered c) (hput : ∀ i, act = .put i →
    full maxsize c.queue = false → c.exited = false ∧ ∀ item ∈ c.queue, item.isEvent = true)
    (h : Effect maxsize act c c') : Ordered c' := by
  cases h with
  | nothing => exact ho
  | accept i envelope hact room =>
      obtain ⟨hrunning, hevents⟩ := hput i hact room
      refine ⟨List.pairwise_append.mpr ⟨ho.before, List.pairwise_singleton _ _, ?_⟩, ?_⟩
      · exact fun a ha _ _ _ => hevents a ha
      · intro hexited
        rw [hrunning] at hexited
        cases hexited
  | signal =>
      refine ⟨List.pairwise_append.mpr ⟨ho.before, List.pairwise_singleton _ _, ?_⟩, ?_⟩
      · intro a _ b hb hevent
        rw [List.mem_singleton.mp hb] at hevent
        cases hevent
      · intro hexited item hmem
        rcases List.mem_append.mp hmem with hmem | hmem
        · exact ho.stopped hexited item hmem
        · rw [List.mem_singleton.mp hmem]
          rfl
  | discard i hact =>
      exact ⟨ho.before.tail, fun hexited item hmem =>
        ho.stopped hexited item (List.mem_of_mem_tail hmem)⟩
  | stop rest hq =>
      have hbefore := ho.before
      rw [hq] at hbefore
      obtain ⟨hfirst, hrest⟩ := List.pairwise_cons.mp hbefore
      refine ⟨hrest, fun _ item hmem => ?_⟩
      by_contra hevent
      exact absurd (hfirst item hmem (by simpa using hevent)) (by simp [Item.isEvent])
  | take envelope rest hq running free =>
      have hbefore := ho.before
      rw [hq] at hbefore
      refine ⟨(List.pairwise_cons.mp hbefore).2, fun hexited => ?_⟩
      rw [running] at hexited
      cases hexited
  | settle envelope held => exact ⟨ho.before, ho.stopped⟩

theorem Ordered.exitsEmpty (ho : Ordered c) : c.ExitsEmpty := by
  intro hexited
  refine List.countP_eq_zero.mpr fun item hmem => ?_
  simp [ho.stopped hexited item hmem]

end Order

section Runs

variable {t t' : Transport ι ε}

theorem new_surplus : (Transport.new : Transport ι ε).surplus = 0 := rfl

theorem new_ordered : Ordered (Transport.new : Transport ι ε).toCore :=
  ⟨List.Pairwise.nil, by simp [Transport.new]⟩

theorem flushExact_of_surplus (ht : t.surplus = 0) : FlushExact t act := by
  cases act with
  | poll i late =>
      intro r hr
      have hexact := surplus_eq_zero_iff.mp ht
      unfold Core.PendingExact at hexact
      have hnonneg : 0 ≤ t.outstanding := by
        unfold Core.outstanding
        split <;> omega
      unfold flushResult at hr
      by_cases hpos : 0 < t.pending
      · rw [if_pos hpos] at hr
        cases late with
        | false => simp at hr
        | true =>
            obtain rfl : false = r := by simpa using hr
            simp only [Bool.false_eq_true, false_iff]
            omega
      · rw [if_neg hpos] at hr
        obtain rfl : true = r := by simpa using hr
        simp only [true_iff]
        omega
  | submit | put | flush | close | setClosed | makeRoom | putShutdown | putShutdownAgain | get
  | settle => trivial

variable [DecidableEq ι]

/-- Everything one step can do. -/
theorem step_effect (h : step maxsize t act = some t') :
    Effect maxsize act t.toCore t'.toCore := by
  have hsame (ht : t'.toCore = t.toCore) : Effect maxsize act t.toCore t'.toCore := ht ▸ .nothing
  -- A call that only moves on, whichever way it goes.
  have hmove {c : Prop} [Decidable c] {t₁ t₂ : Transport ι ε}
      (ht : some (if c then t₁ else t₂) = some t') (h₁ : t₁.toCore = t.toCore)
      (h₂ : t₂.toCore = t.toCore) : Effect maxsize act t.toCore t'.toCore := by
    rw [Option.some.injEq] at ht
    by_cases hc : c
    · rw [if_pos hc] at ht
      exact hsame (ht ▸ h₁)
    · rw [if_neg hc] at ht
      exact hsame (ht ▸ h₂)
  have hsignal (i : ι) (th : Thread ε) (ht : some (if full maxsize t.queue then t.goto i th
      else { t.goto i .ready with queue := t.queue ++ [.shutdown] }) = some t') :
      Effect maxsize act t.toCore t'.toCore := by
    by_cases hfull : full maxsize t.queue = true
    · rw [if_pos hfull] at ht
      exact hsame ((Option.some.inj ht) ▸ rfl)
    · rw [if_neg hfull] at ht
      exact (Option.some.inj ht) ▸ .signal
  cases act with
  | put i =>
      simp only [step] at h
      split at h
      · next envelope _ =>
          by_cases hfull : full maxsize t.queue = true
          · rw [if_pos hfull] at h
            exact hsame ((Option.some.inj h) ▸ rfl)
          · rw [if_neg hfull] at h
            exact (Option.some.inj h) ▸ .accept i envelope rfl (by simpa using hfull)
      · cases h
  | makeRoom i =>
      simp only [step] at h
      split at h
      · exact (Option.some.inj h) ▸ .discard i rfl
      · cases h
  | putShutdown i =>
      simp only [step] at h
      split at h
      · exact hsignal i .makingRoom h
      · cases h
  | putShutdownAgain i =>
      simp only [step] at h
      split at h
      · exact hsignal i .ready h
      · cases h
  | submit i envelope =>
      simp only [step] at h
      split at h
      · exact hmove h rfl rfl
      · cases h
  | close i =>
      simp only [step] at h
      split at h
      · exact hmove h rfl rfl
      · cases h
  | flush i =>
      simp only [step] at h
      split at h
      · exact hsame ((Option.some.inj h) ▸ rfl)
      · cases h
  | poll i late =>
      simp only [step] at h
      split at h
      · exact hmove h rfl rfl
      · exact hmove h rfl rfl
      · cases h
  | setClosed i =>
      simp only [step] at h
      split at h
      · exact hsame ((Option.some.inj h) ▸ rfl)
      · cases h
  | get =>
      simp only [step] at h
      by_cases hbusy : (t.exited || t.inHands.isSome) = true
      · rw [if_pos hbusy] at h
        cases h
      · rw [if_neg hbusy] at h
        simp only [Bool.or_eq_true, not_or, Bool.not_eq_true, Option.isSome_eq_false_iff,
          Option.isNone_iff_eq_none] at hbusy
        split at h
        · cases h
        · next rest hq => exact (Option.some.inj h) ▸ .stop rest hq
        · next envelope rest hq =>
            exact (Option.some.inj h) ▸ .take envelope rest hq hbusy.1 hbusy.2
  | settle =>
      simp only [step] at h
      split at h
      · next envelope hheld => exact (Option.some.inj h) ▸ .settle envelope hheld
      · cases h

theorem surplus_of_not_keeps (hkeeps : ¬ KeepsEvents t.toCore act)
    (h : step maxsize t act = some t') : t'.surplus = t.surplus + 1 := by
  cases act with
  | makeRoom i =>
      have hcore : t'.toCore = { t.toCore with queue := t.queue.tail } := by
        simp only [step] at h
        split at h
        · exact (Option.some.inj h) ▸ rfl
        · cases h
      rw [hcore, surplus_discard]
      cases hq : t.queue with
      | nil => exact absurd (by simp [KeepsEvents, hq]) hkeeps
      | cons item rest =>
          cases item with
          | event envelope =>
              simp only [List.tail_cons, events_event]
              omega
          | shutdown => exact absurd (by simp [KeepsEvents, hq, Item.isEvent]) hkeeps
  | submit | put | flush | poll | close | setClosed | putShutdown | putShutdownAgain | get
  | settle => exact absurd trivial hkeeps

/-- Whatever the threads do: `_pending` counts the accepted events that are queued or in the
worker's hands if and only if no sentinel branch has discarded an event; as long as none does, every
`flush` tells the truth; and the worker leaves no event behind if none was accepted after a
sentinel. -/
theorem pending_exact (maxsize : ℤ) (acts : List (Action ι ε)) (t : Transport ι ε)
    (h : run (step maxsize) Transport.new acts = some t) :
    (t.PendingExact ↔
      Along (step maxsize) (fun t => KeepsEvents t.toCore) Transport.new acts) ∧
    (Along (step maxsize) (fun t => KeepsEvents t.toCore) Transport.new acts →
      Along (step maxsize) FlushExact Transport.new acts) ∧
    (Along (step maxsize) (PutsInTime maxsize) Transport.new acts → t.ExitsEmpty) := by
  have hkeep (s : Transport ι ε) (a : Action ι ε) (s' : Transport ι ε) (hs : s.surplus = 0)
      (hk : KeepsEvents s.toCore a) (hstep : step maxsize s a = some s') : s'.surplus = 0 :=
    ((step_effect hstep).surplus_le.2 hk).trans hs
  refine ⟨?_, ?_, ?_⟩
  · refine ends_well_iff_along (I := fun t => t.surplus = 0) (J := fun t => 0 < t.surplus)
      (E := fun _ => True) hkeep (fun s a s' hs hk hstep => ?_) (fun s a s' hs hstep => ?_)
      (fun s hs _ => surplus_eq_zero_iff.mp hs) (fun s hs _ hexact => ?_) new_surplus h trivial
    · have hone := surplus_of_not_keeps hk hstep
      omega
    · have hle := (step_effect hstep).surplus_le.1
      omega
    · have hzero := surplus_eq_zero_iff.mpr hexact
      omega
  · exact along_of_along hkeep (fun _ _ hs _ => flushExact_of_surplus hs) new_surplus
  · intro htime
    refine (run_invariant_of_along (I := fun t => Ordered t.toCore) (fun s a s' hs hput hstep => ?_)
      new_ordered htime h).exitsEmpty
    refine (step_effect hstep).ordered hs fun i hact hroom => ?_
    rw [hact] at hput
    exact hput hroom

/-- One event is in the worker's hands and one fills the queue when `close` gives up waiting. -/
def closeOnFull : List (Action Bool ℕ) :=
  [.submit false 1, .put false, .get, .submit false 2, .put false, .close true, .setClosed true,
    .poll true true, .putShutdown true, .makeRoom true, .putShutdownAgain true]

/-- A `submit` passes its test of `_closed`, and the worker is stopped before it puts the event. -/
def lateSubmit : List (Action Bool ℕ) :=
  [.submit false 1, .close true, .setClosed true, .poll true false, .putShutdown true, .get,
    .put false]

theorem close_loses_events :
    (∃ t, run (step 1) Transport.new closeOnFull = some t ∧ ¬ t.PendingExact) ∧
    (∃ t, run (step 1) Transport.new lateSubmit = some t ∧ ¬ t.ExitsEmpty) := by
  refine ⟨⟨_, rfl, ?_⟩, ⟨_, rfl, ?_⟩⟩
  · unfold Core.PendingExact
    decide
  · unfold Core.ExitsEmpty
    decide

def submitAndClose : List (Action Bool ℕ) :=
  [.submit false 1, .put false, .get, .settle, .close true, .setClosed true, .poll true false,
    .putShutdown true, .get]

theorem submit_and_close_exact :
    ∃ t, run (step 1) Transport.new submitAndClose = some t ∧ t.PendingExact :=
  ⟨_, rfl, (pending_exact 1 submitAndClose _ rfl).1.mpr (by decide)⟩

end Runs

end Effects

end Crashlens.Python
