import Crashlens.Library.Outbox
import Crashlens.Library.Transition
import Crashlens.JsNumber
import Mathlib.Data.List.Nodup

/-!
# Browser transport

`transport.ts` of the browser SDK up to `close`: `send`, the synchronous `flush` of a page that goes
away, and the drain loop with its one retry after a 429. A step is one stretch of code between two
awaits. A fetch in `flush` and the beacon that stands in for it are one hand-over, and so are the
fetch of `transmit` and its beacon.

The drain loop leaves the body it works on at the head of the queue. `flush` hands over the whole
queue, that body included, and a completion shifts the queue whatever its head is by then.
-/

namespace Crashlens.Browser

open Transactional Outbox

/-- Milliseconds. -/
def maxRetryMs : ℕ := 5000

/-- Where the drain loop waits, and for which body. -/
inductive Drain where
  | idle
  | transmitting (body : ℕ)
  | waiting (body : ℕ)
  | retrying (body : ℕ)
deriving DecidableEq

def Drain.body : Drain → Option ℕ
  | idle => none
  | transmitting b | waiting b | retrying b => some b

/-- `retried` is the history of second transmissions. -/
structure Transport extends Box where
  drain : Drain
  retried : List ℕ
deriving DecidableEq

def Transport.new : Transport := ⟨Box.empty, .idle, []⟩

inductive Action where
  | send
  | flush
  | transmitted (retryAfterMs : Option ℕ)
  | delayed
deriving DecidableEq

/-- `transmit` reported a 429 whose delay the loop sits out. -/
def retries (retryAfterMs : Option ℕ) : Bool :=
  retryAfterMs.any fun ms => 0 < ms && ms ≤ maxRetryMs

section Machine

variable (maxQueue : JsNumber)

def enqueue (t : Transport) : Transport := { t with toBox := t.accept maxQueue.lt }

/-- The head of the loop in `drain`. -/
def drainLoop (t : Transport) : Transport :=
  match t.queue with
  | [] => { t with drain := .idle }
  | body :: _ => { t with toBox := t.hand [body], drain := .transmitting body }

def startDrain (t : Transport) : Transport := if t.drain = .idle then drainLoop t else t

/-- `this.queue.shift()` and round the loop. -/
def endTurn (t : Transport) : Transport := drainLoop { t with toBox := t.shift, drain := .idle }

/-- With a bound below zero the loop in `enqueue` never ends. -/
def step (t : Transport) : Action → Option Transport
  | .send => if maxQueue.lt 0 then none else some (startDrain (enqueue maxQueue t))
  | .flush => some { t with toBox := (t.hand t.queue).clear }
  | .transmitted retryAfterMs =>
    match t.drain with
    | .transmitting b =>
      if retries retryAfterMs then some { t with drain := .waiting b } else some (endTurn t)
    | .retrying _ => some (endTurn t)
    | _ => none
  | .delayed =>
    match t.drain with
    | .waiting b => some { t with drain := .retrying b, retried := t.retried ++ [b] }
    | _ => none

end Machine

def Transport.Idle (t : Transport) : Prop := t.drain = .idle

/-- Every body that was not evicted was handed over exactly once, not counting one retry. -/
structure Transport.Delivers (t : Transport) : Prop where
  once : t.toBox.Delivered
  retried : ∀ n, t.retried.count n ≤ 1

/-- The step takes the head off the queue as the drain loop's body. -/
def endsTurn (t : Transport) : Action → Bool
  | .transmitted retryAfterMs =>
    match t.drain with
    | .transmitting _ => !retries retryAfterMs
    | .retrying _ => true
    | _ => false
  | _ => false

/-- No `flush` while the body in the drain loop's hands is still queued, and no end of a turn at
which another body heads the queue. -/
structure Careful (t : Transport) (act : Action) : Prop where
  flush : act = .flush → ∀ b ∈ t.drain.body, b ∉ t.queue
  turn : endsTurn t act = true → ∀ b ∈ t.drain.body, ∀ c ∈ t.queue.head?, c = b

instance (t : Transport) (act : Action) : Decidable (Careful t act) :=
  decidable_of_iff ((act = .flush → ∀ b ∈ t.drain.body, b ∉ t.queue) ∧
      (endsTurn t act = true → ∀ b ∈ t.drain.body, ∀ c ∈ t.queue.head?, c = b))
    ⟨fun h => ⟨h.1, h.2⟩, fun h => ⟨h.flush, h.turn⟩⟩

section Invariants

variable {maxQueue : JsNumber} {t t' : Transport} {act : Action}

/-- Everything one step can do. -/
theorem step_cases (h : step maxQueue t act = some t') :
    (act = .send ∧ t' = startDrain (enqueue maxQueue t)) ∨
    (act = .flush ∧ t' = { t with toBox := (t.hand t.queue).clear }) ∨
    (∃ b, endsTurn t act = false ∧ t.drain = .transmitting b ∧ t' = { t with drain := .waiting b } ∧
      act ≠ .flush) ∨
    (∃ b, endsTurn t act = false ∧ t.drain = .waiting b ∧
      t' = { t with drain := .retrying b, retried := t.retried ++ [b] } ∧ act ≠ .flush) ∨
    (∃ b, endsTurn t act = true ∧ t.drain.body = some b ∧ t' = endTurn t ∧ act ≠ .flush) := by
  cases act with
  | send =>
      by_cases hneg : maxQueue.lt 0 = true
      · simp [step, hneg] at h
      · simp only [step, hneg] at h
        exact .inl ⟨rfl, (Option.some.inj h).symm⟩
  | flush => exact .inr (.inl ⟨rfl, (Option.some.inj h).symm⟩)
  | delayed =>
      simp only [step] at h
      split at h
      · next b hb =>
          exact .inr (.inr (.inr (.inl
            ⟨b, by simp [endsTurn], hb, (Option.some.inj h).symm, by simp⟩)))
      · cases h
  | transmitted retryAfterMs =>
      simp only [step] at h
      split at h
      · next b hb =>
          by_cases hr : retries retryAfterMs = true
          · rw [if_pos hr] at h
            exact .inr (.inr (.inl
              ⟨b, by simp [endsTurn, hb, hr], hb, (Option.some.inj h).symm, by simp⟩))
          · rw [if_neg hr] at h
            have hr' : retries retryAfterMs = false := by simpa using hr
            exact .inr (.inr (.inr (.inr
              ⟨b, by simp [endsTurn, hb, hr'], by simp [hb, Drain.body],
                (Option.some.inj h).symm, by simp⟩)))
      · next b hb =>
          exact .inr (.inr (.inr (.inr
            ⟨b, by simp [endsTurn, hb], by simp [hb, Drain.body], (Option.some.inj h).symm,
              by simp⟩)))
      · cases h

theorem drainLoop_advances (t : Transport) : t.toBox.Advances (drainLoop t).toBox := by
  unfold drainLoop
  split
  · exact .refl _
  · next body rest hq => exact Box.advances_hand (by simp [hq])

theorem endTurn_advances (t : Transport) : t.toBox.Advances (endTurn t).toBox :=
  (Box.advances_shift t.toBox).trans
    (drainLoop_advances { t with toBox := t.shift, drain := .idle })

theorem step_advances (h : step maxQueue t act = some t') : t.toBox.Advances t'.toBox := by
  obtain ⟨-, rfl⟩ | ⟨-, rfl⟩ | ⟨b, -, -, rfl, -⟩ | ⟨b, -, -, rfl, -⟩ | ⟨b, -, -, rfl, -⟩ :=
    step_cases h
  · have haccept : t.toBox.Advances (enqueue maxQueue t).toBox := Box.advances_accept _ _
    unfold startDrain
    split
    · exact haccept.trans (drainLoop_advances _)
    · exact haccept
  · exact (Box.advances_hand (fun _ hn => hn)).trans (Box.advances_clear _)
  · exact .refl _
  · exact .refl _
  · exact endTurn_advances t

/-- A body is retried at most once, after it was handed over and before its turn ends. -/
structure RetriesOnce (t : Transport) : Prop where
  handed : ∀ n ∈ t.retried, n ∈ t.handed
  nodup : t.retried.Nodup
  fresh : ∀ b, t.drain = .transmitting b ∨ t.drain = .waiting b → b ∉ t.retried

/-- What holds until a step is careless. -/
structure Sound (t : Transport) : Prop where
  wf : t.toBox.Wf t.drain.body
  exact : t.toBox.Exact t.drain.body
  retries : RetriesOnce t
  idle : t.drain = .idle → t.queue = []

theorem new_sound : Sound Transport.new :=
  ⟨Box.wf_empty, Box.exact_empty, ⟨by simp [Transport.new], by simp [Transport.new],
    by simp [Transport.new]⟩, fun _ => rfl⟩

theorem drainLoop_sound (hw : t.toBox.Wf none) (he : t.toBox.Exact none)
    (hh : ∀ n ∈ t.retried, n ∈ t.handed) (hn : t.retried.Nodup) : Sound (drainLoop t) := by
  unfold drainLoop
  split
  · next hq => exact ⟨hw, he, ⟨hh, hn, by simp⟩, fun _ => hq⟩
  · next body rest hq =>
      have hmem : body ∈ t.queue := by simp [hq]
      refine ⟨hw.start hq, he.start hmem, ⟨fun n hr => ?_, hn, fun b hb => ?_⟩, by simp⟩
      · exact List.mem_append_left _ (hh n hr)
      · obtain rfl : body = b := by simpa using hb
        exact fun hr => nomatch hw.handed_queued body hmem (hh body hr)

theorem endTurn_sound {b : ℕ} (hs : Sound t) (hb : t.drain.body = some b)
    (hhead : ∀ c ∈ t.queue.head?, c = b) : Sound (endTurn t) := by
  have hw := hs.wf
  have he := hs.exact
  rw [hb] at hw he
  have hqueue : t.queue = [] ∨ t.queue.head? = some b := by
    cases hq : t.queue with
    | nil => exact .inl rfl
    | cons c rest =>
        right
        rw [hq] at hhead
        rw [List.head?_cons, hhead c rfl]
  exact drainLoop_sound hw.finish (he.finish hw hqueue) hs.retries.handed hs.retries.nodup

theorem startDrain_sound (hw : t.toBox.Wf t.drain.body) (he : t.toBox.Exact t.drain.body)
    (hr : RetriesOnce t) : Sound (startDrain t) := by
  by_cases hidle : t.drain = .idle
  · have hstart : startDrain t = drainLoop t := if_pos hidle
    rw [hidle] at hw he
    rw [hstart]
    exact drainLoop_sound hw he hr.handed hr.nodup
  · have hstart : startDrain t = t := if_neg hidle
    rw [hstart]
    exact ⟨hw, he, hr, fun h => absurd h hidle⟩

theorem step_sound (hs : Sound t) (hc : Careful t act) (h : step maxQueue t act = some t') :
    Sound t' := by
  obtain ⟨hr, hn, hf⟩ := hs.retries
  obtain ⟨rfl, rfl⟩ | ⟨rfl, rfl⟩ | ⟨b, -, hb, rfl, -⟩ | ⟨b, -, hb, rfl, -⟩ |
    ⟨b, hend, hb, rfl, -⟩ := step_cases h
  · have hw : (enqueue maxQueue t).toBox.Wf t.drain.body := hs.wf.accept
    have he : (enqueue maxQueue t).toBox.Exact t.drain.body := hs.exact.accept hs.wf
    exact startDrain_sound hw he ⟨hr, hn, hf⟩
  · exact ⟨hs.wf.handAll, hs.exact.handAll hs.wf fun b hb => hc.flush rfl b hb,
      ⟨fun n hmem => List.mem_append_left _ (hr n hmem), hn, hf⟩, fun _ => rfl⟩
  · have hbody : t.drain.body = some b := by simp [hb, Drain.body]
    have hw := hs.wf
    have he := hs.exact
    rw [hbody] at hw he
    refine ⟨hw, he, ⟨hr, hn, fun b' hb' => ?_⟩, by simp⟩
    obtain rfl : b = b' := by simpa using hb'
    exact hf b (.inl hb)
  · have hbody : t.drain.body = some b := by simp [hb, Drain.body]
    have hw := hs.wf
    have he := hs.exact
    rw [hbody] at hw he
    have hout : b ∉ t.retried := hf b (.inr hb)
    refine ⟨hw, he, ⟨fun n hmem => ?_, ?_, by simp⟩, by simp⟩
    · rcases List.mem_append.mp hmem with hmem | hmem
      · exact hr n hmem
      · rw [List.mem_singleton.mp hmem]
        exact hw.held_handed b rfl
    · refine List.nodup_append.mpr ⟨hn, by simp, fun n hmem m hm hnm => ?_⟩
      rw [List.mem_singleton.mp hm] at hnm
      exact hout (hnm ▸ hmem)
  · exact endTurn_sound hs hb (hc.turn hend b hb)

/-- A careless step spoils the delivery of some body. -/
theorem careless_spoils (hs : Sound t) (hc : ¬ Careful t act)
    (h : step maxQueue t act = some t') : t'.toBox.Spoilt := by
  obtain ⟨rfl, rfl⟩ | ⟨rfl, rfl⟩ | ⟨b, hend, hb, rfl, hne⟩ | ⟨b, hend, hb, rfl, hne⟩ |
    ⟨b, hend, hb, rfl, hne⟩ := step_cases h
  · exact absurd ⟨by simp, by simp [endsTurn]⟩ hc
  · have hflush : ∃ b, t.drain.body = some b ∧ b ∈ t.queue := by
      by_contra! hnone
      exact hc ⟨fun _ b hb => hnone b hb, by simp [endsTurn]⟩
    obtain ⟨b, hb, hmem⟩ := hflush
    have hw := hs.wf
    have he := hs.exact
    rw [hb] at hw he
    exact he.spoilt_handAll hw hmem
  · exact absurd ⟨fun h => absurd h hne, by simp [hend]⟩ hc
  · exact absurd ⟨fun h => absurd h hne, by simp [hend]⟩ hc
  · have hhead : ∃ c, t.queue.head? = some c ∧ c ≠ b := by
      by_contra! hnone
      refine hc ⟨fun h => absurd h hne, fun _ b' hb' c hc' => ?_⟩
      obtain rfl : b = b' := Option.some.inj (hb.symm.trans hb')
      exact hnone c hc'
    obtain ⟨c, hc', hcb⟩ := hhead
    have hw := hs.wf
    have he := hs.exact
    rw [hb] at hw he
    exact (he.spoilt_shift hw hc' hcb).advances
      (drainLoop_advances { t with toBox := t.shift, drain := .idle })

theorem Sound.delivers (hs : Sound t) (hidle : t.Idle) : t.Delivers :=
  ⟨hs.exact.delivered (hs.idle hidle), fun n => List.nodup_iff_count_le_one.mp hs.retries.nodup n⟩

/-- Whatever is sent, flushed and completes when: a run that ends idle has handed over every body it
kept exactly once, one retry aside, if and only if no `flush` came while the body being transmitted
was still queued and no turn ended with another body at the head of the queue. -/
theorem delivers_iff_careful (maxQueue : JsNumber) (acts : List Action) (t : Transport)
    (h : run (step maxQueue) Transport.new acts = some t) (hidle : t.Idle) :
    t.Delivers ↔ Along (step maxQueue) Careful Transport.new acts :=
  ends_well_iff_along (I := Sound) (J := fun t => t.toBox.Spoilt) (E := Transport.Idle)
    (fun _ _ _ hs hc h => step_sound hs hc h) (fun _ _ _ hs hc h => careless_spoils hs hc h)
    (fun _ _ _ hj h => hj.advances (step_advances h)) (fun _ hs hend => hs.delivers hend)
    (fun _ hj _ hg => hj.not_delivered hg.once) new_sound h hidle

/-- The page is hidden while a body is in flight: it goes out twice. -/
theorem flush_sends_twice : ∃ t,
    run (step (.finite 30)) Transport.new [.send, .flush, .transmitted none] = some t ∧
      t.Idle ∧ ¬ t.Delivers := by
  refine ⟨⟨⟨[], 1, [0, 0], []⟩, .idle, []⟩, by decide +kernel, rfl, fun hd => ?_⟩
  have htwice := hd.once 0 (by decide) (by decide)
  simp at htwice

theorem retried_send_delivered : Transport.Delivers ⟨⟨[], 1, [0], []⟩, .idle, [0]⟩ :=
  (delivers_iff_careful (.finite 30) [.send, .transmitted (some 1000), .delayed, .transmitted none]
    ⟨⟨[], 1, [0], []⟩, .idle, [0]⟩ (by decide +kernel) rfl).mpr (by decide +kernel)

end Invariants

end Crashlens.Browser
