import Crashlens.Library.Outbox
import Crashlens.Library.Transition
import Crashlens.JsNumber
import Mathlib.Data.List.Nodup
import Mathlib.Data.List.Range

/-!
# Node transport

`transport.ts` of the Node SDK up to `close`. JavaScript runs each piece of code between two awaits
in one go, so a step is one call of `send` or one completion of `transmit` with the pass of the
drain loop that follows it. Bodies are named by the order of the sends.

The drain loop leaves the body it transmits at the head of the queue and shifts the queue when the
transmission is over, while an overflow shifts the same queue in between. The completion then
takes off a body that was never transmitted.
-/

namespace Crashlens.Node

open Transactional Outbox

/-- `sending` is the body the drain loop awaits. -/
structure Transport extends Box where
  sending : Option ℕ
deriving DecidableEq

def Transport.new : Transport := ⟨Box.empty, none⟩

section Machine

variable (maxQueue : JsNumber)

/-- `this.queue.length > this.maxQueue`, with the constructor's `Math.max(1, maxQueue)`. -/
def overfull (length : ℕ) : Bool := (JsNumber.max 1 maxQueue).lt length

def enqueue (t : Transport) : Transport := { t with toBox := t.accept (overfull maxQueue) }

/-- The head of the loop in `drain`. -/
def drainLoop (t : Transport) : Transport :=
  match t.queue with
  | [] => { t with sending := none }
  | body :: _ => { t with toBox := t.hand [body], sending := some body }

def drain (t : Transport) : Transport := if t.sending.isSome then t else drainLoop t

inductive Action where
  | send
  | transmitted

def step (t : Transport) : Action → Option Transport
  | .send => some (drain (enqueue maxQueue t))
  | .transmitted =>
    match t.sending with
    | some _ => some (drainLoop { t with toBox := t.shift, sending := none })
    | none => none

end Machine

/-- The drain loop is not running. -/
def Transport.Idle (t : Transport) : Prop := t.sending = none

/-- Every body that was not evicted was handed to `transmit` exactly once, none twice, and in the
order they were sent. -/
structure Transport.Delivers (t : Transport) : Prop where
  once : t.toBox.Delivered
  nodup : t.handed.Nodup
  sorted : t.handed.Pairwise (· < ·)

/-- The send finds room in the queue. -/
def HasRoom (maxQueue : JsNumber) (t : Transport) : Action → Prop
  | .send => overfull maxQueue (t.queue.length + 1) = false
  | .transmitted => True

instance (maxQueue : JsNumber) (t : Transport) (act : Action) :
    Decidable (HasRoom maxQueue t act) :=
  match act with
  | .send => inferInstanceAs (Decidable (overfull maxQueue (t.queue.length + 1) = false))
  | .transmitted => .isTrue trivial

section Invariants

variable {maxQueue : JsNumber} {t t' : Transport} {act : Action}

theorem one_fits (maxQueue : JsNumber) : overfull maxQueue 1 = false :=
  JsNumber.max_one_not_lt maxQueue

/-- Everything one step can do. -/
theorem step_cases (h : step maxQueue t act = some t') :
    (act = .send ∧ t' = drain (enqueue maxQueue t)) ∨
    (∃ b, act = .transmitted ∧ t.sending = some b ∧
      t' = drainLoop { t with toBox := t.shift, sending := none }) := by
  cases act with
  | send => exact .inl ⟨rfl, (Option.some.inj h).symm⟩
  | transmitted =>
      simp only [step] at h
      split at h
      · next b hb => exact .inr ⟨b, rfl, hb, (Option.some.inj h).symm⟩
      · cases h

theorem drainLoop_wf (h : t.toBox.Wf none) :
    (drainLoop t).toBox.Wf (drainLoop t).sending := by
  unfold drainLoop
  split
  · exact h
  · next body rest hq => exact h.start hq

theorem drainLoop_advances (t : Transport) : t.toBox.Advances (drainLoop t).toBox := by
  unfold drainLoop
  split
  · exact .refl _
  · next body rest hq => exact Box.advances_hand (by simp [hq])

theorem step_wf (hw : t.toBox.Wf t.sending) (h : step maxQueue t act = some t') :
    t'.toBox.Wf t'.sending := by
  obtain ⟨-, rfl⟩ | ⟨b, -, hb, rfl⟩ := step_cases h
  · have haccept : (enqueue maxQueue t).toBox.Wf t.sending := hw.accept
    by_cases hs : t.sending.isSome = true
    · have : drain (enqueue maxQueue t) = enqueue maxQueue t := if_pos hs
      rw [this]
      exact haccept
    · have hnone : t.sending = none := by simpa using hs
      have : drain (enqueue maxQueue t) = drainLoop (enqueue maxQueue t) := if_neg hs
      rw [this]
      rw [hnone] at haccept
      exact drainLoop_wf haccept
  · rw [hb] at hw
    exact drainLoop_wf hw.finish

theorem step_advances (h : step maxQueue t act = some t') : t.toBox.Advances t'.toBox := by
  obtain ⟨-, rfl⟩ | ⟨b, -, -, rfl⟩ := step_cases h
  · have haccept : t.toBox.Advances (enqueue maxQueue t).toBox := Box.advances_accept _ _
    unfold drain
    split
    · exact haccept
    · exact haccept.trans (drainLoop_advances _)
  · exact (Box.advances_shift t.toBox).trans
      (drainLoop_advances { t with toBox := t.shift, sending := none })

/-- No send has overflowed: what was handed over, then what waits, is what was sent. -/
structure Intact (t : Transport) : Prop where
  wf : t.toBox.Wf t.sending
  nothing_evicted : t.evicted = []
  idle : t.sending = none → t.queue = [] ∧ t.handed = List.range t.sent
  busy : ∀ b, t.sending = some b → ∃ rest, t.queue = b :: rest ∧
    t.handed ++ rest = List.range t.sent

theorem new_intact : Intact Transport.new :=
  ⟨Box.wf_empty, rfl, fun _ => ⟨rfl, rfl⟩, fun _ hb => by cases hb⟩

/-- The body being transmitted has been shifted out by an overflow. -/
structure Dislodged (t : Transport) : Prop where
  busy : ∃ b, t.sending = some b ∧ b ∉ t.queue
  waiting : t.queue ≠ []

theorem drainLoop_intact (hw : t.toBox.Wf none) (hev : t.evicted = [])
    (h : t.handed ++ t.queue = List.range t.sent) : Intact (drainLoop t) := by
  have hw' := drainLoop_wf hw
  unfold drainLoop at hw' ⊢
  split at hw' <;> rename_i hq
  · simp only [hq, List.append_nil] at h
    exact ⟨hw', hev, fun _ => ⟨hq, h⟩, fun _ hb => by cases hb⟩
  · next body rest =>
      refine ⟨hw', hev, fun hn => (nomatch hn), fun b hb => ?_⟩
      obtain rfl : body = b := Option.some.inj hb
      refine ⟨rest, hq, ?_⟩
      rw [hq] at h
      simpa [Box.hand] using h

theorem accept_of_room (h : overfull maxQueue (t.queue.length + 1) = false) :
    t.toBox.accept (overfull maxQueue) =
      ⟨t.queue ++ [t.sent], t.sent + 1, t.handed, t.evicted⟩ := by
  have hfits : overfull maxQueue (t.queue ++ [t.sent]).length = false := by simpa using h
  simp only [Box.accept, trim_of_fits hfits, List.append_nil]

theorem step_intact (hi : Intact t) (hroom : HasRoom maxQueue t act)
    (h : step maxQueue t act = some t') : Intact t' := by
  have hwf := step_wf hi.wf h
  obtain ⟨rfl, rfl⟩ | ⟨b, -, hb, rfl⟩ := step_cases h
  · have hbox : (enqueue maxQueue t).toBox =
        ⟨t.queue ++ [t.sent], t.sent + 1, t.handed, t.evicted⟩ := accept_of_room hroom
    cases hs : t.sending with
    | none =>
        obtain ⟨hq, hh⟩ := hi.idle hs
        have hdrain : drain (enqueue maxQueue t) = drainLoop (enqueue maxQueue t) :=
          if_neg (by simp [enqueue, hs])
        have haccept : (enqueue maxQueue t).toBox.Wf none := by
          rw [← hs]
          exact hi.wf.accept
        rw [hdrain]
        refine drainLoop_intact haccept (by rw [hbox]; exact hi.nothing_evicted) ?_
        rw [hbox, hq, hh, List.nil_append, List.range_succ]
    | some b =>
        obtain ⟨rest, hq, hh⟩ := hi.busy b hs
        have hdrain : drain (enqueue maxQueue t) = enqueue maxQueue t :=
          if_pos (by simp [enqueue, hs])
        have hsending : (enqueue maxQueue t).sending = some b := hs
        rw [hdrain] at hwf ⊢
        refine ⟨hwf, by rw [hbox]; exact hi.nothing_evicted, fun hn => ?_, fun b' hb' => ?_⟩
        · rw [hsending] at hn
          cases hn
        · obtain rfl : b = b' := Option.some.inj (hsending.symm.trans hb')
          refine ⟨rest ++ [t.sent], by rw [hbox, hq, List.cons_append], ?_⟩
          rw [hbox, ← List.append_assoc, hh, List.range_succ]
  · obtain ⟨rest, hq, hh⟩ := hi.busy b hb
    have hw := hi.wf
    rw [hb] at hw
    refine drainLoop_intact hw.finish hi.nothing_evicted ?_
    simpa [Box.shift, hq] using hh

/-- An overflow evicts the body being transmitted, and leaves the queue occupied. -/
theorem overflow_dislodges (hi : Intact t) (hfull : ¬ HasRoom maxQueue t act)
    (h : step maxQueue t act = some t') : Dislodged t' := by
  obtain ⟨rfl, rfl⟩ | ⟨b, rfl, -, -⟩ := step_cases h
  · have hover : overfull maxQueue (t.queue.length + 1) = true := by simpa [HasRoom] using hfull
    cases hs : t.sending with
    | none =>
        rw [(hi.idle hs).1, List.length_nil, one_fits] at hover
        cases hover
    | some b =>
        obtain ⟨rest, hq, -⟩ := hi.busy b hs
        have hdrain : drain (enqueue maxQueue t) = enqueue maxQueue t :=
          if_pos (by simp [enqueue, hs])
        have hb : b ∈ (trim (overfull maxQueue) (t.queue ++ [t.sent])).1 := by
          have hover' : overfull maxQueue (b :: (rest ++ [t.sent])).length = true := by
            simpa [hq] using hover
          obtain ⟨dropped, hd⟩ := trim_of_overfull hover'
          rw [hq, List.cons_append, hd]
          simp
        rw [hdrain]
        exact ⟨⟨b, hs, hi.wf.dropped_not_kept hb⟩, trim_kept_ne_nil (one_fits maxQueue) (by simp)⟩
  · exact absurd trivial hfull

/-- A dislodged body stays so until its completion takes another body off the queue. -/
theorem step_dislodged (hw : t.toBox.Wf t.sending) (hd : Dislodged t)
    (h : step maxQueue t act = some t') : Dislodged t' ∨ t'.toBox.Spoilt := by
  obtain ⟨b, hb, hout⟩ := hd.busy
  obtain ⟨rfl, rfl⟩ | ⟨b', rfl, -, rfl⟩ := step_cases h
  · have hdrain : drain (enqueue maxQueue t) = enqueue maxQueue t :=
      if_pos (by simp [enqueue, hb])
    rw [hdrain]
    refine .inl ⟨⟨b, hb, fun hk => ?_⟩, trim_kept_ne_nil (one_fits maxQueue) (by simp)⟩
    have hlt := hw.handed_lt b (hw.held_handed b hb)
    rcases List.mem_append.mp (mem_trim_kept hk) with hq | hq
    · exact hout hq
    · have := List.mem_singleton.mp hq
      omega
  · right
    refine Box.Spoilt.advances ?_ (drainLoop_advances { t with toBox := t.shift, sending := none })
    obtain ⟨c, rest, hq⟩ := List.exists_cons_of_ne_nil hd.waiting
    have hc : c ∈ t.queue := by rw [hq]; simp
    have hnot : c ∉ t.handed := by
      intro hh
      have hsame := hw.handed_queued c hc hh
      rw [hb] at hsame
      exact hout (Option.some.inj hsame ▸ hc)
    have hsorted := hw.sorted
    rw [hq] at hsorted
    refine ⟨c, hw.queue_lt c hc, fun he => hw.evicted_out c he hc, fun hr => ?_, ?_⟩
    · have hr' : c ∈ rest := by simpa [Box.shift, hq] using hr
      exact lt_irrefl c ((List.pairwise_cons.mp hsorted).1 c hr')
    · simp [Box.shift, List.count_eq_zero_of_not_mem hnot]

theorem Intact.delivers (hi : Intact t) (hidle : t.Idle) : t.Delivers := by
  obtain ⟨-, hh⟩ := hi.idle hidle
  refine ⟨fun n hn _ => ?_, hh ▸ List.nodup_range, hh ▸ List.pairwise_lt_range⟩
  rw [hh]
  exact List.count_eq_one_of_mem List.nodup_range (List.mem_range.mpr hn)

/-- Whatever is sent and completes when: a run that ends idle has handed every body it kept to
`transmit` exactly once and in order if and only if no send overflowed the queue. -/
theorem delivers_iff_no_overflow (maxQueue : JsNumber) (acts : List Action) (t : Transport)
    (h : run (step maxQueue) Transport.new acts = some t) (hidle : t.Idle) :
    t.Delivers ↔ Along (step maxQueue) (HasRoom maxQueue) Transport.new acts := by
  refine ends_well_iff_along (I := Intact)
    (J := fun t => t.toBox.Wf t.sending ∧ (Dislodged t ∨ t.toBox.Spoilt)) (E := Transport.Idle)
    (fun _ _ _ hi hroom hs => step_intact hi hroom hs)
    (fun _ _ _ hi hfull hs => ⟨step_wf hi.wf hs, .inl (overflow_dislodges hi hfull hs)⟩)
    (fun t _ _ hj hs => ⟨step_wf hj.1 hs, ?_⟩) (fun _ hi hend => hi.delivers hend)
    (fun t hj hend => ?_) new_intact h hidle
  · rcases hj.2 with hd | hspoilt
    · exact step_dislodged hj.1 hd hs
    · exact .inr (hspoilt.advances (step_advances hs))
  · rcases hj.2 with hd | hspoilt
    · obtain ⟨b, hb, -⟩ := hd.busy
      rw [Transport.Idle, hb] at hend
      cases hend
    · exact fun hg => hspoilt.not_delivered hg.once

/-- Three sends into a queue of two: the body in flight is evicted, and its completion takes the
second one, which nobody has transmitted. -/
theorem overflow_loses_unsent_body : ∃ t,
    run (step (.finite 2)) Transport.new [.send, .send, .send, .transmitted, .transmitted] =
      some t ∧ t.Idle ∧ ¬ t.Delivers := by
  refine ⟨⟨⟨[], 3, [0, 2], [0]⟩, none⟩, by decide +kernel, rfl, fun hd => ?_⟩
  have hlost := hd.once 1 (by decide) (by decide)
  simp at hlost

theorem two_sends_delivered : Transport.Delivers ⟨⟨[], 2, [0, 1], []⟩, none⟩ :=
  (delivers_iff_no_overflow (.finite 2) [.send, .send, .transmitted, .transmitted]
    ⟨⟨[], 2, [0, 1], []⟩, none⟩ (by decide +kernel) rfl).mpr (by decide +kernel)

end Invariants

end Crashlens.Node
