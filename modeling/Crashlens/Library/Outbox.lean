import Mathlib.Data.List.Basic
import Mathlib.Data.List.Count
import Mathlib.Order.Nat

/-!
# Drop-oldest outboxes

A bounded queue of numbered bodies whose sender hands over the head and takes it off the queue only
when it is done with it. `trim` is the drop-oldest loop. `Advances` is what every operation does to
the history, so that a body which is gone from the queue without having been handed over exactly
once, and was not evicted, stays so (`Spoilt.advances`).
-/

namespace Outbox

section Trim

variable {α : Type} (overfull : ℕ → Bool)

/-- `while (overfull(queue.length)) queue.shift()`: what is dropped, and what stays. -/
def trim : List α → List α × List α
  | [] => ([], [])
  | b :: q => if overfull (q.length + 1) then (b :: (trim q).1, (trim q).2) else ([], b :: q)

theorem trim_append (q : List α) : (trim overfull q).1 ++ (trim overfull q).2 = q := by
  induction q with
  | nil => rfl
  | cons b q ih =>
      by_cases h : overfull (q.length + 1) = true
      · simp [trim, h, ih]
      · simp [trim, h]

variable {overfull}

theorem trim_of_fits {q : List α} (h : overfull q.length = false) : trim overfull q = ([], q) := by
  cases q with
  | nil => rfl
  | cons b q =>
      rw [List.length_cons] at h
      simp [trim, h]

/-- An overfull queue loses its head. -/
theorem trim_of_overfull {b : α} {q : List α} (h : overfull (b :: q).length = true) :
    ∃ dropped, (trim overfull (b :: q)).1 = b :: dropped := by
  rw [List.length_cons] at h
  exact ⟨(trim overfull q).1, by simp [trim, h]⟩

theorem trim_kept_ne_nil (hone : overfull 1 = false) {q : List α} (hq : q ≠ []) :
    (trim overfull q).2 ≠ [] := by
  induction q with
  | nil => exact absurd rfl hq
  | cons b q ih =>
      by_cases h : overfull (q.length + 1) = true
      · have hne : q ≠ [] := by
          rintro rfl
          simp [hone] at h
        simpa [trim, h] using ih hne
      · simp [trim, h]

theorem mem_trim_dropped {q : List α} {n : α} (h : n ∈ (trim overfull q).1) : n ∈ q := by
  rw [← trim_append overfull q]
  exact List.mem_append_left _ h

theorem mem_trim_kept {q : List α} {n : α} (h : n ∈ (trim overfull q).2) : n ∈ q := by
  rw [← trim_append overfull q]
  exact List.mem_append_right _ h

end Trim

/-- Bodies carry the number of their `send`. The last three fields are the history: how many were
sent, which were handed over, in that order, and which the bound evicted. -/
structure Box where
  queue : List ℕ
  sent : ℕ
  handed : List ℕ
  evicted : List ℕ
deriving DecidableEq

namespace Box

def empty : Box := ⟨[], 0, [], []⟩

def accept (overfull : ℕ → Bool) (o : Box) : Box where
  queue := (trim overfull (o.queue ++ [o.sent])).2
  sent := o.sent + 1
  handed := o.handed
  evicted := o.evicted ++ (trim overfull (o.queue ++ [o.sent])).1

def hand (bodies : List ℕ) (o : Box) : Box := { o with handed := o.handed ++ bodies }

def shift (o : Box) : Box := { o with queue := o.queue.tail }

def clear (o : Box) : Box := { o with queue := [] }

/-- Every body that was not evicted was handed over exactly once. -/
def Delivered (o : Box) : Prop := ∀ n < o.sent, n ∉ o.evicted → o.handed.count n = 1

/-- Some body has left the queue, neither evicted nor handed over exactly once. -/
def Spoilt (o : Box) : Prop :=
  ∃ n < o.sent, n ∉ o.evicted ∧ n ∉ o.queue ∧ o.handed.count n ≠ 1

theorem Spoilt.not_delivered {o : Box} (h : o.Spoilt) : ¬ o.Delivered := by
  obtain ⟨n, hlt, hev, -, hcount⟩ := h
  exact fun hd => hcount (hd n hlt hev)

/-- An operation touches only queued and new bodies. -/
structure Advances (o o' : Box) : Prop where
  sent_le : o.sent ≤ o'.sent
  queue : ∀ n ∈ o'.queue, n ∈ o.queue ∨ o.sent ≤ n
  evicted : ∀ n ∈ o'.evicted, n ∈ o.evicted ∨ n ∈ o.queue ∨ o.sent ≤ n
  handed : ∃ l, o'.handed = o.handed ++ l ∧ ∀ n ∈ l, n ∈ o.queue ∨ o.sent ≤ n

section Advances

variable {o o₁ o₂ : Box}

theorem Advances.refl (o : Box) : o.Advances o :=
  ⟨le_rfl, fun _ h => .inl h, fun _ h => .inl h, [], (List.append_nil _).symm, by simp⟩

theorem Advances.trans (h : o.Advances o₁) (h' : o₁.Advances o₂) : o.Advances o₂ := by
  have hback (n : ℕ) (hn : n ∈ o₁.queue ∨ o₁.sent ≤ n) : n ∈ o.queue ∨ o.sent ≤ n := by
    rcases hn with hn | hn
    · exact h.queue n hn
    · exact .inr (h.sent_le.trans hn)
  obtain ⟨l, hl, hlq⟩ := h.handed
  obtain ⟨l', hl', hlq'⟩ := h'.handed
  refine ⟨h.sent_le.trans h'.sent_le, fun n hn => hback n (h'.queue n hn), fun n hn => ?_,
    l ++ l', by rw [hl', hl, List.append_assoc], fun n hn => ?_⟩
  · rcases h'.evicted n hn with hn | hn
    · exact h.evicted n hn
    · exact .inr (hback n hn)
  · rcases List.mem_append.mp hn with hn | hn
    · exact hlq n hn
    · exact hback n (hlq' n hn)

theorem Spoilt.advances (hs : o.Spoilt) (h : o.Advances o₁) : o₁.Spoilt := by
  obtain ⟨n, hlt, hev, hq, hcount⟩ := hs
  have hout : ¬ (n ∈ o.queue ∨ o.sent ≤ n) := by
    rintro (hn | hn)
    · exact hq hn
    · omega
  obtain ⟨l, hl, hlq⟩ := h.handed
  refine ⟨n, hlt.trans_le h.sent_le, fun hn => ?_, fun hn => hout (h.queue n hn), ?_⟩
  · rcases h.evicted n hn with hn | hn
    · exact hev hn
    · exact hout hn
  · have hnot : n ∉ l := fun hn => hout (hlq n hn)
    rw [hl, List.count_append, List.count_eq_zero_of_not_mem hnot]
    exact hcount

theorem advances_accept (overfull : ℕ → Bool) (o : Box) : o.Advances (o.accept overfull) := by
  have hpush (n : ℕ) (hn : n ∈ o.queue ++ [o.sent]) : n ∈ o.queue ∨ o.sent ≤ n := by
    rcases List.mem_append.mp hn with hn | hn
    · exact .inl hn
    · exact .inr (List.mem_singleton.mp hn).ge
  refine ⟨by simp [accept], fun n hn => hpush n (mem_trim_kept hn), fun n hn => ?_,
    [], (List.append_nil _).symm, by simp⟩
  rcases List.mem_append.mp hn with hn | hn
  · exact .inl hn
  · exact .inr (hpush n (mem_trim_dropped hn))

theorem advances_hand {bodies : List ℕ} (h : ∀ n ∈ bodies, n ∈ o.queue) :
    o.Advances (o.hand bodies) :=
  ⟨le_rfl, fun _ hn => .inl hn, fun _ hn => .inl hn, bodies, rfl, fun n hn => .inl (h n hn)⟩

theorem advances_shift (o : Box) : o.Advances o.shift :=
  ⟨le_rfl, fun _ hn => .inl (List.mem_of_mem_tail hn), fun _ hn => .inl hn,
    [], (List.append_nil _).symm, by simp⟩

theorem advances_clear (o : Box) : o.Advances o.clear :=
  ⟨le_rfl, fun n hn => by simp [clear] at hn, fun _ hn => .inl hn,
    [], (List.append_nil _).symm, by simp⟩

end Advances

/-- The queue is in sending order, and of the queued bodies only the one the sender holds, if it is
still there, has been handed over. -/
structure Wf (o : Box) (held : Option ℕ) : Prop where
  sorted : o.queue.Pairwise (· < ·)
  queue_lt : ∀ n ∈ o.queue, n < o.sent
  handed_lt : ∀ n ∈ o.handed, n < o.sent
  evicted_lt : ∀ n ∈ o.evicted, n < o.sent
  evicted_out : ∀ n ∈ o.evicted, n ∉ o.queue
  held_handed : ∀ b, held = some b → b ∈ o.handed
  handed_queued : ∀ n ∈ o.queue, n ∈ o.handed → held = some n
  held_head : ∀ b, held = some b → b ∈ o.queue → o.queue.head? = some b

theorem wf_empty : Wf empty none := by
  constructor <;> simp [empty]

section Wf

variable {o : Box} {held : Option ℕ} {overfull : ℕ → Bool}

theorem Wf.sorted_push (h : o.Wf held) : (o.queue ++ [o.sent]).Pairwise (· < ·) := by
  refine List.pairwise_append.mpr ⟨h.sorted, List.pairwise_singleton _ _, fun a ha b hb => ?_⟩
  rw [List.mem_singleton.mp hb]
  exact h.queue_lt a ha

/-- An evicted body is not kept. -/
theorem Wf.dropped_not_kept (h : o.Wf held) {n : ℕ}
    (hn : n ∈ (trim overfull (o.queue ++ [o.sent])).1) :
    n ∉ (trim overfull (o.queue ++ [o.sent])).2 := by
  have hs := h.sorted_push
  rw [← trim_append overfull (o.queue ++ [o.sent])] at hs
  intro hk
  exact lt_irrefl n ((List.pairwise_append.mp hs).2.2 n hn n hk)

theorem Wf.accept (h : o.Wf held) : (o.accept overfull).Wf held := by
  have hpush (n : ℕ) (hn : n ∈ o.queue ++ [o.sent]) : n < o.sent + 1 := by
    rcases List.mem_append.mp hn with hn | hn
    · exact (h.queue_lt n hn).trans (Nat.lt_succ_self _)
    · rw [List.mem_singleton.mp hn]
      exact Nat.lt_succ_self _
  have hold (n : ℕ) (hn : n ∈ o.queue ++ [o.sent]) (hlt : n < o.sent) : n ∈ o.queue := by
    rcases List.mem_append.mp hn with hn | hn
    · exact hn
    · rw [List.mem_singleton.mp hn] at hlt
      exact absurd hlt (lt_irrefl _)
  have hsorted := h.sorted_push
  rw [← trim_append overfull (o.queue ++ [o.sent])] at hsorted
  refine ⟨(List.pairwise_append.mp hsorted).2.1, fun n hn => hpush n (mem_trim_kept hn),
    fun n hn => (h.handed_lt n hn).trans (Nat.lt_succ_self _), fun n hn => ?_, fun n hn => ?_,
    h.held_handed, fun n hn hh => ?_, fun b hb hn => ?_⟩
  · rcases List.mem_append.mp hn with hn | hn
    · exact (h.evicted_lt n hn).trans (Nat.lt_succ_self _)
    · exact hpush n (mem_trim_dropped hn)
  · rcases List.mem_append.mp hn with hn | hn
    · exact fun hk => h.evicted_out n hn (hold n (mem_trim_kept hk) (h.evicted_lt n hn))
    · exact h.dropped_not_kept hn
  · exact h.handed_queued n (hold n (mem_trim_kept hn) (h.handed_lt n hh)) hh
  · -- the held body is the oldest, so it is kept only when nothing is dropped
    have hbq := hold b (mem_trim_kept hn) (h.handed_lt b (h.held_handed b hb))
    have hhead := h.held_head b hb hbq
    obtain ⟨rest, hrest⟩ : ∃ rest, o.queue = b :: rest := by
      cases hq : o.queue with
      | nil => simp [hq] at hhead
      | cons c rest =>
          simp only [hq, List.head?_cons, Option.some.injEq] at hhead
          exact ⟨rest, by rw [hhead]⟩
    have hnone : (trim overfull (o.queue ++ [o.sent])).1 = [] := by
      by_cases hover : overfull (o.queue ++ [o.sent]).length = true
      · rw [hrest, List.cons_append] at hover
        obtain ⟨dropped, hd⟩ := trim_of_overfull hover
        rw [← List.cons_append, ← hrest] at hd
        have hb' : b ∈ (trim overfull (o.queue ++ [o.sent])).1 := by rw [hd]; simp
        exact absurd hn (h.dropped_not_kept hb')
      · rw [trim_of_fits (by simpa using hover)]
    have happ := trim_append overfull (o.queue ++ [o.sent])
    rw [hnone, List.nil_append, hrest, List.cons_append] at happ
    simp only [Box.accept, hrest, List.cons_append, happ, List.head?_cons]

/-- The sender takes up the head of the queue. -/
theorem Wf.start {b : ℕ} {rest : List ℕ} (h : o.Wf none) (hq : o.queue = b :: rest) :
    (o.hand [b]).Wf (some b) := by
  have hmem : b ∈ o.queue := by rw [hq]; simp
  refine ⟨h.sorted, h.queue_lt, fun n hn => ?_, h.evicted_lt, h.evicted_out, fun n hn => ?_,
    fun n hn hh => ?_, fun n hn _ => ?_⟩
  · rcases List.mem_append.mp hn with hn | hn
    · exact h.handed_lt n hn
    · rw [List.mem_singleton.mp hn]
      exact h.queue_lt b hmem
  · obtain rfl : b = n := Option.some.inj hn
    simp [hand]
  · rcases List.mem_append.mp hh with hh | hh
    · cases h.handed_queued n hn hh
    · rw [List.mem_singleton.mp hh]
  · obtain rfl : b = n := Option.some.inj hn
    simp [hand, hq]

/-- The sender is done, and takes the head off the queue, whichever it is by then. -/
theorem Wf.finish {b : ℕ} (h : o.Wf (some b)) : o.shift.Wf none := by
  refine ⟨h.sorted.tail, fun n hn => h.queue_lt n (List.mem_of_mem_tail hn), h.handed_lt,
    h.evicted_lt, fun n hn hq => h.evicted_out n hn (List.mem_of_mem_tail hq), by simp,
    fun n hn hh => ?_, by simp⟩
  have hbn : b = n := Option.some.inj (h.handed_queued n (List.mem_of_mem_tail hn) hh)
  have hhead := h.held_head b rfl (hbn ▸ List.mem_of_mem_tail hn)
  have hsorted := h.sorted
  cases hq : o.queue with
  | nil => simp [shift, hq] at hn
  | cons c rest =>
      simp only [hq, List.head?_cons, Option.some.injEq] at hhead
      rw [hq] at hsorted
      have hn' : n ∈ rest := by simpa [shift, hq] using hn
      have hlt := (List.pairwise_cons.mp hsorted).1 n hn'
      omega

/-- All queued bodies are handed over at once. -/
theorem Wf.handAll (h : o.Wf held) : (o.hand o.queue).clear.Wf held := by
  refine ⟨by simp [clear], by simp [clear], fun n hn => ?_, h.evicted_lt, by simp [clear],
    fun b hb => List.mem_append_left _ (h.held_handed b hb), by simp [clear], by simp [clear]⟩
  rcases List.mem_append.mp hn with hn | hn
  · exact h.handed_lt n hn
  · exact h.queue_lt n hn

end Wf

/-- Of the bodies that were not evicted, those that wait have not been handed over and all others
have been, once. -/
def Exact (o : Box) (held : Option ℕ) : Prop :=
  ∀ n < o.sent, n ∉ o.evicted → o.handed.count n = if n ∈ o.queue ∧ held ≠ some n then 0 else 1

theorem exact_empty : Exact empty none := fun n hn => absurd hn (Nat.not_lt_zero n)

section Exact

variable {o : Box} {held : Option ℕ} {overfull : ℕ → Bool}

theorem Exact.delivered (h : o.Exact held) (hq : o.queue = []) : o.Delivered := by
  intro n hn hev
  rw [h n hn hev, hq]
  simp

theorem Exact.accept (h : o.Exact held) (hw : o.Wf held) : (o.accept overfull).Exact held := by
  intro n hn hev
  have hpush : n ∈ o.queue ++ [o.sent] ↔ n ∈ (o.accept overfull).queue := by
    constructor
    · intro hmem
      rw [← trim_append overfull (o.queue ++ [o.sent])] at hmem
      exact (List.mem_append.mp hmem).resolve_left fun hd => hev (List.mem_append_right _ hd)
    · exact fun hk => mem_trim_kept hk
  by_cases hnew : n = o.sent
  · have hmem : n ∈ (o.accept overfull).queue := hpush.mp (by simp [hnew])
    have hfree : held ≠ some n := by
      intro hb
      have hlt := hw.handed_lt n (hw.held_handed n hb)
      omega
    have hzero : n ∉ o.handed := fun hh => absurd (hw.handed_lt n hh) (by omega)
    rw [if_pos ⟨hmem, hfree⟩]
    exact List.count_eq_zero_of_not_mem hzero
  · have hold : n < o.sent := by
      have hlt : n < o.sent + 1 := hn
      omega
    have hsame : n ∈ (o.accept overfull).queue ↔ n ∈ o.queue := by
      rw [← hpush]
      simp [hnew]
    have hcount := h n hold fun he => hev (List.mem_append_left _ he)
    simp only [hsame]
    exact hcount

theorem Exact.start {b : ℕ} (h : o.Exact none) (hb : b ∈ o.queue) :
    (o.hand [b]).Exact (some b) := by
  intro n hn hev
  have hcount := h n hn hev
  by_cases hnb : n = b
  · subst hnb
    rw [if_pos ⟨hb, by simp⟩] at hcount
    simp [hand, hcount]
  · have hne : b ≠ n := fun he => hnb he.symm
    simp only [hand, List.count_append, hcount]
    simp [hne]

/-- The completion that takes its own body off the queue, or finds the queue empty. -/
theorem Exact.finish {b : ℕ} (h : o.Exact (some b)) (hw : o.Wf (some b))
    (hhead : o.queue = [] ∨ o.queue.head? = some b) : o.shift.Exact none := by
  intro n hn hev
  have hcount := h n hn hev
  rcases hhead with hq | hq
  · simpa [shift, hq] using hcount
  · have hsorted := hw.sorted
    cases hqueue : o.queue with
    | nil => simp [hqueue] at hq
    | cons c rest =>
        obtain rfl : c = b := by simpa [hqueue] using hq
        rw [hqueue] at hsorted
        have hrest := (List.pairwise_cons.mp hsorted).1
        rw [hqueue] at hcount
        by_cases hnc : n = c
        · subst hnc
          have hout : n ∉ rest := fun hmem => lt_irrefl n (hrest n hmem)
          simpa [shift, hqueue, hout] using hcount
        · have hne : c ≠ n := fun he => hnc he.symm
          simpa [shift, hqueue, hnc, hne] using hcount

/-- A completion that takes a waiting body off the queue loses it. -/
theorem Exact.spoilt_shift {b c : ℕ} (h : o.Exact (some b)) (hw : o.Wf (some b))
    (hq : o.queue.head? = some c) (hcb : c ≠ b) : o.shift.Spoilt := by
  obtain ⟨rest, hqueue⟩ : ∃ rest, o.queue = c :: rest := by
    cases hqueue : o.queue with
    | nil => simp [hqueue] at hq
    | cons d rest =>
        simp only [hqueue, List.head?_cons, Option.some.injEq] at hq
        exact ⟨rest, by rw [hq]⟩
  have hc : c ∈ o.queue := by simp [hqueue]
  have hev : c ∉ o.evicted := fun he => hw.evicted_out c he hc
  have hcount := h c (hw.queue_lt c hc) hev
  rw [if_pos ⟨hc, by simpa using hcb.symm⟩] at hcount
  have hsorted := hw.sorted
  rw [hqueue] at hsorted
  refine ⟨c, hw.queue_lt c hc, hev, fun hmem => ?_, ?_⟩
  · have hrest : c ∈ rest := by simpa [shift, hqueue] using hmem
    exact lt_irrefl c ((List.pairwise_cons.mp hsorted).1 c hrest)
  · simp [shift, hcount]

theorem Wf.count_queue (hw : o.Wf held) (n : ℕ) :
    o.queue.count n = if n ∈ o.queue then 1 else 0 := by
  have hnodup : o.queue.Nodup := hw.sorted.imp fun hab => hab.ne
  exact hnodup.count

theorem Exact.handAll (h : o.Exact held) (hw : o.Wf held)
    (hout : ∀ b, held = some b → b ∉ o.queue) :
    (o.hand o.queue).clear.Exact held := by
  intro n hn hev
  have hcount := h n hn hev
  by_cases hmem : n ∈ o.queue
  · have hfree : held ≠ some n := fun hb => hout n hb hmem
    rw [if_pos ⟨hmem, hfree⟩] at hcount
    simp [hand, clear, hcount, hw.count_queue, hmem]
  · rw [if_neg fun hc => hmem hc.1] at hcount
    simp [hand, clear, hcount, hw.count_queue, hmem]

/-- Handing over a queue that still has the held body hands that body over again. -/
theorem Exact.spoilt_handAll {b : ℕ} (h : o.Exact (some b)) (hw : o.Wf (some b))
    (hb : b ∈ o.queue) : (o.hand o.queue).clear.Spoilt := by
  have hev : b ∉ o.evicted := fun he => hw.evicted_out b he hb
  have hcount := h b (hw.queue_lt b hb) hev
  refine ⟨b, hw.queue_lt b hb, hev, by simp [clear], ?_⟩
  simp [hand, clear, hcount, hw.count_queue, hb]

end Exact

end Box

end Outbox
