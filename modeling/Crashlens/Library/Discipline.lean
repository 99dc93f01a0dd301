import Crashlens.Library.ReadCommitted

/-!
# Locking disciplines

A `Discipline` is what the locks of a store are there for: a constraint `Valid` on the committed
state, a relation `Fits` between an open transaction and the committed state, and a relation `Apart`
between the pending writes of two open transactions. Its laws speak about one statement or one
commit. `Sound` says that a world obeys the discipline, and `step_sound` that every step of every
interleaving keeps it so.
-/

namespace Transactional

variable {κ σ δ ε : Type} {Req : Type} {Resp : Req → Type} {α ι : Type}

/-- The statement `q` takes session `s` to `t` and the committed state `c` to `c'`. -/
def Store.Executes (S : Store κ σ δ ε Req Resp) (s : Session κ δ Req Resp) (snap c : σ) (q : Req)
    (t : Session κ δ Req Resp) (c' : σ) : Prop :=
  ∃ r d, S.exec s.now snap c s.writes q = .ok (r, d, c') ∧ t = s.after q r d

structure Discipline (S : Store κ σ δ ε Req Resp) (pre : (q : Req) → Session κ δ Req Resp → Prop)
    (post : ι → α → Session κ δ Req Resp → Prop) where
  Valid : σ → Prop
  Fits : Session κ δ Req Resp → σ → Prop
  Apart : δ → δ → Prop
  /-- The snapshot of a waiting statement, against the state committed by now. -/
  Seen : σ → σ → Prop
  apart_symm : ∀ {d d' : δ}, Apart d d' → Apart d' d
  init_fits : ∀ {c : σ}, Valid c → ∀ now, Fits (S.init now) c
  init_apart : ∀ d, Apart S.noWrites d
  seen_refl : ∀ {c : σ}, Valid c → Seen c c
  exec_fits : ∀ {s t : Session κ δ Req Resp} {snap c c' : σ} {q : Req},
    S.Executes s snap c q t c' → pre q s → Valid c → Seen snap c → Fits s c →
    Valid c' ∧ Fits t c'
  exec_stable : ∀ {s t s' : Session κ δ Req Resp} {snap c c' : σ} {q : Req},
    S.Executes s snap c q t c' → pre q s → Valid c → Fits s c → S.blocks s'.writes q = false →
    Fits s' c → Apart s.writes s'.writes → Fits s' c' ∧ Apart t.writes s'.writes
  exec_seen : ∀ {s t : Session κ δ Req Resp} {snap snap' c c' : σ} {q : Req},
    S.Executes s snap c q t c' → Valid c → Seen snap' c → Seen snap' c'
  commit_valid : ∀ {s : Session κ δ Req Resp} {c : σ} {i : ι} {a : α},
    post i a s → Valid c → Fits s c → Valid (S.merge s.writes c)
  commit_stable : ∀ {s s' : Session κ δ Req Resp} {c : σ},
    Valid c → Fits s c → Fits s' c → Apart s.writes s'.writes → Fits s' (S.merge s.writes c)
  commit_seen : ∀ {s : Session κ δ Req Resp} {snap c : σ},
    Valid c → Fits s c → Seen snap c → Seen snap (S.merge s.writes c)

/-- Transaction `i` is still running, with this session. -/
def World.Open (w : World ι κ σ δ ε Req Resp α) (i : ι) (s : Session κ δ Req Resp)
    (waiting : Option σ) : Prop := ∃ p, w.txns i = .running p s waiting

namespace Discipline

variable {S : Store κ σ δ ε Req Resp} {pre : (q : Req) → Session κ δ Req Resp → Prop}
  {post : ι → α → Session κ δ Req Resp → Prop}

structure Sound (D : Discipline S pre post) (w : World ι κ σ δ ε Req Resp α) : Prop where
  valid : D.Valid w.committed
  verified : ∀ i, (w.txns i).Verified S pre (post i)
  fits : ∀ i s waiting, w.Open i s waiting → D.Fits s w.committed
  seen : ∀ i s snap, w.Open i s (some snap) → D.Seen snap w.committed
  apart : ∀ i j s s' waiting waiting', i ≠ j → w.Open i s waiting → w.Open j s' waiting' →
    D.Apart s.writes s'.writes

theorem start_sound (D : Discipline S pre post) {progs : ι → Program Req Resp ε α} {now : ι → κ}
    {c : σ} (hc : D.Valid c)
    (hprogs : ∀ i, (progs i).wp S.Answers pre (post i) (S.init (now i))) :
    D.Sound (World.start S progs now c) := by
  have hopen {i : ι} {s : Session κ δ Req Resp} {waiting : Option σ}
      (h : (World.start S progs now c).Open i s waiting) : s = S.init (now i) ∧ waiting = none := by
    obtain ⟨p, hp⟩ := h
    cases hp
    exact ⟨rfl, rfl⟩
  refine ⟨hc, hprogs, fun i s waiting h => ?_, fun i s snap h => ?_, ?_⟩
  · exact (hopen h).1 ▸ D.init_fits hc (now i)
  · cases (hopen h).2
  · intro i j s s' waiting waiting' _ h _
    rw [(hopen h).1]
    exact D.init_apart _

theorem not_blocks_of_not_blocked {w : World ι κ σ δ ε Req Resp α} {i j : ι} {q : Req}
    (h : ¬ w.Blocked S i q) {s : Session κ δ Req Resp} {waiting : Option σ} (hj : j ≠ i)
    (ho : w.Open j s waiting) : S.blocks s.writes q = false := by
  obtain ⟨p, hp⟩ := ho
  cases hb : S.blocks s.writes q with
  | false => rfl
  | true => exact absurd ⟨j, hj, by rw [hp]; exact hb⟩ h

variable [DecidableEq ι]

theorem open_set {w : World ι κ σ δ ε Req Resp α} {i j : ι} {t : Txn κ σ δ ε Req Resp α} {c : σ}
    {s : Session κ δ Req Resp} {waiting : Option σ} (h : (w.set i t c).Open j s waiting) :
    (j = i ∧ ∃ p, t = .running p s waiting) ∨ (j ≠ i ∧ w.Open j s waiting) := by
  obtain ⟨p, hp⟩ := h
  by_cases hj : j = i
  · subst hj
    rw [World.set_txns_self] at hp
    exact .inl ⟨rfl, p, hp⟩
  · rw [World.set_txns_ne _ hj] at hp
    exact .inr ⟨hj, p, hp⟩

/-- Transaction `i` moves on while the others only see the committed state move. -/
theorem Sound.set {D : Discipline S pre post} {w : World ι κ σ δ ε Req Resp α} (hw : D.Sound w)
    {i : ι} {t : Txn κ σ δ ε Req Resp α} {c : σ} (hc : D.Valid c)
    (hverified : t.Verified S pre (post i))
    (hself : ∀ p s waiting, t = .running p s waiting → D.Fits s c ∧
      (∀ snap, waiting = some snap → D.Seen snap c) ∧
      ∀ j s' waiting', j ≠ i → w.Open j s' waiting' → D.Apart s.writes s'.writes)
    (hfits : ∀ j s waiting, j ≠ i → w.Open j s waiting → D.Fits s c)
    (hseen : ∀ j s snap, j ≠ i → w.Open j s (some snap) → D.Seen snap c) :
    D.Sound (w.set i t c) := by
  refine ⟨hc, fun j => ?_, fun j s waiting h => ?_, fun j s snap h => ?_, ?_⟩
  · by_cases hj : j = i
    · subst hj
      rwa [World.set_txns_self]
    · rw [World.set_txns_ne _ hj]
      exact hw.verified j
  · obtain ⟨-, p, hp⟩ | ⟨hj, h⟩ := open_set h
    · exact (hself p s waiting hp).1
    · exact hfits j s waiting hj h
  · obtain ⟨-, p, hp⟩ | ⟨hj, h⟩ := open_set h
    · exact (hself p s _ hp).2.1 snap rfl
    · exact hseen j s snap hj h
  · intro j k s s' waiting waiting' hjk h h'
    obtain ⟨rfl, p, hp⟩ | ⟨hj, ho⟩ := open_set h
    · obtain ⟨rfl, -⟩ | ⟨hk, ho'⟩ := open_set h'
      · exact absurd rfl hjk
      · exact (hself p s waiting hp).2.2 k s' waiting' hk ho'
    · obtain ⟨rfl, p, hp⟩ | ⟨hk, ho'⟩ := open_set h'
      · exact D.apart_symm ((hself p s' waiting' hp).2.2 j s waiting hj ho)
      · exact hw.apart j k s s' waiting waiting' hjk ho ho'

theorem step_sound [Fintype ι] (D : Discipline S pre post) {w w' : World ι κ σ δ ε Req Resp α}
    {act : Action ι} (hw : D.Sound w) (h : w.step S act = some w') : D.Sound w' := by
  obtain ⟨i, e, -, -, -, -, rfl⟩ | ⟨i, q, next, s, -, ht, -, rfl⟩ |
    ⟨i, q, next, s, waiting, r, d, c, -, ht, hb, he, rfl⟩ | ⟨i, a, s, waiting, -, ht, rfl⟩ :=
    World.step_cases S h
  · exact hw.set hw.valid trivial (fun p s waiting ht => by cases ht)
      (fun j s waiting _ ho => hw.fits j s waiting ho) fun j s snap _ ho => hw.seen j s snap ho
  · have ho : w.Open i s none := ⟨_, ht⟩
    have hv := hw.verified i
    rw [ht] at hv
    refine hw.set hw.valid hv (fun p s' waiting ht' => ?_)
      (fun j s waiting _ ho => hw.fits j s waiting ho) fun j s snap _ ho => hw.seen j s snap ho
    cases ht'
    refine ⟨hw.fits i s none ho, fun snap hsnap => ?_, fun j s' waiting' hj hoj => ?_⟩
    · cases hsnap
      exact D.seen_refl hw.valid
    · exact hw.apart i j s s' none waiting' hj.symm ho hoj
  · have ho : w.Open i s waiting := ⟨_, ht⟩
    have hv := hw.verified i
    rw [ht] at hv
    have hfits := hw.fits i s waiting ho
    have hseen : D.Seen (waiting.getD w.committed) w.committed := by
      cases waiting with
      | none => exact D.seen_refl hw.valid
      | some snap => exact hw.seen i s snap ho
    have hexec : S.Executes s (waiting.getD w.committed) w.committed q (s.after q r d) c :=
      ⟨r, d, he, rfl⟩
    have hstable (j : ι) (s' : Session κ δ Req Resp) (waiting' : Option σ) (hj : j ≠ i)
        (hoj : w.Open j s' waiting') : D.Fits s' c ∧ D.Apart d s'.writes :=
      D.exec_stable hexec hv.1 hw.valid hfits (not_blocks_of_not_blocked hb hj hoj)
        (hw.fits j s' waiting' hoj) (hw.apart i j s s' waiting waiting' hj.symm ho hoj)
    obtain ⟨hvalid, hfits'⟩ := D.exec_fits hexec hv.1 hw.valid hseen hfits
    refine hw.set hvalid (hv.2 r _ ⟨_, _, d, c, he, rfl⟩) (fun p s' waiting' ht' => ?_)
      (fun j s' waiting' hj hoj => (hstable j s' waiting' hj hoj).1) fun j s' snap _ hoj => ?_
    · cases ht'
      refine ⟨hfits', fun snap hsnap => ?_, fun j s' waiting' hj hoj => ?_⟩
      · cases hsnap
      · exact (hstable j s' waiting' hj hoj).2
    · exact D.exec_seen hexec hw.valid (hw.seen j s' snap hoj)
  · have ho : w.Open i s waiting := ⟨_, ht⟩
    have hv := hw.verified i
    rw [ht] at hv
    have hfits := hw.fits i s waiting ho
    refine hw.set (D.commit_valid hv hw.valid hfits) hv (fun p s' waiting' ht' => by cases ht')
      (fun j s' waiting' hj hoj => ?_) fun j s' snap _ hoj => ?_
    · exact D.commit_stable hw.valid hfits (hw.fits j s' waiting' hoj)
        (hw.apart i j s s' waiting waiting' hj.symm ho hoj)
    · exact D.commit_seen hw.valid hfits (hw.seen j s' snap hoj)

theorem run_sound [Fintype ι] (D : Discipline S pre post) {w w' : World ι κ σ δ ε Req Resp α}
    {acts : List (Action ι)} (hw : D.Sound w) (h : run (World.step S) w acts = some w') :
    D.Sound w' := run_invariant (fun _ _ _ hw h => D.step_sound hw h) hw h

end Discipline

end Transactional
