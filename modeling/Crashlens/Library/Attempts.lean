import Crashlens.Library.Serial

/-!
# Interrupted transactions and repeated attempts

`Store.interrupt` is what a transaction on its own leaves behind when it is broken off at a point it
comes to. `attempts` is the record of a job that is run up to a number of times, again after each
result that asks for it; `weather` says what each attempt meets.
-/

namespace Transactional

section Interrupt

variable {κ σ δ ε : Type} {Req : Type} {Resp : Req → Type} {α π : Type}

/-- Execution up to the `n`-th request, counted from zero, which is not answered. -/
def Program.evalUntil (handler : (q : Req) → π → Except ε (Resp q) × π) :
    Program Req Resp ε α → ℕ → π → Option π
  | .pure _, _, _ => none
  | .raise _, _, _ => none
  | .call _ _, 0, s => some s
  | .call q next, n + 1, s =>
    match handler q s with
    | (.ok r, s') => evalUntil handler (next r) n s'
    | (.error _, _) => none

/-- Where a transaction can be broken off: as it opens, at one of its statements, or at its commit,
which may have landed all the same. -/
inductive Point where
  | opening
  | statement (n : ℕ)
  | commit (landed : Bool)

namespace Store

variable (S : Store κ σ δ ε Req Resp)

/-- The state left behind, when the transaction comes to the point. -/
def interrupt (p : Program Req Resp ε α) (now : κ) (c : σ) : Point → Option σ
  | .opening => some c
  | .statement n => (p.evalUntil S.handler n (S.init now, c)).map Prod.snd
  | .commit landed =>
    match p.eval S.handler (S.init now, c) with
    | (.ok _, (s, c')) => some (if landed then S.merge s.writes c' else c')
    | (.error _, _) => none

variable {S} {I : σ → Prop} {c c' : σ} {now : κ} {p : Program Req Resp ε α}

theorem evalUntil_invariant {s s' : Session κ δ Req Resp} {n : ℕ}
    (hexec : ∀ (s : Session κ δ Req Resp) q r d c c',
      S.exec s.now c c s.writes q = .ok (r, d, c') → I c → I c')
    (h : p.evalUntil S.handler n (s, c) = some (s', c')) (hc : I c) : I c' := by
  induction p generalizing s c n with
  | pure a => cases h
  | raise e => cases h
  | call q next ih =>
      cases n with
      | zero =>
          cases h
          exact hc
      | succ n =>
          cases hq : S.exec s.now c c s.writes q with
          | ok out =>
              obtain ⟨r, d, c₁⟩ := out
              simp only [Program.evalUntil, handler, hq] at h
              exact ih r h (hexec s q r d c c₁ hq hc)
          | error e =>
              simp only [Program.evalUntil, handler, hq] at h
              cases h

/-- What every statement and every commit preserves, a whole transaction does. -/
theorem serial_invariant
    (hexec : ∀ (s : Session κ δ Req Resp) q r d c c',
      S.exec s.now c c s.writes q = .ok (r, d, c') → I c → I c')
    (hmerge : ∀ d c, I c → I (S.merge d c)) (hc : I c) : I (S.serial p now c).2 := by
  unfold serial
  split
  · next a s c₁ he => exact hmerge s.writes c₁ (eval_invariant hexec he hc)
  · next e s c₁ he => exact eval_invariant hexec he hc

theorem interrupt_invariant {point : Point}
    (hexec : ∀ (s : Session κ δ Req Resp) q r d c c',
      S.exec s.now c c s.writes q = .ok (r, d, c') → I c → I c')
    (hmerge : ∀ d c, I c → I (S.merge d c)) (h : S.interrupt p now c point = some c')
    (hc : I c) : I c' := by
  cases point with
  | opening =>
      cases h
      exact hc
  | statement n =>
      obtain ⟨⟨s, c₁⟩, hs, rfl⟩ := Option.map_eq_some_iff.mp h
      exact evalUntil_invariant hexec hs hc
  | commit landed =>
      simp only [interrupt] at h
      split at h
      · next a s c₁ he =>
          have hc₁ := eval_invariant hexec he hc
          cases h
          cases landed with
          | true => exact hmerge s.writes c₁ hc₁
          | false => exact hc₁
      · cases h

end Store

end Interrupt

section Attempts

/-- One attempt at a job: what it met, the state it found, its result and the state it left. -/
structure Attempt (ω σ ρ : Type) where
  weather : ω
  before : σ
  result : ρ
  after : σ

variable {ω σ ρ : Type} (meanwhile : ω → σ → σ) (attempt : ω → σ → ρ × σ) (again : ρ → Bool)
  (weather : ℕ → ω)

/-- The attempts made from the `i`-th on with `tries` left; `meanwhile` happens before each. -/
def attempts : ℕ → ℕ → σ → List (Attempt ω σ ρ)
  | 0, _, _ => []
  | tries + 1, i, s =>
    let before := meanwhile (weather i) s
    let out := attempt (weather i) before
    ⟨weather i, before, out.1, out.2⟩ :: if again out.1 then attempts tries (i + 1) out.2 else []

/-- The state after the last of the attempts. -/
def endState : σ → List (Attempt ω σ ρ) → σ
  | s, [] => s
  | _, a :: log => endState a.after log

variable {meanwhile attempt again weather} {tries i : ℕ} {s : σ}

theorem attempts_made {a : Attempt ω σ ρ}
    (h : a ∈ attempts meanwhile attempt again weather tries i s) :
    (a.result, a.after) = attempt a.weather a.before := by
  induction tries generalizing i s with
  | zero => cases h
  | succ tries ih =>
      rw [attempts] at h
      rcases List.mem_cons.mp h with rfl | h
      · rfl
      · split_ifs at h
        · exact ih h
        · cases h

/-- Another attempt follows when the result asks for it and a try is left, and only then. -/
theorem attempts_next {k : ℕ} {a : Attempt ω σ ρ}
    (h : (attempts meanwhile attempt again weather tries i s)[k]? = some a) :
    k + 1 < (attempts meanwhile attempt again weather tries i s).length ↔
      again a.result = true ∧ k + 1 < tries := by
  induction tries generalizing i s k with
  | zero => cases h
  | succ tries ih =>
      rw [attempts] at h ⊢
      rw [List.length_cons]
      cases k with
      | zero =>
          cases h
          by_cases hagain : again (attempt (weather i) (meanwhile (weather i) s)).1 = true
          · rw [if_pos hagain]
            cases tries with
            | zero => simp [attempts]
            | succ tries => simp [attempts, hagain]
          · rw [if_neg hagain]
            simp [hagain]
      | succ k =>
          rw [List.getElem?_cons_succ] at h
          by_cases hagain : again (attempt (weather i) (meanwhile (weather i) s)).1 = true
          · rw [if_pos hagain] at h ⊢
            rw [Nat.add_lt_add_iff_right, ih h, Nat.add_lt_add_iff_right]
          · rw [if_neg hagain] at h
            cases h

/-- What others and every attempt preserve holds throughout. -/
theorem attempts_invariant {I : σ → Prop} (hmeanwhile : ∀ w s, I s → I (meanwhile w s))
    (hattempt : ∀ w s, I s → I (attempt w s).2) (hs : I s) :
    (∀ a ∈ attempts meanwhile attempt again weather tries i s, I a.before) ∧
      I (endState s (attempts meanwhile attempt again weather tries i s)) := by
  induction tries generalizing i s with
  | zero => exact ⟨fun a ha => (by cases ha), hs⟩
  | succ tries ih =>
      have hbefore := hmeanwhile (weather i) s hs
      have hafter := hattempt (weather i) _ hbefore
      rw [attempts]
      split_ifs
      · obtain ⟨hall, hend⟩ := ih (i := i + 1) hafter
        refine ⟨fun a ha => ?_, hend⟩
        rcases List.mem_cons.mp ha with rfl | ha
        · exact hbefore
        · exact hall a ha
      · refine ⟨fun a ha => ?_, hafter⟩
        rw [List.mem_singleton.mp ha]
        exact hbefore

/-- When every attempt with tries left asks for another or is done, the job is done after an attempt
that cannot but be. -/
theorem attempts_done (Done : σ → Prop) (Good : ω → Prop) {j : ℕ}
    (hmeanwhile : ∀ w s, Done s → Done (meanwhile w s))
    (hattempt : ∀ w s, Done s → Done (attempt w s).2)
    (hlog : ∀ k a, (attempts meanwhile attempt again weather tries i s)[k]? = some a →
      k + 1 < tries → again a.result = true ∨ Done a.after)
    (hgood : ∀ a ∈ attempts meanwhile attempt again weather tries i s,
      Good a.weather → Done a.after)
    (hj : j < tries) (hweather : Good (weather (i + j))) :
    Done (endState s (attempts meanwhile attempt again weather tries i s)) := by
  induction tries generalizing i s j with
  | zero => omega
  | succ tries ih =>
      have hstays {s' : σ} (hs' : Done s') :
          Done (endState s' (attempts meanwhile attempt again weather tries (i + 1) s')) :=
        (attempts_invariant hmeanwhile hattempt hs').2
      rw [attempts] at hlog hgood ⊢
      by_cases hagain : again (attempt (weather i) (meanwhile (weather i) s)).1 = true
      · rw [if_pos hagain] at hlog hgood ⊢
        by_cases hdone : Done (attempt (weather i) (meanwhile (weather i) s)).2
        · exact hstays hdone
        · cases j with
          | zero => exact absurd (hgood _ (List.mem_cons_self ..) hweather) hdone
          | succ j =>
              have hindex : i + (j + 1) = i + 1 + j := by omega
              refine ih (fun k a hk hlt => ?_) (fun a ha => ?_) (by omega) (hindex ▸ hweather)
              · exact hlog (k + 1) a hk (by omega)
              · exact hgood a (List.mem_cons_of_mem _ ha)
      · rw [if_neg hagain] at hlog hgood ⊢
        cases j with
        | zero => exact hgood _ (List.mem_singleton_self _) hweather
        | succ j =>
            obtain hyes | hdone := hlog 0 _ rfl (by omega)
            · exact absurd hyes hagain
            · exact hdone

end Attempts

end Transactional
