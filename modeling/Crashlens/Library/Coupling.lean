import Crashlens.Library.Program

/-!
# Two evaluations of one program

A program run against one handler from two states is `Coupled` while the answers agree: both
evaluations return the same value, and then the postcondition relates the states, or both fail with
the same error.
-/

namespace Transactional

/-- Both outcomes are the same error, or the same value in related states. -/
inductive SameOutcome {ε α π : Type} (post : α → π → π → Prop) :
    Except ε α × π → Except ε α × π → Prop where
  | ok {a : α} {s s' : π} (h : post a s s') : SameOutcome post (.ok a, s) (.ok a, s')
  | error {e : ε} {s s' : π} : SameOutcome post (.error e, s) (.error e, s')

theorem SameOutcome.mono {ε α π : Type} {post post' : α → π → π → Prop}
    {x x' : Except ε α × π} (h : SameOutcome post x x')
    (hpost : ∀ a s s', post a s s' → post' a s s') : SameOutcome post' x x' := by
  cases h with
  | ok h => exact .ok (hpost _ _ _ h)
  | error => exact .error

namespace Program

variable {Req : Type} {Resp : Req → Type} {ε α β π : Type}
  (handler : (q : Req) → π → Except ε (Resp q) × π)

def Coupled (post : α → π → π → Prop) : Program Req Resp ε α → π → π → Prop
  | .pure a, s, s' => post a s s'
  | .raise _, _, _ => True
  | .call q next, s, s' =>
    SameOutcome (fun r t t' => Coupled post (next r) t t') (handler q s) (handler q s')

variable {handler} {post : α → π → π → Prop} {s s' : π}

theorem coupled_bind {p : Program Req Resp ε β} {f : β → Program Req Resp ε α}
    (h : p.Coupled handler (fun b t t' => (f b).Coupled handler post t t') s s') :
    (p.bind f).Coupled handler post s s' := by
  induction p generalizing s s' with
  | pure b => exact h
  | raise e => trivial
  | call q next ih => exact SameOutcome.mono h fun r t t' hr => ih r hr

theorem eval_coupled {p : Program Req Resp ε α} (h : p.Coupled handler post s s') :
    SameOutcome post (p.eval handler s) (p.eval handler s') := by
  induction p generalizing s s' with
  | pure a => exact .ok h
  | raise e => exact .error
  | call q next ih =>
      rw [Coupled] at h
      generalize hx : handler q s = x at h
      generalize hx' : handler q s' = x' at h
      cases h with
      | ok hr =>
          rw [eval_call_ok hx, eval_call_ok hx']
          exact ih _ hr
      | error =>
          rw [eval_call_error hx, eval_call_error hx']
          exact .error

end Program

end Transactional
